import AiSsh.Library.Machine
import Mathlib.Data.List.Infix

/-!
Questions and answers over a byte stream. A caller sends one question after the other, each
once the answer to the one before lets it go on; a server reads a question, answers it, and
reads the next. Bytes are on their way for any time, the stream may break anywhere, and the
caller may give up.

However the two sides interleave, the server answers the questions in the order in which they
were asked and none of them twice, and what the caller ends with is what the server answered.
-/

namespace AiSsh.Library

/-- What the bytes that have arrived are to a reader. -/
inductive Arrival (T : Type)
  | missing
  | broken
  | value (value : T) (rest : List UInt8)

/-- How values travel. A value can be read once all its bytes are there. -/
structure Framing (T : Type) where
  write : T → Option (List UInt8)
  read : List UInt8 → Arrival T
  read_nil : read [] = .missing
  read_write : ∀ {value part}, write value = some part → read part = .value value []
  read_part : ∀ {value part lost}, write value = some (part ++ lost) → lost ≠ [] →
    read part = .missing

/-- A server in state `S`, which answers from its state and from what it meets outside. The
flag of `next` says whether the answer went out. -/
structure Service (S X Q R : Type) where
  answer : S → X → Q → R
  next : S → X → Q → Bool → S
  stays : S → X → Q → Bool

/-- The states in which a service has given these answers. -/
inductive Service.Reaches {S X Q R : Type} (service : Service S X Q R) (start : S) :
    List (Q × R) → S → Prop
  | start : Reaches service start [] start
  | next {log : List (Q × R)} {server : S} (x : X) (question : Q) (written : Bool) :
      Reaches service start log server →
      Reaches service start (log ++ [(question, service.answer server x question)])
        (service.next server x question written)

namespace Service.Reaches

variable {S X Q R : Type} {service : Service S X Q R} {start server : S} {log : List (Q × R)}

theorem nil_inv (h : service.Reaches start [] server) : server = start := by
  generalize hlog : ([] : List (Q × R)) = log at h
  cases h with
  | start => rfl
  | next _ _ _ _ => exact absurd hlog.symm (List.append_ne_nil_of_right_ne_nil _ nofun)

theorem concat_inv (log : List (Q × R)) {entry : Q × R}
    (h : service.Reaches start (log ++ [entry]) server) :
    ∃ earlier x written, service.Reaches start log earlier ∧
      entry.2 = service.answer earlier x entry.1 ∧
        server = service.next earlier x entry.1 written := by
  generalize hlog : log ++ [entry] = whole at h
  cases h with
  | start => exact absurd hlog (List.append_ne_nil_of_right_ne_nil _ nofun)
  | next x question written h =>
      obtain ⟨rfl, hentry⟩ := List.append_inj' hlog rfl
      cases hentry
      exact ⟨_, x, written, h, rfl, rfl⟩

end Service.Reaches

inductive Caller (Q R : Type)
  | asking (question : Q) (later : List Q)
  | waiting (later : List Q)
  | ended (answer : Option R)

namespace Caller

variable {Q R : Type}

/-- After an answer. -/
def next (accepts : R → Bool) (later : List Q) (answer : R) : Caller Q R :=
  match later with
  | [] => .ended (some answer)
  | question :: later => if accepts answer then .asking question later else .ended (some answer)

def isEnded : Caller Q R → Bool
  | ended _ => true
  | _ => false

/-- The steps that are left to the caller. -/
def weight : Caller Q R → Nat
  | asking _ later => 2 * later.length + 2
  | waiting later => 2 * later.length + 1
  | ended _ => 0

theorem weight_next (accepts : R → Bool) (later : List Q) (answer : R) :
    (next accepts later answer).weight ≤ 2 * later.length := by
  cases later with
  | nil => exact Nat.le_refl 0
  | cons question later =>
      rw [next]
      split
      · exact Nat.le_of_eq (by simp [weight, Nat.mul_add])
      · exact Nat.zero_le _

end Caller

/-- `up` and `down` are sent and not yet read; `log` is what the server has answered. -/
structure Exchange (S Q R : Type) where
  caller : Caller Q R
  up : List UInt8
  down : List UInt8
  cut : Bool
  server : S
  serves : Bool
  log : List (Q × R)

inductive ExchangeAct (X : Type)
  | ask
  | serve (input : X)
  | receive
  | cut (up down : Nat)
  | abandon

namespace Exchange

variable {S X Q R : Type}

/-- Before the first question. -/
def start (server : S) (question : Q) (later : List Q) : Exchange S Q R :=
  ⟨.asking question later, [], [], false, server, true, []⟩

def asked (s : Exchange S Q R) : List Q := s.log.map Prod.fst

/-- Nobody reads what the server writes. -/
def deaf (s : Exchange S Q R) : Bool := s.cut || s.caller.isEnded

section Steps

variable (questions : Framing Q) (answers : Framing R) (service : Service S X Q R)
  (accepts : R → Bool)

def stepAsk (s : Exchange S Q R) : Option (Exchange S Q R) :=
  match s.caller with
  | .asking question later =>
      match questions.write question with
      | none => some { s with caller := .ended none }
      | some part =>
          if s.cut || !s.serves then some { s with caller := .ended none }
          else some { s with caller := .waiting later, up := s.up ++ part }
  | _ => none

def stepServe (s : Exchange S Q R) (x : X) : Option (Exchange S Q R) :=
  if s.serves then
    match questions.read s.up with
    | .value question rest =>
        let answer := service.answer s.server x question
        let part := if s.deaf then none else answers.write answer
        some { s with
          up := rest
          down := s.down ++ part.getD []
          server := service.next s.server x question part.isSome
          serves := part.isSome && service.stays s.server x question
          log := s.log ++ [(question, answer)] }
    | .broken => some { s with serves := false }
    | .missing => if s.deaf then some { s with serves := false } else none
  else none

def stepReceive (s : Exchange S Q R) : Option (Exchange S Q R) :=
  match s.caller with
  | .waiting later =>
      match answers.read s.down with
      | .value answer rest =>
          some { s with caller := .next accepts later answer, down := rest }
      | .broken => some { s with caller := .ended none }
      | .missing => if s.cut || !s.serves then some { s with caller := .ended none } else none
  | _ => none

def step (s : Exchange S Q R) : ExchangeAct X → Option (Exchange S Q R)
  | .ask => stepAsk questions s
  | .serve x => stepServe questions answers service s x
  | .receive => stepReceive answers accepts s
  | .cut up down =>
      if s.cut then none
      else some { s with cut := true, up := s.up.take up, down := s.down.take down }
  | .abandon => if s.caller.isEnded then none else some { s with caller := .ended none }

def machine : Machine (Exchange S Q R) (ExchangeAct X) :=
  ⟨step questions answers service accepts⟩

end Steps

/-- A question is on its way; what is lost of it was cut off. -/
def Sent (questions : Framing Q) (s : Exchange S Q R) (question : Q) : Prop :=
  ∃ lost, questions.write question = some (s.up ++ lost) ∧ (lost = [] ∨ s.cut = true)

/-- An answer is on its way, or could not be sent. -/
def Returned (answers : Framing R) (s : Exchange S Q R) (answer : R) : Prop :=
  ∃ lost, (answers.write answer).getD [] = s.down ++ lost ∧
    (answers.write answer = some s.down ∨ s.cut = true ∨ s.serves = false)

/-- How far the exchange has come. -/
inductive Stage (questions : Framing Q) (answers : Framing R) (accepts : R → Bool)
    (all : List Q) (s : Exchange S Q R) : Prop
  | asking {question : Q} {later : List Q} (hcaller : s.caller = .asking question later)
      (hall : all = s.asked ++ question :: later)
      (hup : s.up = []) (hdown : s.down = [])
  | sent {question : Q} {later : List Q} (hcaller : s.caller = .waiting later)
      (hall : all = s.asked ++ question :: later)
      (hup : Sent questions s question) (hdown : s.down = [])
  | answered {before : List (Q × R)} {question : Q} {answer : R} {later : List Q}
      (hcaller : s.caller = .waiting later) (hlog : s.log = before ++ [(question, answer)])
      (hall : all = s.asked ++ later)
      (hup : s.up = []) (hdown : Returned answers s answer)
  | ended {before : List (Q × R)} {question : Q} {answer : R}
      (hcaller : s.caller = .ended (some answer)) (hlog : s.log = before ++ [(question, answer)])
      (hall : s.asked <+: all)
      (hlast : s.asked = all ∨ accepts answer = false) (hup : s.up = [])
  | given {question : Q} {later : List Q} (hcaller : s.caller = .ended none)
      (hall : all = s.asked ++ question :: later)
      (hup : s.up = [] ∨ Sent questions s question)
  | gone {before : List (Q × R)} {question : Q} {answer : R}
      (hcaller : s.caller = .ended none) (hlog : s.log = before ++ [(question, answer)])
      (hall : s.asked <+: all) (hup : s.up = [])

section Run

variable {questions : Framing Q} {answers : Framing R} {service : Service S X Q R}
  {accepts : R → Bool} {all : List Q} {s s' : Exchange S Q R}

theorem Sent.read {question : Q} (h : Sent questions s question) :
    questions.read s.up = .value question [] ∨
      questions.read s.up = .missing ∧ s.cut = true := by
  obtain ⟨lost, hwrite, hlost⟩ := h
  cases lost with
  | nil =>
      rw [List.append_nil] at hwrite
      exact .inl (questions.read_write hwrite)
  | cons byte lost =>
      refine .inr ⟨questions.read_part hwrite (List.cons_ne_nil _ _), ?_⟩
      exact hlost.resolve_left (List.cons_ne_nil _ _)

theorem Returned.read {answer : R} (h : Returned answers s answer) :
    answers.read s.down = .value answer [] ∨
      answers.read s.down = .missing ∧ (s.cut = true ∨ s.serves = false) := by
  obtain ⟨lost, hpart, hsent⟩ := h
  cases hwrite : answers.write answer with
  | none =>
      rw [hwrite, Option.getD_none] at hpart
      have hnil : s.down = [] := (List.append_eq_nil_iff.mp hpart.symm).1
      rw [hwrite] at hsent
      rw [hnil]
      exact .inr ⟨answers.read_nil, hsent.resolve_left nofun⟩
  | some part =>
      rw [hwrite, Option.getD_some] at hpart
      subst hpart
      cases lost with
      | nil =>
          rw [List.append_nil] at hwrite
          exact .inl (answers.read_write hwrite)
      | cons byte lost =>
          refine .inr ⟨answers.read_part hwrite (List.cons_ne_nil _ _), ?_⟩
          refine hsent.resolve_left fun hsame => ?_
          rw [hwrite, Option.some.injEq, List.append_right_eq_self] at hsame
          cases hsame

theorem Sent.cut {question : Q} (h : Sent questions s question)
    (up down : Nat) :
    Sent questions { s with cut := true, up := s.up.take up, down := s.down.take down }
      question := by
  obtain ⟨lost, hwrite, -⟩ := h
  refine ⟨s.up.drop up ++ lost, ?_, .inr rfl⟩
  rw [hwrite, ← List.append_assoc, List.take_append_drop]

theorem Returned.cut {answer : R} (h : Returned answers s answer) (up down : Nat) :
    Returned answers { s with cut := true, up := s.up.take up, down := s.down.take down }
      answer := by
  obtain ⟨lost, hpart, -⟩ := h
  refine ⟨s.down.drop down ++ lost, ?_, .inr (.inl rfl)⟩
  rw [hpart, ← List.append_assoc, List.take_append_drop]

namespace Stage

theorem start (server : S) (question : Q) (later : List Q) :
    Stage questions answers accepts (question :: later) (.start server question later) :=
  .asking rfl rfl rfl rfl

theorem hangUp (h : Stage questions answers accepts all s) :
    Stage questions answers accepts all { s with serves := false } := by
  cases h with
  | asking hcaller hall hup hdown => exact .asking hcaller hall hup hdown
  | sent hcaller hall hup hdown => exact .sent hcaller hall hup hdown
  | answered hcaller hlog hall hup hdown =>
      obtain ⟨lost, hpart, -⟩ := hdown
      exact .answered hcaller hlog hall hup ⟨lost, hpart, .inr (.inr rfl)⟩
  | ended hcaller hlog hall hlast hup =>
      exact .ended hcaller hlog hall hlast hup
  | given hcaller hall hup => exact .given hcaller hall hup
  | gone hcaller hlog hall hup => exact .gone hcaller hlog hall hup

theorem ask (h : Stage questions answers accepts all s) (hstep : stepAsk questions s = some s') :
    Stage questions answers accepts all s' := by
  cases h with
  | asking hcaller hall hup hdown =>
      simp only [stepAsk, hcaller] at hstep
      split at hstep
      · cases hstep
        exact .given rfl hall (.inl hup)
      · rename_i part hwrite
        split at hstep
        · cases hstep
          exact .given rfl hall (.inl hup)
        · cases hstep
          refine .sent rfl hall ⟨[], ?_, .inl rfl⟩ hdown
          rw [hwrite, hup, List.nil_append, List.append_nil]
  | sent hcaller _ _ _ | answered hcaller _ _ _ _ | ended hcaller _ _ _ _
  | given hcaller _ _ | gone hcaller _ _ _ =>
      simp only [stepAsk, hcaller] at hstep
      cases hstep

/-- Nothing is read where nothing has arrived. -/
theorem serve_missing {x : X} (hread : questions.read s.up = .missing)
    (hstep : stepServe questions answers service s x = some s') :
    s' = { s with serves := false } := by
  simp only [stepServe, hread] at hstep
  split at hstep
  · split at hstep
    · cases hstep
      rfl
    · cases hstep
  · cases hstep

/-- A question that has arrived is answered. -/
theorem serve_value {x : X} {question : Q} (hread : questions.read s.up = .value question [])
    (hstep : stepServe questions answers service s x = some s') :
    ∃ part, (part.isSome → s.deaf = false ∧
        part = answers.write (service.answer s.server x question)) ∧
      s' = { s with
        up := []
        down := s.down ++ part.getD []
        server := service.next s.server x question part.isSome
        serves := part.isSome && service.stays s.server x question
        log := s.log ++ [(question, service.answer s.server x question)] } := by
  simp only [stepServe, hread] at hstep
  split at hstep
  · cases hstep
    refine ⟨_, fun hpart => ?_, rfl⟩
    cases hdeaf : s.deaf with
    | true =>
        rw [hdeaf] at hpart
        cases hpart
    | false => exact ⟨rfl, rfl⟩
  · cases hstep

theorem serve (h : Stage questions answers accepts all s) {x : X}
    (hstep : stepServe questions answers service s x = some s') :
    Stage questions answers accepts all s' := by
  have hquiet (hup : s.up = []) : Stage questions answers accepts all s' := by
    rw [serve_missing (hup ▸ questions.read_nil) hstep]
    exact h.hangUp
  have hmissing (hread : questions.read s.up = .missing) :
      Stage questions answers accepts all s' := by
    rw [serve_missing hread hstep]
    exact h.hangUp
  cases h with
  | asking hcaller hall hup hdown => exact hquiet hup
  | sent hcaller hall hup hdown =>
      cases hup.read with
      | inr hread => exact hmissing hread.1
      | inl hread =>
          obtain ⟨part, hpart, rfl⟩ := serve_value hread hstep
          refine .answered hcaller rfl ?_ rfl ?_
          · rw [hall]
            simp [asked]
          · cases part with
            | none => exact ⟨_, by rw [hdown]; rfl, .inr (.inr rfl)⟩
            | some part =>
                obtain ⟨-, hwrite⟩ := hpart rfl
                refine ⟨[], ?_, .inl ?_⟩
                · rw [← hwrite, hdown, List.nil_append, List.append_nil]
                · rw [← hwrite, hdown]
                  rfl
  | answered hcaller hlog hall hup hdown => exact hquiet hup
  | ended hcaller hlog hall hlast hup => exact hquiet hup
  | given hcaller hall hup =>
      cases hup with
      | inl hup => exact hquiet hup
      | inr hsent =>
          cases hsent.read with
          | inr hread => exact hmissing hread.1
          | inl hread =>
              obtain ⟨part, -, rfl⟩ := serve_value hread hstep
              rename_i question later
              refine .gone hcaller rfl ⟨later, ?_⟩ rfl
              rw [hall]
              simp [asked]
  | gone hcaller hlog hall hup => exact hquiet hup

theorem receive (h : Stage questions answers accepts all s)
    (hstep : stepReceive answers accepts s = some s') :
    Stage questions answers accepts all s' := by
  cases h with
  | sent hcaller hall hup hdown =>
      simp only [stepReceive, hcaller, hdown, answers.read_nil] at hstep
      split at hstep
      · cases hstep
        exact .given rfl hall (.inr hup)
      · cases hstep
  | answered hcaller hlog hall hup hdown =>
      rename_i before question answer later
      have hprefix : s.asked <+: all := ⟨later, hall.symm⟩
      cases hdown.read with
      | inl hread =>
          simp only [stepReceive, hcaller, hread] at hstep
          cases hstep
          cases later with
          | nil =>
              rw [List.append_nil] at hall
              exact .ended rfl hlog hprefix (.inl hall.symm) hup
          | cons question' later =>
              cases haccepts : accepts answer with
              | true => exact .asking (by simp [Caller.next, haccepts]) hall hup rfl
              | false =>
                  refine .ended ?_ hlog hprefix (.inr haccepts) hup
                  simp [Caller.next, haccepts]
      | inr hread =>
          simp only [stepReceive, hcaller, hread.1] at hstep
          split at hstep
          · cases hstep
            exact .gone rfl hlog hprefix hup
          · cases hstep
  | asking hcaller _ _ _ | ended hcaller _ _ _ _ | given hcaller _ _
  | gone hcaller _ _ _ =>
      simp only [stepReceive, hcaller] at hstep
      cases hstep

theorem cut (h : Stage questions answers accepts all s) (up down : Nat) :
    Stage questions answers accepts all
      { s with cut := true, up := s.up.take up, down := s.down.take down } := by
  have hnone {bytes : List UInt8} (count : Nat) (hbytes : bytes = []) : bytes.take count = [] := by
    rw [hbytes, List.take_nil]
  cases h with
  | asking hcaller hall hup hdown =>
      exact .asking hcaller hall (hnone up hup) (hnone down hdown)
  | sent hcaller hall hup hdown =>
      exact .sent hcaller hall (hup.cut up down) (hnone down hdown)
  | answered hcaller hlog hall hup hdown =>
      exact .answered hcaller hlog hall (hnone up hup) (hdown.cut up down)
  | ended hcaller hlog hall hlast hup =>
      exact .ended hcaller hlog hall hlast (hnone up hup)
  | given hcaller hall hup =>
      exact .given hcaller hall (hup.imp (hnone up) fun hsent => hsent.cut up down)
  | gone hcaller hlog hall hup => exact .gone hcaller hlog hall (hnone up hup)

/-- The caller gives up. -/
theorem abandon (h : Stage questions answers accepts all s) (hopen : s.caller.isEnded = false) :
    Stage questions answers accepts all { s with caller := .ended none } := by
  cases h with
  | asking hcaller hall hup hdown => exact .given rfl hall (.inl hup)
  | sent hcaller hall hup hdown => exact .given rfl hall (.inr hup)
  | answered hcaller hlog hall hup hdown =>
      exact .gone rfl hlog ⟨_, hall.symm⟩ hup
  | ended hcaller _ _ _ _ | given hcaller _ _ | gone hcaller _ _ _ =>
      rw [hcaller] at hopen
      cases hopen

theorem step (h : Stage questions answers accepts all s) {act : ExchangeAct X}
    (hstep : Exchange.step questions answers service accepts s act = some s') :
    Stage questions answers accepts all s' := by
  cases act with
  | ask => exact h.ask hstep
  | serve x => exact h.serve hstep
  | receive => exact h.receive hstep
  | cut up down =>
      simp only [Exchange.step] at hstep
      split at hstep
      · cases hstep
      · cases hstep
        exact h.cut up down
  | abandon =>
      simp only [Exchange.step] at hstep
      split at hstep
      · cases hstep
      · rename_i hopen
        cases hstep
        exact h.abandon (Bool.eq_false_iff.mpr hopen)

theorem asked_prefix (h : Stage questions answers accepts all s) : s.asked <+: all := by
  cases h with
  | asking _ hall _ _ | sent _ hall _ _ | answered _ _ hall _ _ | given _ hall _ =>
      exact ⟨_, hall.symm⟩
  | ended _ _ hall _ _ | gone _ _ hall _ => exact hall

/-- What the caller ends with is the server's last answer. -/
theorem last (h : Stage questions answers accepts all s) {answer : R}
    (hended : s.caller = .ended (some answer)) :
    ∃ before question, s.log = before ++ [(question, answer)] ∧
      (s.asked = all ∨ accepts answer = false) := by
  cases h with
  | ended hcaller hlog hall hlast hup =>
      rw [hcaller] at hended
      cases hended
      exact ⟨_, _, hlog, hlast⟩
  | asking hcaller _ _ _ | sent hcaller _ _ _ | answered hcaller _ _ _ _
  | given hcaller _ _ | gone hcaller _ _ _ =>
      rw [hcaller] at hended
      cases hended

end Stage

theorem stage_of_run {server : S} {question : Q} {later : List Q} {acts : List (ExchangeAct X)}
    (hrun : (machine questions answers service accepts).run (.start server question later) acts =
      some s) :
    Stage questions answers accepts (question :: later) s :=
  (machine questions answers service accepts).invariant (fun _ _ _ h hstep => h.step hstep)
    (.start server question later) hrun

/-- The log is what the service answered, state by state. -/
theorem reaches_of_run {server : S} {question : Q} {later : List Q} {acts : List (ExchangeAct X)}
    (hrun : (machine questions answers service accepts).run (.start server question later) acts =
      some s) :
    service.Reaches server s.log s.server := by
  refine (machine questions answers service accepts).invariant
    (I := fun s => service.Reaches server s.log s.server) (fun s act s' h hstep => ?_) .start hrun
  cases act with
  | ask =>
      simp only [machine, step, stepAsk] at hstep
      repeat' split at hstep
      all_goals cases hstep
      all_goals exact h
  | serve x =>
      simp only [machine, step, stepServe] at hstep
      split at hstep
      · split at hstep
        · cases hstep
          exact h.next x _ _
        · cases hstep
          exact h
        · split at hstep
          all_goals cases hstep
          exact h
      · cases hstep
  | receive =>
      simp only [machine, step, stepReceive] at hstep
      repeat' split at hstep
      all_goals cases hstep
      all_goals exact h
  | cut up down | abandon =>
      simp only [machine, step] at hstep
      split at hstep
      all_goals cases hstep
      all_goals exact h

/-- As long as the caller waits, a step of one of the two sides is possible. -/
theorem Stage.goes_on (service : Service S X Q R) (h : Stage questions answers accepts all s)
    (hopen : s.caller.isEnded = false) (x : X) :
    ∃ act, (act = .ask ∨ act = .serve x ∨ act = .receive) ∧
      (Exchange.step questions answers service accepts s act).isSome := by
  cases h with
  | asking hcaller hall hup hdown =>
      refine ⟨.ask, .inl rfl, ?_⟩
      simp only [Exchange.step, stepAsk, hcaller]
      repeat' split
      all_goals rfl
  | sent hcaller hall hup hdown =>
      cases hserves : s.serves with
      | false =>
          refine ⟨.receive, .inr (.inr rfl), ?_⟩
          simp [Exchange.step, stepReceive, hcaller, hdown, answers.read_nil, hserves]
      | true =>
          refine ⟨.serve x, .inr (.inl rfl), ?_⟩
          cases hup.read with
          | inl hread => simp [Exchange.step, stepServe, hserves, hread]
          | inr hread => simp [Exchange.step, stepServe, hserves, hread.1, deaf, hread.2]
  | answered hcaller hlog hall hup hdown =>
      refine ⟨.receive, .inr (.inr rfl), ?_⟩
      cases hdown.read with
      | inl hread => simp [Exchange.step, stepReceive, hcaller, hread]
      | inr hread => cases hread.2 with
        | inl hcut => simp [Exchange.step, stepReceive, hcaller, hread.1, hcut]
        | inr hquiet => simp [Exchange.step, stepReceive, hcaller, hread.1, hquiet]
  | ended hcaller _ _ _ _ | given hcaller _ _ | gone hcaller _ _ _ =>
      rw [hcaller] at hopen
      cases hopen

/-- The steps that are left, for both sides together. -/
def weight (all : List Q) (s : Exchange S Q R) : Nat :=
  s.caller.weight + (all.length - s.log.length) + s.serves.toNat + (!s.cut).toNat

theorem Stage.log_length_le (h : Stage questions answers accepts all s) :
    s.log.length ≤ all.length := by
  have hle := h.asked_prefix.length_le
  rwa [asked, List.length_map] at hle

theorem Stage.weight_lt (h : Stage questions answers accepts all s') {act : ExchangeAct X}
    (hstep : Exchange.step questions answers service accepts s act = some s') :
    weight all s' < weight all s := by
  have hlog := h.log_length_le
  cases act with
  | ask =>
      simp only [Exchange.step, stepAsk] at hstep
      split at hstep
      · rename_i question later hcaller
        repeat' split at hstep
        all_goals
          cases hstep
          simp only [weight, hcaller, Caller.weight]
          omega
      · cases hstep
  | serve x =>
      simp only [Exchange.step, stepServe] at hstep
      split at hstep
      · rename_i hserves
        have hquiet : weight all { s with serves := false } < weight all s := by
          simp only [weight, hserves, Bool.toNat_true, Bool.toNat_false]
          omega
        split at hstep
        · rename_i question rest hread
          cases hstep
          rw [List.length_append, List.length_singleton] at hlog
          have hstays := Bool.toNat_le (Option.isSome
            (if s.deaf then none else answers.write (service.answer s.server x question)) &&
              service.stays s.server x question)
          simp only [weight, hserves, Bool.toNat_true, List.length_append, List.length_singleton]
          omega
        · cases hstep
          exact hquiet
        · split at hstep
          all_goals cases hstep
          exact hquiet
      · cases hstep
  | receive =>
      simp only [Exchange.step, stepReceive] at hstep
      split at hstep
      · rename_i later hcaller
        split at hstep
        · rename_i answer rest hread
          cases hstep
          have hnext := Caller.weight_next accepts later answer
          simp only [weight, hcaller, Caller.weight] at hnext ⊢
          omega
        · cases hstep
          simp only [weight, hcaller, Caller.weight]
          omega
        · split at hstep
          all_goals cases hstep
          simp only [weight, hcaller, Caller.weight]
          omega
      · cases hstep
  | cut up down =>
      simp only [Exchange.step] at hstep
      split at hstep
      · cases hstep
      · rename_i hcut
        cases hstep
        simp only [weight, Bool.eq_false_iff.mpr hcut, Bool.not_true, Bool.not_false,
          Bool.toNat_true, Bool.toNat_false]
        omega
  | abandon =>
      simp only [Exchange.step] at hstep
      split at hstep
      · cases hstep
      · rename_i hopen
        cases hstep
        have hpos : 0 < s.caller.weight := by
          cases hcaller : s.caller with
          | asking _ _ | waiting _ => exact Nat.succ_pos _
          | ended answer => exact absurd (by rw [hcaller]; rfl) hopen
        have hnone : (Caller.ended none : Caller Q R).weight = 0 := rfl
        simp only [weight, hnone] at hlog ⊢
        omega

theorem steps_le {acts : List (ExchangeAct X)} (h : Stage questions answers accepts all s)
    (hrun : (machine questions answers service accepts).run s acts = some s') :
    acts.length + weight all s' ≤ weight all s := by
  induction acts generalizing s with
  | nil =>
      cases hrun
      exact Nat.le_of_eq (Nat.zero_add _)
  | cons act acts ih =>
      obtain ⟨middle, hstep, hrun⟩ := Machine.run_cons_some _ |>.mp hrun
      have hmiddle := h.step hstep
      have hless := hmiddle.weight_lt hstep
      have hrest := ih hmiddle hrun
      rw [List.length_cons]
      omega

end Run

end Exchange
end AiSsh.Library
