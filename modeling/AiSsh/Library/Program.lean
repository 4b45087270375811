import Mathlib.Logic.Relation

/-!
Programs that ask their surroundings and may fail. A program is the tree of what it
asks next after each reply; the surroundings are a relation, so that one operation
may have many replies and many effects. A run lists what was asked, the reply and
the state after it.

`Ensures` is the logic of these programs: an invariant of every state a run passes
through and a condition on its end, both of which may speak of the whole history.
The rules follow the way a program is put together.
-/

namespace AiSsh.Library

universe u

/-- A program over the operations `Op`, with errors `ε` and results `α`. -/
inductive Program (Op : Type) (Reply : Op → Type) (ε : Type u) (α : Type u) : Type u
  | done (value : α)
  | fail (error : ε)
  | ask (op : Op) (next : Reply op → Program Op Reply ε α)

/-- One operation of a run. -/
structure Event (Op : Type) (Reply : Op → Type) (S : Type) where
  op : Op
  reply : Reply op
  after : S

/-- `env s op reply s'`: in `s` the surroundings may answer `op` so and be left in `s'`. -/
abbrev Env (Op : Type) (Reply : Op → Type) (S : Type) : Type :=
  S → (op : Op) → Reply op → S → Prop

namespace Program

variable {Op : Type} {Reply : Op → Type} {S : Type} {ε ε' α β : Type u}

def bind (p : Program Op Reply ε α) (f : α → Program Op Reply ε β) : Program Op Reply ε β :=
  match p with
  | .done value => f value
  | .fail error => .fail error
  | .ask op next => .ask op fun reply => (next reply).bind f

/-- Runs `f` on the error of a program that fails. -/
def handle (p : Program Op Reply ε α) (f : ε → Program Op Reply ε' α) :
    Program Op Reply ε' α :=
  match p with
  | .done value => .done value
  | .fail error => f error
  | .ask op next => .ask op fun reply => (next reply).handle f

instance : Monad (Program Op Reply ε) where
  pure := .done
  bind := bind

def mapError (f : ε → ε') (p : Program Op Reply ε α) : Program Op Reply ε' α :=
  p.handle fun error => .fail (f error)

def ofExcept : Except ε α → Program Op Reply ε α
  | .ok value => .done value
  | .error error => .fail error

@[simp] theorem pure_bind (value : α) (f : α → Program Op Reply ε β) :
    (pure value : Program Op Reply ε α) >>= f = f value := rfl

@[simp] theorem done_bind (value : α) (f : α → Program Op Reply ε β) :
    (.done value : Program Op Reply ε α) >>= f = f value := rfl

@[simp] theorem fail_bind (error : ε) (f : α → Program Op Reply ε β) :
    (.fail error : Program Op Reply ε α) >>= f = .fail error := rfl

@[simp] theorem ask_bind (op : Op) (next : Reply op → Program Op Reply ε α)
    (f : α → Program Op Reply ε β) :
    .ask op next >>= f = .ask op fun reply => next reply >>= f := rfl

/-- The runs of a program: the operations, the outcome and the last state. -/
inductive Runs (env : Env Op Reply S) :
    S → Program Op Reply ε α → List (Event Op Reply S) → Except ε α → S → Prop
  | done {s : S} {value : α} : Runs env s (.done value) [] (.ok value) s
  | fail {s : S} {error : ε} : Runs env s (.fail error) [] (.error error) s
  | ask {s s' t : S} {op : Op} {reply : Reply op} {next : Reply op → Program Op Reply ε α}
      {events : List (Event Op Reply S)} {result : Except ε α} (answer : env s op reply s')
      (rest : Runs env s' (next reply) events result t) :
      Runs env s (.ask op next) (⟨op, reply, s'⟩ :: events) result t

/-- What is left of a program after an answer to its next operation. -/
inductive Continues : Program Op Reply ε α → Program Op Reply ε α → Prop
  | ask (op : Op) (next : Reply op → Program Op Reply ε α) (reply : Reply op) :
      Continues (.ask op next) (next reply)

/-- What is left of a program after some of its operations. -/
abbrev Reaches : Program Op Reply ε α → Program Op Reply ε α → Prop :=
  Relation.ReflTransGen Continues

section Inversion

variable {env : Env Op Reply S} {s t : S} {events : List (Event Op Reply S)}

/-- A sequence that succeeds has a run of each part, one after the other. -/
theorem Runs.bind_ok {p : Program Op Reply ε α} {f : α → Program Op Reply ε β} {result : β}
    (h : Runs env s (p >>= f) events (.ok result) t) :
    ∃ first s' value rest, Runs env s p first (.ok value) s' ∧
      Runs env s' (f value) rest (.ok result) t ∧ events = first ++ rest := by
  induction p generalizing s events with
  | done value => exact ⟨[], s, value, events, .done, h, rfl⟩
  | fail error => cases h
  | ask op next ih =>
      cases h with
      | @ask _ s' _ _ reply _ _ _ answer rest =>
          obtain ⟨first, last, value, second, hp, hf, hevents⟩ := ih reply rest
          exact ⟨⟨op, reply, s'⟩ :: first, last, value, second, .ask answer hp, hf,
            by rw [hevents]; rfl⟩

theorem Runs.mapError_ok {p : Program Op Reply ε α} {f : ε → ε'} {value : α}
    (h : Runs env s (p.mapError f) events (.ok value) t) : Runs env s p events (.ok value) t := by
  induction p generalizing s events with
  | done value =>
      cases h
      exact .done
  | fail error => cases h
  | ask op next ih =>
      cases h with
      | ask answer rest => exact .ask answer (ih _ rest)

theorem Runs.ofExcept_ok {result : Except ε α} {value : α}
    (h : Runs env s (ofExcept result : Program Op Reply ε α) events (.ok value) t) :
    result = .ok value ∧ events = [] ∧ t = s := by
  cases result with
  | error error => cases h
  | ok value =>
      cases h
      exact ⟨rfl, rfl, rfl⟩

end Inversion

section Ensures

/-- Every state on the way meets `I`, with the history that led to it; a program that
succeeds ends in `Q`, one that fails in `R`. -/
def Ensures (env : Env Op Reply S) (I : List (Event Op Reply S) → S → Prop)
    (Q : α → List (Event Op Reply S) → S → Prop)
    (R : ε → List (Event Op Reply S) → S → Prop) :
    Program Op Reply ε α → List (Event Op Reply S) → S → Prop
  | .done value, log, s => Q value log s
  | .fail error, log, s => R error log s
  | .ask op next, log, s => ∀ reply s', env s op reply s' →
      I (log ++ [⟨op, reply, s'⟩]) s' ∧
        Ensures env I Q R (next reply) (log ++ [⟨op, reply, s'⟩]) s'

variable {env : Env Op Reply S} {I : List (Event Op Reply S) → S → Prop}
  {Q Q' : α → List (Event Op Reply S) → S → Prop}
  {R R' : ε → List (Event Op Reply S) → S → Prop} {log : List (Event Op Reply S)} {s : S}

theorem Ensures.mono {p : Program Op Reply ε α} (h : Ensures env I Q R p log s)
    (hok : ∀ value log s, Q value log s → Q' value log s)
    (herror : ∀ error log s, R error log s → R' error log s) :
    Ensures env I Q' R' p log s := by
  induction p generalizing log s with
  | done value => exact hok _ _ _ h
  | fail error => exact herror _ _ _ h
  | ask op next ih =>
      intro reply s' hanswer
      exact ⟨(h reply s' hanswer).1, ih reply (h reply s' hanswer).2⟩

/-- A sequence: the second part starts where the first has succeeded. -/
theorem Ensures.bind {p : Program Op Reply ε α} {f : α → Program Op Reply ε β}
    {P : β → List (Event Op Reply S) → S → Prop} (hp : Ensures env I Q R p log s)
    (hf : ∀ value log s, Q value log s → Ensures env I P R (f value) log s) :
    Ensures env I P R (p >>= f) log s := by
  induction p generalizing log s with
  | done value => exact hf value log s hp
  | fail error => exact hp
  | ask op next ih =>
      intro reply s' hanswer
      exact ⟨(hp reply s' hanswer).1, ih reply (hp reply s' hanswer).2⟩

/-- A handler starts where the program has failed. -/
theorem Ensures.handle {p : Program Op Reply ε α} {f : ε → Program Op Reply ε' α}
    {R' : ε' → List (Event Op Reply S) → S → Prop} (hp : Ensures env I Q R p log s)
    (hf : ∀ error log s, R error log s → Ensures env I Q R' (f error) log s) :
    Ensures env I Q R' (p.handle f) log s := by
  induction p generalizing log s with
  | done value => exact hp
  | fail error => exact hf error log s hp
  | ask op next ih =>
      intro reply s' hanswer
      exact ⟨(hp reply s' hanswer).1, ih reply (hp reply s' hanswer).2⟩

/-- What was in the history at the start is in it at the end. -/
theorem Ensures.keeps {p : Program Op Reply ε α} (h : Ensures env I Q R p log s)
    {event : Event Op Reply S} (hevent : event ∈ log) :
    Ensures env I (fun value log s => Q value log s ∧ event ∈ log) R p log s := by
  induction p generalizing log s with
  | done value => exact ⟨h, hevent⟩
  | fail error => exact h
  | ask op next ih =>
      intro reply s' hanswer
      exact ⟨(h reply s' hanswer).1,
        ih reply (h reply s' hanswer).2 (List.mem_append_left _ hevent)⟩

/-- What `Ensures` says of a run. -/
theorem Ensures.sound {p : Program Op Reply ε α} (h : Ensures env I Q R p log s)
    {events : List (Event Op Reply S)} {result : Except ε α} {t : S}
    (hrun : Runs env s p events result t) :
    (∀ before event after, events = before ++ event :: after →
      I (log ++ before ++ [event]) event.after) ∧
    (∀ value, result = .ok value → Q value (log ++ events) t) ∧
    ∀ error, result = .error error → R error (log ++ events) t := by
  induction hrun generalizing log with
  | done =>
      rw [List.append_nil]
      refine ⟨by simp, ?_, nofun⟩
      rintro value ⟨⟩
      exact h
  | fail =>
      rw [List.append_nil]
      refine ⟨by simp, nofun, ?_⟩
      rintro error ⟨⟩
      exact h
  | @ask s s' t op reply next events result answer rest ih =>
      obtain ⟨hinv, hnext⟩ := h reply s' answer
      obtain ⟨hall, hend⟩ := ih hnext
      refine ⟨?_, by simpa using hend⟩
      intro before event after hsplit
      cases before with
      | nil =>
          cases hsplit
          simpa using hinv
      | cons first before =>
          cases hsplit
          simpa using hall before event after rfl

end Ensures

/-- Surroundings that always have an answer let every program run to its end. -/
theorem exists_runs {env : Env Op Reply S} (henv : ∀ s op, ∃ reply s', env s op reply s')
    (p : Program Op Reply ε α) (s : S) : ∃ log result t, Runs env s p log result t := by
  induction p generalizing s with
  | done value => exact ⟨[], .ok value, s, .done⟩
  | fail error => exact ⟨[], .error error, s, .fail⟩
  | ask op next ih =>
      obtain ⟨reply, s', hanswer⟩ := henv s op
      obtain ⟨log, result, t, hruns⟩ := ih reply s'
      exact ⟨_, result, t, .ask hanswer hruns⟩

section Handler

/-- Surroundings that answer in one way only. -/
abbrev Handler (Op : Type) (Reply : Op → Type) (S : Type) : Type :=
  S → (op : Op) → Reply op × S

def run (handler : Handler Op Reply S) : Program Op Reply ε α → S → Except ε α × S
  | .done value, s => (.ok value, s)
  | .fail error, s => (.error error, s)
  | .ask op next, s => (next (handler s op).1).run handler (handler s op).2

variable {handler : Handler Op Reply S}

@[simp] theorem run_done (value : α) (s : S) :
    (.done value : Program Op Reply ε α).run handler s = (.ok value, s) := rfl

@[simp] theorem run_pure (value : α) (s : S) :
    (pure value : Program Op Reply ε α).run handler s = (.ok value, s) := rfl

@[simp] theorem run_fail (error : ε) (s : S) :
    (.fail error : Program Op Reply ε α).run handler s = (.error error, s) := rfl

@[simp] theorem run_ask (op : Op) (next : Reply op → Program Op Reply ε α) (s : S) :
    (Program.ask op next).run handler s =
      (next (handler s op).1).run handler (handler s op).2 := rfl

theorem run_bind (p : Program Op Reply ε α) (f : α → Program Op Reply ε β) (s : S) :
    (p >>= f).run handler s =
      match p.run handler s with
      | (.ok value, s) => (f value).run handler s
      | (.error error, s) => (.error error, s) := by
  induction p generalizing s with
  | done value => rfl
  | fail error => rfl
  | ask op next ih => exact ih _ _

theorem run_handle (p : Program Op Reply ε α) (f : ε → Program Op Reply ε' α) (s : S) :
    (p.handle f).run handler s =
      match p.run handler s with
      | (.ok value, s) => (.ok value, s)
      | (.error error, s) => (f error).run handler s := by
  induction p generalizing s with
  | done value => rfl
  | fail error => rfl
  | ask op next ih => exact ih _ _

@[simp] theorem run_ofExcept (result : Except ε α) (s : S) :
    (ofExcept result : Program Op Reply ε α).run handler s = (result, s) := by
  cases result <;> rfl

theorem run_bind_ok {p : Program Op Reply ε α} {s s' : S} {value : α}
    (h : p.run handler s = (.ok value, s')) (f : α → Program Op Reply ε β) :
    (p >>= f).run handler s = (f value).run handler s' := by
  rw [run_bind, h]

theorem run_bind_fail {p : Program Op Reply ε α} {s s' : S} {error : ε}
    (h : p.run handler s = (.error error, s')) (f : α → Program Op Reply ε β) :
    (p >>= f).run handler s = (.error error, s') := by
  rw [run_bind, h]

theorem run_handle_ok {p : Program Op Reply ε α} {s s' : S} {value : α}
    (h : p.run handler s = (.ok value, s')) (f : ε → Program Op Reply ε' α) :
    (p.handle f).run handler s = (.ok value, s') := by
  rw [run_handle, h]

/-- The history of a run against a handler. -/
def history (handler : Handler Op Reply S) :
    Program Op Reply ε α → S → List (Event Op Reply S)
  | .done _, _ => []
  | .fail _, _ => []
  | .ask op next, s =>
      ⟨op, (handler s op).1, (handler s op).2⟩ ::
        (next (handler s op).1).history handler (handler s op).2

/-- A handler that does what the surroundings may do has a run of them. -/
theorem runs_of_handler {env : Env Op Reply S}
    (hanswer : ∀ s op, env s op (handler s op).1 (handler s op).2)
    (p : Program Op Reply ε α) (s : S) :
    Runs env s p (p.history handler s) (p.run handler s).1 (p.run handler s).2 := by
  induction p generalizing s with
  | done value => exact .done
  | fail error => exact .fail
  | ask op next ih => exact .ask (hanswer s op) (ih _ _)

end Handler

end Program
end AiSsh.Library
