import AiSsh.Library.Machine
import Mathlib.Logic.Function.Basic

/-!
The socket file of the Unix endpoint and the calls that bind it. A call looks whether the file
exists, connects to it, removes it when nobody answers, and binds; the steps of the calls
interleave, and listeners are shut down or die in between. Every listener keeps its file, and
with it the endpoint, as long as no call removes another socket than the one that refused it.
-/

namespace AiSsh

open Library

inductive BindErrorKind
  | addrInUse
  | notFound
  | other
  deriving DecidableEq, Repr

/-- The error of a call, by the step that it ends with. -/
inductive BindError
  | alreadyRunning
  | cannotInspect
  | cannotRemove (error : BindErrorKind)
  | cannotBind (error : BindErrorKind)
  deriving DecidableEq, Repr

def BindError.kind : BindError → BindErrorKind
  | alreadyRunning => .addrInUse
  | cannotInspect => .other
  | cannotRemove error | cannotBind error => error

/-- A socket in the file system, by the call that bound it. `left` is from before. -/
inductive Socket
  | left
  | of (call : Nat)
  deriving DecidableEq, Repr

inductive BindPhase
  | idle
  | existing
  | refused (socket : Option Socket)
  | clear
  | returned (result : Except BindError Unit)

/-- `contested` says that a listener was live when the call began. -/
structure BindCall where
  phase : BindPhase := .idle
  contested : Bool := false

/-- `listeners` are the calls whose listener is bound and not yet shut down. -/
structure Endpoint where
  file : Option Socket := none
  listeners : List Nat := []
  calls : Nat → BindCall := fun _ => {}

/-- `fault` is a failure of the operating system that no other step accounts for. -/
inductive EndpointAct
  | pathExists (call : Nat)
  | connect (call : Nat) (fault : Bool)
  | removeFile (call : Nat) (fault : Bool)
  | bind (call : Nat) (fault : Bool)
  | cleanup (call : Nat)
  | die (call : Nat)
  deriving DecidableEq, Repr

namespace Endpoint

def set (s : Endpoint) (call : Nat) (moved : BindCall) : Endpoint :=
  { s with calls := Function.update s.calls call moved }

def put (s : Endpoint) (call : Nat) (phase : BindPhase) : Endpoint :=
  s.set call { s.calls call with phase := phase }

def fail (s : Endpoint) (call : Nat) (error : BindError) : Endpoint :=
  s.put call (.returned (.error error))

/-- Somebody answers a connection to the socket. -/
def answers (s : Endpoint) : Option Socket → Bool
  | some (.of call) => s.listeners.contains call
  | _ => false

def stepExists (s : Endpoint) (call : Nat) : Option Endpoint :=
  match (s.calls call).phase with
  | .idle =>
      let phase := if s.file.isSome then BindPhase.existing else .clear
      some (s.set call ⟨phase, !s.listeners.isEmpty⟩)
  | _ => none

def stepConnect (s : Endpoint) (call : Nat) (fault : Bool) : Option Endpoint :=
  match (s.calls call).phase with
  | .existing =>
      if fault then some (s.fail call .cannotInspect)
      else if s.answers s.file then some (s.fail call .alreadyRunning)
      else some (s.put call (.refused s.file))
  | _ => none

def stepRemoveFile (s : Endpoint) (call : Nat) (fault : Bool) : Option Endpoint :=
  match (s.calls call).phase with
  | .refused _ =>
      if fault then some (s.fail call (.cannotRemove .other))
      else if s.file.isSome then some { s.put call .clear with file := none }
      else some (s.fail call (.cannotRemove .notFound))
  | _ => none

def stepBind (s : Endpoint) (call : Nat) (fault : Bool) : Option Endpoint :=
  match (s.calls call).phase with
  | .clear =>
      if fault then some (s.fail call (.cannotBind .other))
      else if s.file.isSome then some (s.fail call (.cannotBind .addrInUse))
      else some { s.put call (.returned (.ok ())) with
        file := some (.of call), listeners := call :: s.listeners }
  | _ => none

def shutDown (s : Endpoint) (call : Nat) (file : Option Socket) : Option Endpoint :=
  if s.listeners.contains call then
    some { s with file := file, listeners := s.listeners.filter (· != call) }
  else none

def step (s : Endpoint) : EndpointAct → Option Endpoint
  | .pathExists call => s.stepExists call
  | .connect call fault => s.stepConnect call fault
  | .removeFile call fault => s.stepRemoveFile call fault
  | .bind call fault => s.stepBind call fault
  | .cleanup call => s.shutDown call none
  | .die call => s.shutDown call s.file

def machine : Machine Endpoint EndpointAct := ⟨step⟩

/-- The file as the first call finds it: none, one of a dead daemon or one of a live daemon. -/
inductive Found
  | nothing
  | stale
  | live
  deriving DecidableEq, Repr

def start : Found → Endpoint
  | .nothing => {}
  | .stale => { file := some .left }
  | .live =>
      { file := some (.of 0), listeners := [0],
        calls := Function.update (fun _ => {}) 0 ⟨.returned (.ok ()), false⟩ }

/-- At most one listener is live, and a call that began while one was does not return
anything but `AddrInUse`. -/
structure OneOwner (s : Endpoint) : Prop where
  exclusive : ∀ c ∈ s.listeners, ∀ d ∈ s.listeners, c = d
  refuses : ∀ c, (s.calls c).contested = true → ∀ result, (s.calls c).phase = .returned result →
    ∃ error, result = .error error ∧ error.kind = .addrInUse

/-- The step does not remove the socket file of a live listener of another call. -/
def Spares (s : Endpoint) : EndpointAct → Prop
  | .removeFile c false | .cleanup c => ∀ d ∈ s.listeners, d ≠ c → s.file ≠ some (.of d)
  | _ => True

/-- A call removes no other socket than the one that refused it, no listener goes away between
the first two steps of a call that began while it was live, and the connection of such a call
does not fail for a reason of its own. -/
def Undisturbed (s : Endpoint) : EndpointAct → Prop
  | .removeFile c false =>
      ∀ socket, (s.calls c).phase = .refused socket → s.file = socket ∨ s.file = none
  | .connect c true => (s.calls c).contested = false
  | .cleanup _ | .die _ => ∀ c, (s.calls c).phase = .existing → (s.calls c).contested = false
  | _ => True

/-- Every listener has its socket in the file, which a call that returned bound; a refused call
was refused by nobody or by a dead listener; and a contested call has yet to connect to a live
one, or was told that it is there. -/
structure Owned (s : Endpoint) : Prop where
  file : ∀ c ∈ s.listeners, s.file = some (.of c)
  bound : ∀ c, s.file = some (.of c) → (s.calls c).phase = .returned (.ok ())
  refused : ∀ c d, (s.calls c).phase = .refused (some (.of d)) →
    (s.calls d).phase = .returned (.ok ()) ∧ d ∉ s.listeners
  contested : ∀ c, (s.calls c).contested = true →
    (s.calls c).phase = .existing ∧ s.listeners ≠ [] ∨
      ∃ error, (s.calls c).phase = .returned (.error error) ∧ error.kind = .addrInUse

theorem Owned.oneOwner {s : Endpoint} (h : Owned s) : OneOwner s where
  exclusive c hc d hd := by
    have hsame := (h.file c hc).symm.trans (h.file d hd)
    cases hsame
    rfl
  refuses c hc result hresult := by
    cases h.contested c hc with
    | inl hexisting =>
        rw [hexisting.1] at hresult
        cases hresult
    | inr hrefused =>
        obtain ⟨error, hphase, hkind⟩ := hrefused
        rw [hphase] at hresult
        cases hresult
        exact ⟨error, rfl, hkind⟩

theorem start_owned (found : Found) : Owned (start found) := by
  cases found with
  | live =>
      refine ⟨fun c hc => ?_, fun c hc => ?_, fun c d hc => ?_, fun c hc => ?_⟩
      · cases List.mem_singleton.mp hc
        rfl
      · cases hc
        rfl
      · by_cases h0 : c = 0
        · subst h0
          cases hc
        · simp [start, h0] at hc
      · by_cases h0 : c = 0
        · subst h0
          cases hc
        · simp [start, h0] at hc
  | _ =>
      refine ⟨fun c hc => ?_, fun c hc => ?_, fun c d hc => ?_, fun c hc => ?_⟩
      all_goals cases hc

section

variable {s s' : Endpoint} {c d : Nat} {call : BindCall}

theorem set_self : (s.set c call).calls c = call := Function.update_self ..

theorem set_of_ne (h : d ≠ c) : (s.set c call).calls d = s.calls d := Function.update_of_ne h ..

namespace Owned

theorem set (h : Owned s) (hopen : (s.calls c).phase ≠ .returned (.ok ()))
    (hrefused : ∀ d, call.phase = .refused (some (.of d)) →
      (s.calls d).phase = .returned (.ok ()) ∧ d ∉ s.listeners)
    (hcontested : call.contested = true → call.phase = .existing ∧ s.listeners ≠ [] ∨
      ∃ error, call.phase = .returned (.error error) ∧ error.kind = .addrInUse) :
    Owned (s.set c call) := by
  have hkeep (d : Nat) (hd : (s.calls d).phase = .returned (.ok ())) :
      ((s.set c call).calls d).phase = .returned (.ok ()) := by
    have hne : d ≠ c := fun heq => hopen (heq ▸ hd)
    rw [set_of_ne hne, hd]
  refine ⟨h.file, fun d hd => hkeep d (h.bound d hd), fun d e hd => ?_, fun d hd => ?_⟩
  · by_cases heq : d = c
    · subst heq
      rw [set_self] at hd
      exact ⟨hkeep e (hrefused e hd).1, (hrefused e hd).2⟩
    · rw [set_of_ne heq] at hd
      exact ⟨hkeep e (h.refused d e hd).1, (h.refused d e hd).2⟩
  · by_cases heq : d = c
    · subst heq
      rw [set_self] at hd ⊢
      exact hcontested hd
    · rw [set_of_ne heq] at hd ⊢
      exact h.contested d hd

/-- A call that is not contested fails. -/
theorem fail (h : Owned s) (hopen : (s.calls c).phase ≠ .returned (.ok ()))
    (hcontested : (s.calls c).contested = false) (error : BindError) : Owned (s.fail c error) := by
  refine h.set hopen (fun d hd => ?_) fun htrue => ?_
  · cases hd
  · rw [hcontested] at htrue
    cases htrue

theorem not_contested (h : Owned s) (hexisting : (s.calls c).phase ≠ .existing)
    (hreturned : ∀ error, (s.calls c).phase ≠ .returned (.error error)) :
    (s.calls c).contested = false := by
  rw [Bool.eq_false_iff]
  intro htrue
  cases h.contested c htrue with
  | inl hphase => exact hexisting hphase.1
  | inr hphase =>
      obtain ⟨error, hphase, -⟩ := hphase
      exact hreturned error hphase

theorem answers_of_listener (h : Owned s) (hd : d ∈ s.listeners) : s.answers s.file = true := by
  rw [h.file d hd]
  exact List.contains_iff_mem.mpr hd

theorem stepExists (h : Owned s) (hstep : s.stepExists c = some s') : Owned s' := by
  simp only [Endpoint.stepExists] at hstep
  split at hstep
  · rename_i hidle
    cases hstep
    refine h.set (by rw [hidle]; exact fun heq => by cases heq) (fun d hd => ?_) fun htrue => ?_
    · cases hfile : s.file.isSome with
      | true =>
          rw [hfile] at hd
          cases hd
      | false =>
          rw [hfile] at hd
          cases hd
    · cases hlisteners : s.listeners with
      | nil =>
          rw [hlisteners] at htrue
          cases htrue
      | cons d rest =>
          have hfile := h.file d (by rw [hlisteners]; exact List.mem_cons_self)
          refine .inl ⟨?_, List.cons_ne_nil d rest⟩
          rw [hfile]
          rfl
  · cases hstep

theorem stepConnect {fault : Bool} (h : Owned s)
    (hD : Undisturbed s (.connect c fault)) (hstep : s.stepConnect c fault = some s') :
    Owned s' := by
  simp only [Endpoint.stepConnect] at hstep
  split at hstep
  · rename_i hexisting
    have hopen : (s.calls c).phase ≠ .returned (.ok ()) := by
      rw [hexisting]
      exact fun heq => by cases heq
    cases fault with
    | true =>
        cases hstep
        exact h.fail hopen hD _
    | false =>
        cases hanswers : s.answers s.file with
        | true =>
            simp only [hanswers, if_true, Bool.false_eq_true, if_false] at hstep
            cases hstep
            refine h.set hopen (fun d hd => ?_) fun _ => .inr ⟨_, rfl, rfl⟩
            cases hd
        | false =>
            simp only [hanswers, Bool.false_eq_true, if_false] at hstep
            cases hstep
            refine h.set hopen (fun d hd => ?_) fun htrue => ?_
            · have hfile : s.file = some (.of d) := BindPhase.refused.inj hd
              refine ⟨h.bound d hfile, fun hmem => ?_⟩
              rw [h.answers_of_listener hmem] at hanswers
              cases hanswers
            · cases h.contested c htrue with
              | inl hlive =>
                  obtain ⟨d, hd⟩ := List.exists_mem_of_ne_nil _ hlive.2
                  rw [h.answers_of_listener hd] at hanswers
                  cases hanswers
              | inr hreturned =>
                  obtain ⟨error, hphase, -⟩ := hreturned
                  rw [hexisting] at hphase
                  cases hphase
  · cases hstep

/-- Without listeners the file may go. -/
theorem unlink (h : Owned s) (hnone : s.listeners = []) : Owned { s with file := none } where
  file c hc := by
    rw [hnone] at hc
    cases hc
  bound c hc := by cases hc
  refused := h.refused
  contested := h.contested

/-- The socket that refused the call is nobody's. -/
theorem listeners_nil (h : Owned s) {socket : Option Socket}
    (hphase : (s.calls c).phase = .refused socket) (hD : s.file = socket ∨ s.file = none) :
    s.listeners = [] := by
  rw [List.eq_nil_iff_forall_not_mem]
  intro d hd
  have hfile := h.file d hd
  cases hD with
  | inl hsame =>
      rw [← hsame, hfile] at hphase
      exact (h.refused c d hphase).2 hd
  | inr hnone =>
      rw [hnone] at hfile
      cases hfile

theorem stepRemoveFile {fault : Bool} (h : Owned s)
    (hD : Undisturbed s (.removeFile c fault)) (hstep : s.stepRemoveFile c fault = some s') :
    Owned s' := by
  simp only [Endpoint.stepRemoveFile] at hstep
  split at hstep
  · rename_i socket hphase
    have hopen : (s.calls c).phase ≠ .returned (.ok ()) := by
      rw [hphase]
      exact fun heq => by cases heq
    have hcontested : (s.calls c).contested = false := by
      refine h.not_contested ?_ fun error => ?_
      all_goals
        rw [hphase]
        exact fun heq => by cases heq
    cases fault with
    | true =>
        cases hstep
        exact h.fail hopen hcontested _
    | false =>
        cases hfile : s.file.isSome with
        | true =>
            simp only [hfile, if_true, Bool.false_eq_true, if_false] at hstep
            cases hstep
            have hput : Owned (s.put c .clear) := by
              refine h.set hopen (fun d hd => ?_) fun htrue => ?_
              · cases hd
              · rw [hcontested] at htrue
                cases htrue
            exact hput.unlink (h.listeners_nil hphase (hD socket hphase))
        | false =>
            simp only [hfile, Bool.false_eq_true, if_false] at hstep
            cases hstep
            exact h.fail hopen hcontested _
  · cases hstep

theorem stepBind {fault : Bool} (h : Owned s) (hstep : s.stepBind c fault = some s') :
    Owned s' := by
  simp only [Endpoint.stepBind] at hstep
  split at hstep
  · rename_i hphase
    have hopen : (s.calls c).phase ≠ .returned (.ok ()) := by
      rw [hphase]
      exact fun heq => by cases heq
    have hcontested : (s.calls c).contested = false := by
      refine h.not_contested ?_ fun error => ?_
      all_goals
        rw [hphase]
        exact fun heq => by cases heq
    cases fault with
    | true =>
        cases hstep
        exact h.fail hopen hcontested _
    | false =>
        cases hfile : s.file with
        | some socket =>
            simp only [hfile, Option.isSome_some, if_true, Bool.false_eq_true, if_false] at hstep
            cases hstep
            exact h.fail hopen hcontested _
        | none =>
            simp only [hfile, Option.isSome_none, Bool.false_eq_true, if_false] at hstep
            cases hstep
            have hput : Owned (s.put c (.returned (.ok ()))) := by
              refine h.set hopen (fun d hd => ?_) fun htrue => ?_
              · cases hd
              · rw [hcontested] at htrue
                cases htrue
            have hnone : s.listeners = [] := by
              rw [List.eq_nil_iff_forall_not_mem]
              intro d hd
              have hlisten := h.file d hd
              rw [hfile] at hlisten
              cases hlisten
            refine ⟨fun d hd => ?_, fun d hd => ?_, fun d e hd => ?_, fun d hd => ?_⟩
            · rw [hnone] at hd
              cases List.mem_singleton.mp hd
              rfl
            · cases hd
              exact congrArg BindCall.phase set_self
            · refine ⟨(hput.refused d e hd).1, fun he => ?_⟩
              rw [hnone] at he
              cases List.mem_singleton.mp he
              have hafter : ((s.put c (.returned (.ok ()))).calls d).phase =
                  .refused (some (.of c)) := hd
              by_cases heq : d = c
              · subst heq
                rw [put, set_self] at hafter
                cases hafter
              · rw [put, set_of_ne heq] at hafter
                exact hopen (h.refused d c hafter).1
            · refine (hput.contested d hd).imp (fun hlive => ?_) id
              exact ⟨hlive.1, List.cons_ne_nil _ _⟩
  · cases hstep

theorem shutDown {file : Option Socket} (h : Owned s) (hfile : file = none ∨ file = s.file)
    (hD : ∀ c, (s.calls c).phase = .existing → (s.calls c).contested = false)
    (hstep : s.shutDown c file = some s') : Owned s' := by
  simp only [Endpoint.shutDown] at hstep
  split at hstep
  · rename_i hc
    cases hstep
    refine ⟨fun d hd => ?_, fun d hd => ?_, fun d e hd => ?_, fun d hd => ?_⟩
    · obtain ⟨hd, hne⟩ := List.mem_filter.mp hd
      have hsame := h.oneOwner.exclusive d hd c (List.contains_iff_mem.mp hc)
      simp [hsame] at hne
    · cases hfile with
      | inl hnone =>
          rw [hnone] at hd
          cases hd
      | inr hkept =>
          rw [hkept] at hd
          exact h.bound d hd
    · exact ⟨(h.refused d e hd).1, fun he => (h.refused d e hd).2 (List.mem_filter.mp he).1⟩
    · cases h.contested d hd with
      | inl hlive =>
          have hfalse := hD d hlive.1
          rw [show (s.calls d).contested = true from hd] at hfalse
          cases hfalse
      | inr hreturned => exact .inr hreturned
  · cases hstep

end Owned

theorem step_owned {a : EndpointAct} (h : Owned s) (hD : Undisturbed s a)
    (hstep : s.step a = some s') : Owned s' := by
  cases a with
  | pathExists c => exact h.stepExists hstep
  | connect c fault => exact h.stepConnect hD hstep
  | removeFile c fault => exact h.stepRemoveFile hD hstep
  | bind c fault => exact h.stepBind hstep
  | cleanup c => exact h.shutDown (.inl rfl) hD hstep
  | die c => exact h.shutDown (.inr rfl) hD hstep

theorem step_spares {a : EndpointAct} (h : Owned s) (hD : Undisturbed s a)
    (hstep : s.step a = some s') : Spares s a := by
  cases a with
  | removeFile c fault =>
      cases fault with
      | true => trivial
      | false =>
          intro d hd
          have hphase : ∃ socket, (s.calls c).phase = .refused socket := by
            simp only [step, stepRemoveFile] at hstep
            split at hstep
            · rename_i socket hphase
              exact ⟨socket, hphase⟩
            · cases hstep
          obtain ⟨socket, hphase⟩ := hphase
          rw [h.listeners_nil hphase (hD socket hphase)] at hd
          cases hd
  | cleanup c =>
      intro d hd hne
      have hc : c ∈ s.listeners := by
        simp only [step, shutDown] at hstep
        split at hstep
        · rename_i hc
          exact List.contains_iff_mem.mp hc
        · cases hstep
      exact absurd (h.oneOwner.exclusive d hd c hc) hne
  | _ => trivial

end

theorem endpoint_has_one_owner (found : Found) {s : Endpoint} {acts : List EndpointAct}
    (hmeets : machine.Meets Undisturbed (start found) acts)
    (hrun : machine.run (start found) acts = some s) :
    machine.Meets (fun s a => OneOwner s ∧ Spares s a) (start found) acts ∧ OneOwner s := by
  have hstep (s : Endpoint) (a : EndpointAct) (s' : Endpoint) (h : Owned s)
      (hD : Undisturbed s a) (hs : machine.step s a = some s') : Owned s' := step_owned h hD hs
  constructor
  · refine machine.meets_of_invariant (I := Owned) hstep (fun s a s' h hD hs => ?_)
      (start_owned found) hmeets hrun
    exact ⟨h.oneOwner, step_spares h hD hs⟩
  · exact (machine.invariant_under (I := Owned) hstep (start_owned found) hmeets hrun).oneOwner

/-- A stale socket is taken over, a second call is refused, the listener is shut down. -/
def takeover : List EndpointAct :=
  [.pathExists 0, .connect 0 false, .removeFile 0 false, .bind 0 false, .pathExists 1,
    .connect 1 false, .cleanup 0]

theorem endpoint_has_one_owner_takeover :
    machine.Meets Undisturbed (start .stale) takeover ∧
      ∃ s, machine.run (start .stale) takeover = some s ∧
        machine.Meets (fun s a => OneOwner s ∧ Spares s a) (start .stale) takeover ∧
        OneOwner s := by
  have hmeets : machine.Meets Undisturbed (start .stale) takeover := by
    refine ⟨trivial, fun s hs => ?_⟩
    cases hs
    refine ⟨trivial, fun s hs => ?_⟩
    cases hs
    refine ⟨fun socket hsocket => ?_, fun s hs => ?_⟩
    · cases hsocket
      exact .inl rfl
    cases hs
    refine ⟨trivial, fun s hs => ?_⟩
    cases hs
    refine ⟨trivial, fun s hs => ?_⟩
    cases hs
    refine ⟨trivial, fun s hs => ?_⟩
    cases hs
    refine ⟨fun c hc => ?_, fun s hs => trivial⟩
    by_cases h0 : c = 0
    · subst h0
      rfl
    · by_cases h1 : c = 1
      · subst h1
        cases hc
      · simp [set, put, fail, h0, h1, start] at hc
  exact ⟨hmeets, _, rfl, endpoint_has_one_owner .stale hmeets rfl⟩

/-- Two calls find the same stale socket, and the second removes the socket that the first has
bound instead. -/
def sharedTakeover : List EndpointAct :=
  [.pathExists 0, .connect 0 false, .pathExists 1, .connect 1 false, .removeFile 0 false,
    .bind 0 false, .removeFile 1 false, .bind 1 false]

theorem two_calls_own_the_endpoint :
    ∃ s, machine.run (start .stale) sharedTakeover = some s ∧ s.listeners = [1, 0] ∧
      ¬ OneOwner s ∧ s.file = some (.of 1) ∧ ¬ Spares s (.cleanup 0) := by
  refine ⟨_, rfl, rfl, fun h => ?_, rfl, fun h => ?_⟩
  · have hsame := h.exclusive 1 List.mem_cons_self 0 (List.mem_cons_of_mem _ List.mem_cons_self)
    cases hsame
  · exact h 1 List.mem_cons_self (fun h => by cases h) rfl

end Endpoint

end AiSsh
