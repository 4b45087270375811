import AiSsh.Library.Machine
import AiSsh.Library.Program

/-!
Tasks that share locks. A task is a program whose operations take a lock, give it back, or wait
for something else. A guard is given when the guards that are out allow it; a fair lock gives
its guards in the order in which they were asked for.

A discipline gives each lock a rank. Tasks that only ask for locks above all they hold never
wait in a circle, however many they are and however they interleave: from each waiting task the
waiting leads to one that can move.
-/

namespace AiSsh.Library

inductive LockMode
  | shared
  | exclusive
  deriving DecidableEq, Repr

namespace LockMode

/-- Two guards of one lock may be out at once. -/
def allows : LockMode → LockMode → Bool
  | shared, shared => true
  | _, _ => false

theorem allows_comm (a b : LockMode) : a.allows b = b.allows a := by
  cases a with
  | shared | exclusive =>
      cases b with
      | shared | exclusive => rfl

end LockMode

/-- The operations of a task. `wait` is whatever is not a lock: an answer from outside, or a
look at the data. -/
inductive LockOp (L : Type)
  | acquire (lock : L) (mode : LockMode)
  | release (lock : L)
  | wait

abbrev LockOp.Reply {L : Type} : LockOp L → Type
  | acquire _ _ | release _ => Unit
  | wait => Nat

abbrev LockProgram (L α : Type) : Type := Program (LockOp L) LockOp.Reply Unit α

abbrev Guard (L : Type) : Type := L × LockMode

/-- A lock that is fair serves in order; a lock that is brief is given back at once. -/
structure Discipline (L : Type) where
  rank : L → Nat
  fair : L → Bool
  brief : L → Bool

namespace LockProgram

variable {L α β : Type}

def acquire (lock : L) (mode : LockMode) : LockProgram L Unit := .ask (.acquire lock mode) .done

def release (lock : L) : LockProgram L Unit := .ask (.release lock) .done

def wait : LockProgram L Nat := .ask .wait .done

/-- Runs `p` under a guard, which is given back however `p` ends. -/
def holding (lock : L) (mode : LockMode) (p : LockProgram L α) : LockProgram L α := do
  acquire lock mode
  let value ← p.handle fun error => release lock >>= fun _ => .fail error
  release lock
  return value

/-- A guard under which nothing more is asked. -/
def touch (lock : L) (mode : LockMode) : LockProgram L Unit := holding lock mode (pure ())

/-- One of two ways to go on. -/
def choose : LockProgram L Bool := do
  let reply ← wait
  return reply != 0

/-- Goes on or fails. -/
def orFail : LockProgram L Unit := do
  let fine ← choose
  if fine then pure () else .fail ()

/-- What may be left out. -/
def optional (p : LockProgram L Unit) : LockProgram L Unit := do
  let needed ← choose
  if needed then p else pure ()

def each (p : β → LockProgram L Unit) : List β → LockProgram L Unit
  | [] => pure ()
  | item :: items => do
      p item
      each p items

/-- Whether what the program does next is to give the lock back. -/
def Releases (lock : L) (p : LockProgram L α) : Prop := ∃ next, p = .ask (.release lock) next

/-- A lock of this rank may be asked for. -/
def Below (d : Discipline L) (rank : Nat) (held : List (Guard L)) : Prop :=
  ∀ guard ∈ held, d.brief guard.1 = false ∧ d.rank guard.1 < rank

/-- From a task that holds `held`, the program keeps to the discipline. It ends with the guards
`ok` where it succeeds and with the guards `err` where it fails. -/
def Orderly (d : Discipline L) (ok err : List (Guard L)) :
    LockProgram L α → List (Guard L) → Prop
  | .done _, held => held = ok
  | .fail _, held => held = err
  | .ask (.acquire lock mode) next, held =>
      Below d (d.rank lock) held ∧ (d.brief lock = true → Releases lock (next ())) ∧
        Orderly d ok err (next ()) ((lock, mode) :: held)
  | .ask (.release lock) next, held =>
      ∃ mode rest, held = (lock, mode) :: rest ∧ (∀ guard ∈ rest, d.brief guard.1 = false) ∧
        Orderly d ok err (next ()) rest
  | .ask .wait next, held =>
      (∀ guard ∈ held, d.brief guard.1 = false) ∧ ∀ reply, Orderly d ok err (next reply) held

/-- The program takes no more than it gives back. -/
def Balanced (d : Discipline L) (held : List (Guard L)) (p : LockProgram L α) : Prop :=
  Orderly d held held p held

section Rules

variable {d : Discipline L} {ok err mid held : List (Guard L)} {p : LockProgram L α} {rank : Nat}

theorem Below.nil : Below d rank [] := fun _ h => nomatch h

theorem Below.mono {rank' : Nat} (h : Below d rank held) (hle : rank ≤ rank') :
    Below d rank' held :=
  fun guard hguard => ⟨(h guard hguard).1, Nat.lt_of_lt_of_le (h guard hguard).2 hle⟩

theorem Below.cons (lock : L) {mode : LockMode} (h : Below d (d.rank lock) held)
    (hbrief : d.brief lock = false) : Below d (d.rank lock + 1) ((lock, mode) :: held) := by
  intro guard hguard
  cases List.mem_cons.mp hguard with
  | inl hnew =>
      cases hnew
      exact ⟨hbrief, Nat.lt_succ_self _⟩
  | inr hold => exact h.mono (Nat.le_succ _) guard hold

theorem Releases.bind {lock : L} (h : Releases lock p) (f : α → LockProgram L β) :
    Releases lock (p >>= f) := by
  obtain ⟨next, rfl⟩ := h
  exact ⟨fun reply => next reply >>= f, rfl⟩

theorem Releases.handle {lock : L} (h : Releases lock p) (f : Unit → LockProgram L α) :
    Releases lock (p.handle f) := by
  obtain ⟨next, rfl⟩ := h
  exact ⟨fun reply => (next reply).handle f, rfl⟩

theorem Orderly.bind {f : α → LockProgram L β} (hp : Orderly d mid err p held)
    (hf : ∀ value, Orderly d ok err (f value) mid) : Orderly d ok err (p >>= f) held := by
  induction p generalizing held with
  | done value =>
      cases hp
      exact hf value
  | fail error => exact hp
  | ask op next ih =>
      cases op with
      | acquire lock mode =>
          obtain ⟨hrank, hbrief, hnext⟩ := hp
          exact ⟨hrank, fun hlock => (hbrief hlock).bind f, ih () hnext⟩
      | release lock =>
          obtain ⟨mode, rest, hheld, hrest, hnext⟩ := hp
          exact ⟨mode, rest, hheld, hrest, ih () hnext⟩
      | wait => exact ⟨hp.1, fun reply => ih reply (hp.2 reply)⟩

theorem Orderly.handle {f : Unit → LockProgram L α} (hp : Orderly d ok mid p held)
    (hf : ∀ error, Orderly d ok err (f error) mid) : Orderly d ok err (p.handle f) held := by
  induction p generalizing held with
  | done value => exact hp
  | fail error =>
      cases hp
      exact hf error
  | ask op next ih =>
      cases op with
      | acquire lock mode =>
          obtain ⟨hrank, hbrief, hnext⟩ := hp
          exact ⟨hrank, fun hlock => (hbrief hlock).handle f, ih () hnext⟩
      | release lock =>
          obtain ⟨mode, rest, hheld, hrest, hnext⟩ := hp
          exact ⟨mode, rest, hheld, hrest, ih () hnext⟩
      | wait => exact ⟨hp.1, fun reply => ih reply (hp.2 reply)⟩

theorem Balanced.pure (value : α) : Balanced d held (pure value) := rfl

theorem Balanced.fail (error : Unit) : Balanced d held (.fail error : LockProgram L α) := rfl

theorem Balanced.bind {f : α → LockProgram L β} (hp : Balanced d held p)
    (hf : ∀ value, Balanced d held (f value)) : Balanced d held (p >>= f) :=
  Orderly.bind hp hf

theorem Balanced.ite {c : Prop} [Decidable c] {q : LockProgram L α} (hp : Balanced d held p)
    (hq : Balanced d held q) : Balanced d held (if c then p else q) := by
  split
  · exact hp
  · exact hq

theorem Balanced.wait (h : Below d rank held) : Balanced d held wait :=
  ⟨fun guard hguard => (h guard hguard).1, fun _ => rfl⟩

theorem Balanced.choose (h : Below d rank held) : Balanced d held choose :=
  .bind (.wait h) fun _ => .pure _

theorem Balanced.orFail (h : Below d rank held) : Balanced d held orFail :=
  .bind (.choose h) fun _ => .ite (.pure _) (.fail _)

theorem Balanced.optional {q : LockProgram L Unit} (h : Below d rank held)
    (hq : Balanced d held q) : Balanced d held (optional q) :=
  .bind (.choose h) fun _ => .ite hq (.pure _)

/-- The rule of a guard: what runs under it is balanced with the guard out. -/
theorem Balanced.holding {lock : L} {mode : LockMode} (h : Below d (d.rank lock) held)
    (hbrief : d.brief lock = false) (hp : Balanced d ((lock, mode) :: held) p) :
    Balanced d held (holding lock mode p) := by
  have hbody : Orderly d ((lock, mode) :: held) held
      (p.handle fun error => release lock >>= fun _ => .fail error) ((lock, mode) :: held) :=
    Orderly.handle hp fun error => ⟨mode, held, rfl, fun guard hg => (h guard hg).1, rfl⟩
  have hrest := hbody.bind (f := fun value => release lock >>= fun _ => Pure.pure value)
    fun value => ⟨mode, held, rfl, fun guard hg => (h guard hg).1, rfl⟩
  exact ⟨h, fun hlock => absurd (hbrief.symm.trans hlock) Bool.false_ne_true, hrest⟩

theorem Balanced.touch {lock : L} {mode : LockMode} (h : Below d (d.rank lock) held) :
    Balanced d held (touch lock mode) :=
  ⟨h, fun _ => ⟨_, rfl⟩, mode, held, rfl, fun guard hg => (h guard hg).1, rfl⟩

theorem Balanced.each {q : β → LockProgram L Unit} (hq : ∀ item, Balanced d held (q item))
    (items : List β) : Balanced d held (each q items) := by
  induction items with
  | nil => exact .pure ()
  | cons item items ih => exact .bind (hq item) fun _ => ih

/-- What is done whether or not the program fails. -/
theorem Balanced.attempt {f : Unit → LockProgram L α} (hp : Balanced d held p)
    (hf : ∀ error, Balanced d held (f error)) : Balanced d held (p.handle f) :=
  Orderly.handle hp hf

end Rules

end LockProgram

/-- What a task has still to do, and the guards it holds. -/
structure LockTask (L : Type) where
  rest : LockProgram L Unit
  guards : List (Guard L)

def LockTask.wanted {L : Type} (task : LockTask L) : Option (Guard L) :=
  match task.rest with
  | .ask (.acquire lock mode) _ => some (lock, mode)
  | _ => none

/-- The tasks, and those of them that wait for a lock, in the order in which they have asked. -/
structure LockState (L : Type) where
  tasks : List (LockTask L)
  queue : List Nat

inductive LockAct (A : Type)
  | start (call : A)
  | request (task : Nat)
  | grant (task : Nat)
  | release (task : Nat)
  | resume (task reply : Nat)

def LockAct.task {A : Type} : LockAct A → Option Nat
  | start _ => none
  | request task | grant task | release task | resume task _ => some task

namespace LockState

variable {L A : Type}

def empty : LockState L := ⟨[], []⟩

def wanted (s : LockState L) (i : Nat) : Option (Guard L) := (s.tasks[i]?).bind LockTask.wanted

variable [DecidableEq L]

/-- The first task in the line for a lock. -/
def first (s : LockState L) (lock : L) : Option Nat :=
  s.queue.find? fun i => (s.wanted i).map Prod.fst == some lock

/-- No guard that is out is in the way of the new one. -/
def free (s : LockState L) (lock : L) (mode : LockMode) : Bool :=
  s.tasks.all fun task => task.guards.all fun guard => guard.1 != lock || guard.2.allows mode

def admits (d : Discipline L) (s : LockState L) (i : Nat) (lock : L) (mode : LockMode) : Bool :=
  s.free lock mode && (!d.fair lock || s.first lock == some i)

def step (d : Discipline L) (body : A → LockProgram L Unit) (s : LockState L) :
    LockAct A → Option (LockState L)
  | .start call => some { s with tasks := s.tasks ++ [⟨body call, []⟩] }
  | .request i =>
      if (s.wanted i).isSome ∧ i ∉ s.queue then some { s with queue := s.queue ++ [i] } else none
  | .grant i =>
      match s.tasks[i]? with
      | some ⟨.ask (.acquire lock mode) next, guards⟩ =>
          if i ∈ s.queue ∧ s.admits d i lock mode then
            some ⟨s.tasks.set i ⟨next (), (lock, mode) :: guards⟩, s.queue.erase i⟩
          else none
      | _ => none
  | .release i =>
      match s.tasks[i]? with
      | some ⟨.ask (.release lock) next, guards⟩ =>
          some { s with tasks := s.tasks.set i ⟨next (), guards.eraseP (·.1 == lock)⟩ }
      | _ => none
  | .resume i reply =>
      match s.tasks[i]? with
      | some ⟨.ask .wait next, guards⟩ =>
          some { s with tasks := s.tasks.set i ⟨next reply, guards⟩ }
      | _ => none

def machine (d : Discipline L) (body : A → LockProgram L Unit) :
    Machine (LockState L) (LockAct A) := ⟨step d body⟩

/-- Task `i` waits for task `j`: it has asked for a lock, and `j` has a guard in its way or
is the one to be served before it. -/
def WaitsFor (d : Discipline L) (s : LockState L) (i j : Nat) : Prop :=
  i ∈ s.queue ∧ ∃ lock mode, s.wanted i = some (lock, mode) ∧
    ((∃ task, s.tasks[j]? = some task ∧ ∃ guard ∈ task.guards,
        guard.1 = lock ∧ guard.2.allows mode = false) ∨
      d.fair lock = true ∧ s.first lock = some j ∧ j ≠ i)

/-- Task `j` has a guard of the lock, and what it does next is to give it back. -/
def GivesBack (s : LockState L) (lock : L) (j : Nat) : Prop :=
  ∃ task, s.tasks[j]? = some task ∧ (∃ guard ∈ task.guards, guard.1 = lock) ∧
    LockProgram.Releases lock task.rest

/-- A step of its own is open to the task. -/
def CanMove (d : Discipline L) (body : A → LockProgram L Unit) (s : LockState L) (i : Nat) :
    Prop :=
  ∃ act : LockAct A, act.task = some i ∧ (step d body s act).isSome

/-- Every task keeps to the discipline, the tasks in line want a lock, and guards of one lock
are only out together when they allow each other. -/
structure Sound (d : Discipline L) (s : LockState L) : Prop where
  orderly : ∀ task ∈ s.tasks, LockProgram.Orderly d [] [] task.rest task.guards
  brief : ∀ task ∈ s.tasks, ∀ guard ∈ task.guards, d.brief guard.1 = true →
    LockProgram.Releases guard.1 task.rest
  queued : ∀ i ∈ s.queue, (s.wanted i).isSome
  once : s.queue.Nodup
  apart : ∀ (i j : Nat) (task other : LockTask L), s.tasks[i]? = some task →
    s.tasks[j]? = some other → i ≠ j → ∀ guard ∈ task.guards, ∀ guard' ∈ other.guards,
      guard.1 = guard'.1 → guard.2.allows guard'.2 = true

variable {d : Discipline L} {body : A → LockProgram L Unit} {s s' : LockState L} {i : Nat}
  {task : LockTask L}

omit [DecidableEq L] in
theorem sound_empty : Sound d (empty : LockState L) where
  orderly := by simp [empty]
  brief := by simp [empty]
  queued := by simp [empty]
  once := List.nodup_nil
  apart := by simp [empty]

omit [DecidableEq L] in
theorem wanted_set_ne {task' : LockTask L} {queue : List Nat} {j : Nat} (h : j ≠ i) :
    wanted ⟨s.tasks.set i task', queue⟩ j = s.wanted j := by
  simp only [wanted, List.getElem?_set_ne (Ne.symm h)]

theorem free_iff {lock : L} {mode : LockMode} :
    s.free lock mode = true ↔ ∀ task ∈ s.tasks, ∀ guard ∈ task.guards, guard.1 = lock →
      guard.2.allows mode = true := by
  simp only [free, List.all_eq_true, Bool.or_eq_true, bne_iff_ne, ne_eq, Decidable.imp_iff_not_or]

/-- One task goes on, and leaves the line if it was in it. -/
theorem Sound.set (h : Sound d s) (htask : s.tasks[i]? = some task) (task' : LockTask L)
    (horderly : LockProgram.Orderly d [] [] task'.rest task'.guards)
    (hbrief : ∀ guard ∈ task'.guards, d.brief guard.1 = true →
      LockProgram.Releases guard.1 task'.rest)
    (hguards : ∀ guard ∈ task'.guards, guard ∈ task.guards ∨ s.free guard.1 guard.2 = true)
    {queue : List Nat} (hqueue : queue.Sublist s.queue) (hgone : i ∉ queue) :
    Sound d ⟨s.tasks.set i task', queue⟩ := by
  have hlt : i < s.tasks.length := (List.getElem?_eq_some_iff.mp htask).1
  have hget (j : Nat) (other : LockTask L) (hother : (s.tasks.set i task')[j]? = some other) :
      j = i ∧ other = task' ∨ j ≠ i ∧ s.tasks[j]? = some other := by
    by_cases hj : j = i
    · subst hj
      rw [List.getElem?_set_self hlt] at hother
      exact .inl ⟨rfl, (Option.some.inj hother).symm⟩
    · rw [List.getElem?_set_ne (Ne.symm hj)] at hother
      exact .inr ⟨hj, hother⟩
  have hother (j : Nat) (other : LockTask L) (hj : s.tasks[j]? = some other) (hne : i ≠ j)
      (guard : Guard L) (hguard : guard ∈ task'.guards) (guard' : Guard L)
      (hguard' : guard' ∈ other.guards) (hlock : guard.1 = guard'.1) :
      guard.2.allows guard'.2 = true := by
    cases hguards guard hguard with
    | inl hold => exact h.apart i j task other htask hj hne guard hold guard' hguard' hlock
    | inr hfree =>
        rw [LockMode.allows_comm]
        exact free_iff.mp hfree other (List.mem_of_getElem? hj) guard' hguard' hlock.symm
  refine
    { orderly := fun other hmem => ?_
      brief := fun other hmem => ?_
      queued := fun j hj => ?_
      once := hqueue.nodup h.once
      apart := fun j k first second hfirst hsecond hne guard hguard guard' hguard' hlock => ?_ }
  · cases List.mem_or_eq_of_mem_set hmem with
    | inl hold => exact h.orderly other hold
    | inr hnew => exact hnew ▸ horderly
  · cases List.mem_or_eq_of_mem_set hmem with
    | inl hold => exact h.brief other hold
    | inr hnew => exact hnew ▸ hbrief
  · have hne : j ≠ i := fun heq => hgone (heq ▸ hj)
    rw [wanted_set_ne hne]
    exact h.queued j (hqueue.subset hj)
  · cases hget j first hfirst with
    | inl hj =>
        obtain ⟨rfl, rfl⟩ := hj
        cases hget k second hsecond with
        | inl hk => exact absurd hk.1.symm hne
        | inr hk => exact hother k second hk.2 hne guard hguard guard' hguard' hlock
    | inr hj =>
        cases hget k second hsecond with
        | inl hk =>
            obtain ⟨rfl, rfl⟩ := hk
            rw [LockMode.allows_comm]
            exact hother j first hj.2 (Ne.symm hne) guard' hguard' guard hguard hlock.symm
        | inr hk => exact h.apart j k first second hj.2 hk.2 hne guard hguard guard' hguard' hlock

omit [DecidableEq L] in
/-- A task in line is about to take a lock. -/
theorem Sound.asks (h : Sound d s) (hi : i ∈ s.queue) :
    ∃ lock mode next guards,
      s.tasks[i]? = some ⟨.ask (.acquire lock mode) next, guards⟩ ∧
        s.wanted i = some (lock, mode) := by
  obtain ⟨guard, hguard⟩ := Option.isSome_iff_exists.mp (h.queued i hi)
  obtain ⟨⟨rest, guards⟩, htask, hwanted⟩ := Option.bind_eq_some_iff.mp hguard
  cases rest with
  | done value | fail error => cases hwanted
  | ask op next =>
      cases op with
      | acquire lock mode => exact ⟨lock, mode, next, guards, htask, by rw [wanted, htask]; rfl⟩
      | release lock | wait => cases hwanted

omit [DecidableEq L] in
theorem Sound.not_queued (h : Sound d s) (htask : s.tasks[i]? = some task)
    (hwanted : task.wanted = none) : i ∉ s.queue := by
  intro hi
  have hsome := h.queued i hi
  rw [wanted, htask, Option.bind_some, hwanted] at hsome
  cases hsome

omit [DecidableEq L] in
/-- A task that starts holds nothing. -/
theorem Sound.start (h : Sound d s) {p : LockProgram L Unit} (hp : LockProgram.Balanced d [] p) :
    Sound d { s with tasks := s.tasks ++ [⟨p, []⟩] } := by
  have hget (j : Nat) (task : LockTask L) (htask : (s.tasks ++ [⟨p, []⟩])[j]? = some task) :
      s.tasks[j]? = some task ∨ task.guards = [] := by
    by_cases hj : j < s.tasks.length
    · exact .inl (by rwa [List.getElem?_append_left hj] at htask)
    · rw [List.getElem?_append_right (Nat.le_of_not_lt hj)] at htask
      exact .inr (by rw [List.mem_singleton.mp (List.mem_of_getElem? htask)])
  refine
    { orderly := List.forall_mem_append.mpr ⟨h.orderly, List.forall_mem_singleton.mpr hp⟩
      brief := List.forall_mem_append.mpr ⟨h.brief, List.forall_mem_singleton.mpr (by simp)⟩
      queued := fun i hi => ?_
      once := h.once
      apart := fun i j task other htask hother hne guard hguard guard' hguard' hlock => ?_ }
  · obtain ⟨lock, mode, next, guards, htask, -⟩ := h.asks hi
    rw [wanted, List.getElem?_append_left (List.getElem?_eq_some_iff.mp htask).1]
    exact h.queued i hi
  · cases hget i task htask with
    | inr hnone =>
        rw [hnone] at hguard
        cases hguard
    | inl htask =>
        cases hget j other hother with
        | inr hnone =>
            rw [hnone] at hguard'
            cases hguard'
        | inl hother =>
            exact h.apart i j task other htask hother hne guard hguard guard' hguard' hlock

theorem Sound.step (h : Sound d s) (hbody : ∀ call, LockProgram.Balanced d [] (body call))
    {act : LockAct A} (hstep : step d body s act = some s') : Sound d s' := by
  cases act with
  | start call =>
      cases hstep
      exact h.start (hbody call)
  | request i =>
      simp only [LockState.step] at hstep
      split at hstep
      · rename_i hrequest
        cases hstep
        exact
          { orderly := h.orderly
            brief := h.brief
            queued := List.forall_mem_append.mpr
              ⟨h.queued, List.forall_mem_singleton.mpr hrequest.1⟩
            once := List.nodup_append.mpr ⟨h.once, by simp, fun j hj k hk heq =>
              hrequest.2 (List.mem_singleton.mp hk ▸ heq ▸ hj)⟩
            apart := h.apart }
      · cases hstep
  | grant i =>
      simp only [LockState.step] at hstep
      split at hstep
      · rename_i lock mode next guards htask
        split at hstep
        · rename_i hgrant
          cases hstep
          obtain ⟨hrank, hreleases, horderly⟩ := h.orderly _ (List.mem_of_getElem? htask)
          refine h.set htask ⟨next (), (lock, mode) :: guards⟩ horderly
            (fun guard hguard hbrief => ?_) (fun guard hguard => ?_) List.erase_sublist
            h.once.not_mem_erase
          · cases List.mem_cons.mp hguard with
            | inl hnew =>
                cases hnew
                exact hreleases hbrief
            | inr hold => exact absurd hbrief (by simp [(hrank guard hold).1])
          · cases List.mem_cons.mp hguard with
            | inl hnew =>
                cases hnew
                exact .inr (Bool.and_eq_true _ _ ▸ hgrant.2).1
            | inr hold => exact .inl hold
        · cases hstep
      · cases hstep
  | release i =>
      simp only [LockState.step] at hstep
      split at hstep
      · rename_i lock next guards htask
        cases hstep
        obtain ⟨mode, rest, rfl, hrest, horderly⟩ := h.orderly _ (List.mem_of_getElem? htask)
        have hpop : ((lock, mode) :: rest).eraseP (fun guard => guard.1 == lock) = rest :=
          List.eraseP_cons_of_pos (beq_self_eq_true lock)
        rw [hpop]
        refine h.set htask ⟨next (), rest⟩ horderly (fun guard hguard hlock => ?_)
          (fun guard hguard => .inl (List.mem_cons_of_mem _ hguard)) (List.Sublist.refl _)
          (h.not_queued htask rfl)
        exact absurd hlock (by simp [hrest guard hguard])
      · cases hstep
  | resume i reply =>
      simp only [LockState.step] at hstep
      split at hstep
      · rename_i next guards htask
        cases hstep
        obtain ⟨hbrief, horderly⟩ := h.orderly _ (List.mem_of_getElem? htask)
        refine h.set htask ⟨next reply, guards⟩ (horderly reply) (fun guard hguard hlock => ?_)
          (fun guard hguard => .inl hguard) (List.Sublist.refl _) (h.not_queued htask rfl)
        exact absurd hlock (by simp [hbrief guard hguard])
      · cases hstep

theorem sound_of_run (hbody : ∀ call, LockProgram.Balanced d [] (body call))
    {acts : List (LockAct A)} (hrun : (machine d body).run empty acts = some s) : Sound d s :=
  (machine d body).invariant (fun _ _ _ h hstep => h.step hbody hstep) sound_empty hrun

/-- Who stands in line for a lock waits for the first in that line, or is not held up by it. -/
theorem waits_first (hi : i ∈ s.queue) {lock : L} {mode : LockMode}
    (hwanted : s.wanted i = some (lock, mode)) :
    ∃ j mode', Relation.ReflTransGen (WaitsFor d s) i j ∧ j ∈ s.queue ∧
      s.wanted j = some (lock, mode') ∧ (d.fair lock = true → s.first lock = some j) := by
  cases hfair : d.fair lock with
  | false => exact ⟨i, mode, .refl, hi, hwanted, by simp⟩
  | true =>
      have hsome : (s.first lock).isSome := by
        rw [first, List.find?_isSome]
        exact ⟨i, hi, by simp [hwanted]⟩
      obtain ⟨j, hj⟩ := Option.isSome_iff_exists.mp hsome
      have hlock := List.find?_some hj
      simp only [beq_iff_eq, Option.map_eq_some_iff] at hlock
      obtain ⟨⟨lock', mode'⟩, hwanted', rfl⟩ := hlock
      refine ⟨j, mode', ?_, List.mem_of_find?_eq_some hj, hwanted', fun _ => hj⟩
      by_cases hij : j = i
      · exact hij ▸ .refl
      · exact .single ⟨hi, _, mode, hwanted, .inr ⟨hfair, hj, hij⟩⟩

/-- The first in line takes the lock, or another task has a guard in its way. -/
theorem Sound.first_moves (body : A → LockProgram L Unit) (h : Sound d s) (hi : i ∈ s.queue)
    {lock : L} {mode : LockMode} (hwanted : s.wanted i = some (lock, mode))
    (hfirst : d.fair lock = true → s.first lock = some i) :
    (LockState.step d body s (.grant i)).isSome ∨ ∃ (j : Nat) (task : LockTask L),
      s.tasks[j]? = some task ∧ WaitsFor d s i j ∧ ∃ guard ∈ task.guards, guard.1 = lock := by
  obtain ⟨lock', mode', next, guards, htask, hsame⟩ := h.asks hi
  cases hwanted.symm.trans hsame
  cases hfree : s.free lock mode with
  | true =>
      left
      have hline : (!d.fair lock || s.first lock == some i) = true := by
        cases hfair : d.fair lock with
        | false => rfl
        | true => simp [hfirst hfair]
      have hadmits : s.admits d i lock mode = true := by
        rw [admits, hfree, hline]
        rfl
      simp only [LockState.step, htask, hi, hadmits, and_self, if_true, Option.isSome_some]
  | false =>
      right
      obtain ⟨task, hmem, guard, hguard, hlock, hallows⟩ :
          ∃ task ∈ s.tasks, ∃ guard ∈ task.guards, guard.1 = lock ∧
            guard.2.allows mode = false := by
        simpa [free] using hfree
      obtain ⟨j, hj⟩ := List.getElem?_of_mem hmem
      exact ⟨j, task, hj, ⟨hi, lock, mode, hwanted, .inl ⟨task, hj, guard, hguard, hlock, hallows⟩⟩,
        guard, hguard, hlock⟩

/-- A task that holds a guard can move, or has asked for a lock of a higher rank. -/
theorem Sound.holder (body : A → LockProgram L Unit) (h : Sound d s)
    (htask : s.tasks[i]? = some task) {guard : Guard L} (hguard : guard ∈ task.guards) :
    CanMove d body s i ∨ i ∈ s.queue ∧ d.brief guard.1 = false ∧
      ∃ lock mode, s.wanted i = some (lock, mode) ∧ d.rank guard.1 < d.rank lock := by
  have horderly := h.orderly task (List.mem_of_getElem? htask)
  obtain ⟨rest, guards⟩ := task
  cases rest with
  | done value | fail error =>
      have hnone : guards = [] := horderly
      rw [hnone] at hguard
      cases hguard
  | ask op next =>
      cases op with
      | acquire lock mode =>
          have hwanted : s.wanted i = some (lock, mode) := by
            rw [wanted, htask]
            rfl
          by_cases hi : i ∈ s.queue
          · obtain ⟨hbrief, hrank⟩ := horderly.1 guard hguard
            exact .inr ⟨hi, hbrief, lock, mode, hwanted, hrank⟩
          · exact .inl ⟨.request i, rfl, by simp [LockState.step, hwanted, hi]⟩
      | release lock => exact .inl ⟨.release i, rfl, by simp [LockState.step, htask]⟩
      | wait => exact .inl ⟨.resume i 0, rfl, by simp [LockState.step, htask]⟩

/-- From every task in line the waiting leads to a task that can move. -/
theorem Sound.leads_to_mover (h : Sound d s) {top : Nat} (htop : ∀ lock, d.rank lock ≤ top)
    (hi : i ∈ s.queue) :
    ∃ j, Relation.ReflTransGen (WaitsFor d s) i j ∧ CanMove d body s j := by
  obtain ⟨lock, mode, -, -, -, hwanted⟩ := h.asks hi
  -- the ranks along the way only rise
  induction hsteps : top - d.rank lock using Nat.strongRecOn generalizing i lock mode with
  | _ steps ih =>
      obtain ⟨j, mode', hpath, hj, hwanted', hfirst⟩ := waits_first (d := d) hi hwanted
      cases h.first_moves body hj hwanted' hfirst with
      | inl hgrant => exact ⟨j, hpath, .grant j, rfl, hgrant⟩
      | inr hheld =>
          obtain ⟨k, task, hk, hwaits, guard, hguard, rfl⟩ := hheld
          cases h.holder body hk hguard with
          | inl hmove => exact ⟨k, hpath.tail hwaits, hmove⟩
          | inr hqueued =>
              obtain ⟨hk, -, lock, mode, hwanted, hrank⟩ := hqueued
              have hle := htop lock
              obtain ⟨m, hpath', hmove⟩ := ih _ (by omega) hk lock mode hwanted rfl
              exact ⟨m, (hpath.tail hwaits).trans hpath', hmove⟩

theorem GivesBack.can {lock : L} {j : Nat} (h : GivesBack s lock j) :
    (LockState.step d body s (.release j)).isSome := by
  obtain ⟨⟨rest, guards⟩, htask, -, next, rfl⟩ := h
  simp [LockState.step, htask]

/-- Who waits for a brief lock can take it, or its holder gives it back next. -/
theorem Sound.brief_moves (body : A → LockProgram L Unit) (h : Sound d s) (hi : i ∈ s.queue)
    {lock : L} {mode : LockMode} (hwanted : s.wanted i = some (lock, mode))
    (hbrief : d.brief lock = true) (hfair : d.fair lock = false) :
    (LockState.step d body s (.grant i)).isSome ∨
      ∃ j, WaitsFor d s i j ∧ GivesBack s lock j := by
  have hfirst : d.fair lock = true → s.first lock = some i := fun hline => by
    rw [hfair] at hline
    cases hline
  cases h.first_moves body hi hwanted hfirst with
  | inl hgrant => exact .inl hgrant
  | inr hheld =>
      obtain ⟨j, task, hj, hwaits, guard, hguard, rfl⟩ := hheld
      exact .inr ⟨j, hwaits, task, hj, ⟨guard, hguard, rfl⟩,
        h.brief task (List.mem_of_getElem? hj) guard hguard hbrief⟩

/-- How far a task in line has come: the rank of its lock, and whether it is served next. -/
def weight (d : Discipline L) (s : LockState L) (i : Nat) : Nat :=
  match s.wanted i with
  | some (lock, _) => 2 * d.rank lock + if s.first lock = some i then 1 else 0
  | none => 0

/-- Waiting leads from a task in line only to tasks that have come further. -/
theorem Sound.weight_lt (h : Sound d s) {j : Nat} (hwaits : WaitsFor d s i j)
    (hj : j ∈ s.queue) : weight d s i < weight d s j := by
  obtain ⟨hi, lock, mode, hwanted, hcause⟩ := hwaits
  have hle : weight d s i ≤ 2 * d.rank lock + 1 := by
    rw [weight, hwanted]
    dsimp only
    split
    · exact Nat.le_refl _
    · exact Nat.le_succ _
  cases hcause with
  | inl hheld =>
      obtain ⟨task, htask, guard, hguard, rfl, -⟩ := hheld
      obtain ⟨lock', mode', next, guards, htask', hwanted'⟩ := h.asks hj
      cases htask.symm.trans htask'
      have hrank := ((h.orderly _ (List.mem_of_getElem? htask)).1 guard hguard).2
      have hge : 2 * d.rank lock' ≤ weight d s j := by
        rw [weight, hwanted']
        exact Nat.le_add_right _ _
      omega
  | inr hline =>
      obtain ⟨-, hfirst, hne⟩ := hline
      have hlock := List.find?_some hfirst
      simp only [beq_iff_eq, Option.map_eq_some_iff] at hlock
      obtain ⟨⟨lock', mode'⟩, hwanted', rfl⟩ := hlock
      rw [weight, weight, hwanted, hwanted']
      simp [hfirst, hne]

/-- No task waits for itself, over whatever other tasks. -/
theorem Sound.acyclic (h : Sound d s) (i : Nat) : ¬Relation.TransGen (WaitsFor d s) i i := by
  intro hcircle
  have hqueued {j k : Nat} (hpath : Relation.TransGen (WaitsFor d s) j k) : j ∈ s.queue := by
    induction hpath using Relation.TransGen.head_induction_on with
    | single hwaits => exact hwaits.1
    | head hwaits _ _ => exact hwaits.1
  have hlt {j k : Nat} (hpath : Relation.TransGen (WaitsFor d s) j k) (hk : k ∈ s.queue) :
      weight d s j < weight d s k := by
    induction hpath using Relation.TransGen.head_induction_on with
    | single hwaits => exact h.weight_lt hwaits hk
    | head hwaits hpath ih => exact Nat.lt_trans (h.weight_lt hwaits (hqueued hpath)) ih
  exact Nat.lt_irrefl _ (hlt hcircle (hqueued hcircle))

end LockState
end AiSsh.Library
