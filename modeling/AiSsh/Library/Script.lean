import Mathlib.Logic.Basic

/-!
Scripts of statements that a store commits one by one. A statement that fails changes nothing and
ends the script, but what the statements before it have changed stays: a script is not a
transaction.
-/

namespace AiSsh.Library

structure Statement (Name S ε : Type) where
  name : Name
  run : S → Except ε S

variable {Name S ε : Type}

/-- A statement that succeeds wherever the store can run it. -/
def Statement.update (name : Name) (set : S → S) : Statement Name S ε :=
  ⟨name, fun state => .ok (set state)⟩

/-- A statement at a store that fails the statements of some names. -/
def Statement.runOn (fails : Name → Option ε) (statement : Statement Name S ε) (state : S) :
    Except ε S :=
  match fails statement.name with
  | some error => .error error
  | none => statement.run state

/-- The result of a script, and the state it leaves behind. -/
def runScript (fails : Name → Option ε) : List (Statement Name S ε) → S → Except ε Unit × S
  | [], state => (.ok (), state)
  | statement :: script, state =>
      match statement.runOn fails state with
      | .error error => (.error error, state)
      | .ok state => runScript fails script state

/-- What a statement does not change in the states it may leave. -/
def Statement.Keeps {α : Type} (view : S → α) (statement : Statement Name S ε) : Prop :=
  ∀ state state', statement.run state = .ok state' → view state' = view state

variable {fails : Name → Option ε} {state state' : S} {statement : Statement Name S ε}

theorem Statement.runOn_ok (h : statement.runOn fails state = .ok state') :
    statement.run state = .ok state' := by
  rw [Statement.runOn] at h
  split at h
  · cases h
  · exact h

theorem Statement.update_keeps {α : Type} {view : S → α} {name : Name} {set : S → S}
    (h : ∀ state, view (set state) = view state) :
    (Statement.update name set : Statement Name S ε).Keeps view := by
  intro state state' hrun
  cases hrun
  exact h state

theorem runScript_cons_ok (h : statement.runOn fails state = .ok state')
    (script : List (Statement Name S ε)) :
    runScript fails (statement :: script) state = runScript fails script state' := by
  simp only [runScript, h]

theorem runScript_cons_error {error : ε} (h : statement.runOn fails state = .error error)
    (script : List (Statement Name S ε)) :
    runScript fails (statement :: script) state = (.error error, state) := by
  simp only [runScript, h]

/-- What every statement keeps, the script keeps, wherever it ends. -/
theorem runScript_keeps {α : Type} {view : S → α} {script : List (Statement Name S ε)}
    (h : ∀ statement ∈ script, statement.Keeps view) (state : S) :
    view (runScript fails script state).2 = view state := by
  induction script generalizing state with
  | nil => rfl
  | cons statement script ih =>
      cases hrun : statement.runOn fails state with
      | error error => rw [runScript_cons_error hrun]
      | ok state' =>
          rw [runScript_cons_ok hrun]
          rw [ih (fun other hother => h other (List.mem_cons_of_mem _ hother))]
          exact h statement List.mem_cons_self _ _ (Statement.runOn_ok hrun)

/-- A script of updates fails where the store does, and nowhere else. -/
theorem runScript_updates_error (updates : List (Name × (S → S))) (state : S) :
    (∃ error, (runScript fails (updates.map fun (name, set) => .update name set) state).1 =
        .error error) ↔
      ∃ update ∈ updates, (fails update.1).isSome := by
  induction updates generalizing state with
  | nil => simp [runScript]
  | cons update updates ih =>
      cases hfails : fails update.1 with
      | none =>
          have hrun : (Statement.update update.1 update.2 : Statement Name S ε).runOn fails state =
              .ok (update.2 state) := by
            simp only [Statement.runOn, Statement.update, hfails]
          rw [List.map_cons, runScript_cons_ok hrun, ih]
          simp [hfails]
      | some error =>
          have hrun : (Statement.update update.1 update.2 : Statement Name S ε).runOn fails state =
              .error error := by
            simp only [Statement.runOn, Statement.update, hfails]
          rw [List.map_cons, runScript_cons_error hrun]
          simp [hfails]

/-- At a store that fails nothing, a script of updates makes them all. -/
theorem runScript_updates (updates : List (Name × (S → S))) (state : S) :
    runScript (fun _ => (none : Option ε)) (updates.map fun (name, set) => .update name set) state =
      (.ok (), updates.foldl (fun state update => update.2 state) state) := by
  induction updates generalizing state with
  | nil => rfl
  | cons update updates ih => exact ih _

end AiSsh.Library
