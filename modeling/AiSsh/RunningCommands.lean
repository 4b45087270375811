import AiSsh.Daemon

/-!
The command rows and the tasks that are to finalise them. A row's identifier belongs to
one operation at a time, so a status is written by the row's own task and only once. That
a running row has a task is another matter: it holds as long as no task is lost.
-/

namespace AiSsh

open Library

namespace Op

variable {op op' : Op} {rows rows' : List CommandInfo} {used used' : List String}
  {answer : Answer}

theorem commandId_of_task {id : String} (h : op.task = some id) : op.commandId = some id := by
  cases op with
  | startedExec command | runExec command background => exact h
  | _ => cases h

theorem task_of_commandId (h : op.commandId = none) : op.task = none := by
  cases htask : op.task with
  | none => rfl
  | some id => cases h.symm.trans (commandId_of_task htask)

end Op

/-- Who writes a row: the rows have distinct identifiers, and so have the operations that
work for a command; a row is inserted by the operation that drew its identifier, and stays
running as long as its task does. -/
structure Tracked (rows : List CommandInfo) (used : List String) (ops : List Op) : Prop where
  unique : (rows.map CommandInfo.id).Nodup
  stored : ∀ row ∈ rows, row.id ∈ used
  distinct : (ops.filterMap Op.commandId).Nodup
  handed : ∀ id ∈ ops.filterMap Op.commandId, id ∈ used
  installing : ∀ command background, Op.installExec command background ∈ ops →
    command.status = .running ∧ ∀ row ∈ rows, row.id ≠ command.id
  running : ∀ op ∈ ops, ∀ row ∈ rows, op.task = some row.id → row.status = .running

namespace Tracked

variable {op op' : Op} {ops ops' others : List Op} {rows rows' : List CommandInfo}
  {used used' : List String} {answer : Answer}

theorem apart (h : Tracked rows used ops) (hbefore : ops.Perm (op :: others)) {x : Op}
    (hx : x ∈ others) {id : String} (hop : op.commandId = some id) : x.commandId ≠ some id := by
  intro hsame
  have hdistinct := (hbefore.filterMap Op.commandId).nodup_iff.mp h.distinct
  rw [List.filterMap_cons_some hop, List.nodup_cons] at hdistinct
  exact hdistinct.1 (List.mem_filterMap.mpr ⟨x, hx, hsame⟩)

/-- Rows that are kept or deleted, and operations that come without a command. -/
theorem kept {more : List Op} (h : Tracked rows used ops)
    (hrows : (rows'.map CommandInfo.key).Sublist (rows.map CommandInfo.key))
    (hused : ∀ id ∈ used, id ∈ used') (hops : ops'.Perm (more ++ ops))
    (hmore : ∀ op ∈ more, op.commandId = none) : Tracked rows' used' ops' := by
  have hold (row : CommandInfo) (hrow : row ∈ rows') :
      ∃ old ∈ rows, old.id = row.id ∧ old.status = row.status := by
    obtain ⟨old, hold, hkey⟩ := List.mem_map.mp (hrows.subset (List.mem_map_of_mem hrow))
    exact ⟨old, hold, congrArg Prod.fst hkey, congrArg Prod.snd hkey⟩
  have hnames : (ops'.filterMap Op.commandId).Perm (ops.filterMap Op.commandId) := by
    have hall := hops.filterMap Op.commandId
    rw [List.filterMap_append, List.filterMap_eq_nil_iff.mpr hmore, List.nil_append] at hall
    exact hall
  have hmem {x : Op} (hx : x ∈ ops') {id : String} (hid : x.commandId = some id) : x ∈ ops := by
    cases List.mem_append.mp (hops.mem_iff.mp hx) with
    | inl hx => cases hid.symm.trans (hmore x hx)
    | inr hx => exact hx
  refine ⟨?_, ?_, hnames.nodup_iff.mpr h.distinct, ?_, ?_, ?_⟩
  · have hids := hrows.map Prod.fst
    rw [List.map_map, List.map_map] at hids
    exact h.unique.sublist hids
  · intro row hrow
    obtain ⟨old, hold, hid, -⟩ := hold row hrow
    exact hid ▸ hused _ (h.stored old hold)
  · intro id hid
    exact hused id (h.handed id (hnames.mem_iff.mp hid))
  · intro command background hop
    obtain ⟨hstatus, hfresh⟩ := h.installing command background (hmem hop rfl)
    refine ⟨hstatus, fun row hrow => ?_⟩
    obtain ⟨old, hold, hid, -⟩ := hold row hrow
    exact hid ▸ hfresh old hold
  · intro x hx row hrow htask
    obtain ⟨old, hold, hid, hstatus⟩ := hold row hrow
    have hx := hmem hx (Op.commandId_of_task htask)
    exact hstatus ▸ h.running x hx old hold (hid ▸ htask)

/-- An operation that moves on without a task and leaves the rows alone. -/
theorem quit (h : Tracked rows used ops) (hbefore : ops.Perm (op :: others))
    (hafter : ops'.Perm (op' :: others)) (hused : ∀ id ∈ used, id ∈ used')
    (hid : op'.commandId = op.commandId ∨ op'.commandId = none) (htask : op'.task = none)
    (hinstall : ∀ command background, op' ≠ .installExec command background) :
    Tracked rows used' ops' := by
  have hnames : ∀ id, op'.commandId = some id →
      op.commandId = some id ∨ op.commandId = none ∧ id ∉ used ∧ id ∈ used' := by
    intro id hsome
    cases hid with
    | inl hsame => exact .inl (hsame ▸ hsome)
    | inr hnone => cases hnone.symm.trans hsome
  obtain ⟨hdistinct, hhanded⟩ :=
    nodup_names_move hbefore hafter hused hnames h.distinct h.handed
  have hmem {x : Op} (hx : x ∈ ops') : x = op' ∨ x ∈ ops := by
    cases List.mem_cons.mp (hafter.mem_iff.mp hx) with
    | inl hx => exact .inl hx
    | inr hx => exact .inr (hbefore.mem_iff.mpr (List.mem_cons_of_mem _ hx))
  refine ⟨h.unique, fun row hrow => hused _ (h.stored row hrow), hdistinct, hhanded, ?_, ?_⟩
  · intro command background hop
    cases hmem hop with
    | inl hop => exact absurd hop.symm (hinstall command background)
    | inr hop => exact h.installing command background hop
  · intro x hx row hrow hsome
    cases hmem hx with
    | inl hx => cases htask.symm.trans (hx ▸ hsome)
    | inr hx => exact h.running x hx row hrow hsome

theorem drawn {id : String} {command : CommandInfo} {background : Bool}
    (h : Tracked rows used ops) (hbefore : ops.Perm (op :: others))
    (hafter : ops'.Perm (.installExec command background :: others))
    (hop : op.commandId = none) (hfresh : id ∉ used) (hid : command.id = id)
    (hrunning : command.status = .running) : Tracked rows (id :: used) ops' := by
  subst hid
  have hused : ∀ id ∈ used, id ∈ command.id :: used := fun _ h => List.mem_cons_of_mem _ h
  obtain ⟨hdistinct, hhanded⟩ := nodup_names_move hbefore hafter hused
    (fun id hsome => .inr ⟨hop, by cases hsome; exact ⟨hfresh, List.mem_cons_self⟩⟩)
    h.distinct h.handed
  have hmem {x : Op} (hx : x ∈ ops') : x = .installExec command background ∨ x ∈ ops := by
    cases List.mem_cons.mp (hafter.mem_iff.mp hx) with
    | inl hx => exact .inl hx
    | inr hx => exact .inr (hbefore.mem_iff.mpr (List.mem_cons_of_mem _ hx))
  refine ⟨h.unique, fun row hrow => hused _ (h.stored row hrow), hdistinct, hhanded, ?_, ?_⟩
  · intro other foreground hother
    cases hmem hother with
    | inl hother =>
        cases hother
        exact ⟨hrunning, fun row hrow hsame => hfresh (hsame ▸ h.stored row hrow)⟩
    | inr hother => exact h.installing other foreground hother
  · intro x hx row hrow hsome
    cases hmem hx with
    | inl hx =>
        subst hx
        cases hsome
    | inr hx => exact h.running x hx row hrow hsome

theorem inserted {command : CommandInfo} {background : Bool} (h : Tracked rows used ops)
    (hbefore : ops.Perm (.installExec command background :: others))
    (hafter : ops'.Perm (op' :: others)) (hfresh : ∀ row ∈ rows, row.id ≠ command.id)
    (htask : op'.task = some command.id) : Tracked (rows ++ [command]) used ops' := by
  have hid := Op.commandId_of_task htask
  obtain ⟨hdistinct, hhanded⟩ := nodup_names_move hbefore hafter (fun _ h => h)
    (fun id hsome => .inl (hid.symm.trans hsome)) h.distinct h.handed
  have hop : Op.installExec command background ∈ ops := hbefore.mem_iff.mpr List.mem_cons_self
  have hothers {x : Op} (hx : x ∈ others) : x ∈ ops :=
    hbefore.mem_iff.mpr (List.mem_cons_of_mem _ hx)
  have hapart {x : Op} (hx : x ∈ others) : x.commandId ≠ some command.id :=
    h.apart hbefore hx rfl
  refine ⟨?_, ?_, hdistinct, hhanded, ?_, ?_⟩
  · rw [List.map_append, List.map_singleton, List.nodup_append]
    refine ⟨h.unique, List.nodup_singleton _, ?_⟩
    intro id hid other hother hsame
    obtain ⟨row, hrow, rfl⟩ := List.mem_map.mp hid
    rw [List.mem_singleton.mp hother] at hsame
    exact hfresh row hrow hsame
  · intro row hrow
    cases List.mem_append.mp hrow with
    | inl hrow => exact h.stored row hrow
    | inr hrow =>
        rw [List.mem_singleton.mp hrow]
        exact h.handed _ (List.mem_filterMap.mpr ⟨_, hop, rfl⟩)
  · intro other foreground hother
    cases List.mem_cons.mp (hafter.mem_iff.mp hother) with
    | inl hother =>
        rw [← hother] at htask
        cases htask
    | inr hother =>
        obtain ⟨hstatus, hrows⟩ := h.installing other foreground (hothers hother)
        refine ⟨hstatus, fun row hrow => ?_⟩
        cases List.mem_append.mp hrow with
        | inl hrow => exact hrows row hrow
        | inr hrow =>
            rw [List.mem_singleton.mp hrow]
            exact fun hsame => hapart hother (congrArg some hsame.symm)
  · intro x hx row hrow hsome
    cases List.mem_append.mp hrow with
    | inr hrow =>
        rw [List.mem_singleton.mp hrow]
        exact (h.installing command background hop).1
    | inl hrow =>
        cases List.mem_cons.mp (hafter.mem_iff.mp hx) with
        | inl hx =>
            rw [hx, htask] at hsome
            exact absurd (Option.some.inj hsome).symm (hfresh row hrow)
        | inr hx => exact h.running x (hothers hx) row hrow hsome

theorem started {command : CommandInfo} (h : Tracked rows used ops)
    (hbefore : ops.Perm (.startedExec command :: others))
    (hafter : ops'.Perm (.runExec command false :: others)) : Tracked rows used ops' := by
  obtain ⟨hdistinct, hhanded⟩ := nodup_names_move hbefore hafter (fun _ h => h)
    (fun id (hsome : some command.id = some id) => .inl hsome) h.distinct h.handed
  refine ⟨h.unique, h.stored, hdistinct, hhanded, ?_, ?_⟩
  · intro other foreground hother
    cases List.mem_cons.mp (hafter.mem_iff.mp hother) with
    | inl hother => cases hother
    | inr hother =>
        exact h.installing other foreground (hbefore.mem_iff.mpr (List.mem_cons_of_mem _ hother))
  · intro x hx row hrow hsome
    cases List.mem_cons.mp (hafter.mem_iff.mp hx) with
    | inl hx =>
        subst hx
        exact h.running _ (hbefore.mem_iff.mpr List.mem_cons_self) row hrow hsome
    | inr hx => exact h.running x (hbefore.mem_iff.mpr (List.mem_cons_of_mem _ hx)) row hrow hsome

theorem finished {command last : CommandInfo} {background : Bool} (h : Tracked rows used ops)
    (hbefore : ops.Perm (.runExec command background :: others))
    (hafter : ops'.Perm (op' :: others)) (htask : op'.task = none)
    (hid : op'.commandId = some command.id)
    (hinstall : ∀ command background, op' ≠ .installExec command background) :
    Tracked (rows.map fun row => if row.id = command.id then last.update row else row) used
      ops' := by
  have hquit : Tracked rows used ops' :=
    h.quit hbefore hafter (fun _ h => h) (.inl hid) htask hinstall
  have hold (row : CommandInfo)
      (hrow : row ∈ rows.map fun row => if row.id = command.id then last.update row else row) :
      ∃ old ∈ rows, old.id = row.id ∧ (row = old ∨ row.id = command.id) := by
    obtain ⟨old, hold, rfl⟩ := List.mem_map.mp hrow
    refine ⟨old, hold, ?_⟩
    split
    · rename_i hsame
      exact ⟨rfl, .inr hsame⟩
    · exact ⟨rfl, .inl rfl⟩
  refine ⟨?_, ?_, hquit.distinct, hquit.handed, ?_, ?_⟩
  · rw [List.map_map]
    have hsame : (CommandInfo.id ∘ fun row => if row.id = command.id then last.update row else row)
        = CommandInfo.id := by
      funext row
      simp only [Function.comp]
      split
      · rfl
      · rfl
    rw [hsame]
    exact h.unique
  · intro row hrow
    obtain ⟨old, hold, hsame, -⟩ := hold row hrow
    exact hsame ▸ h.stored old hold
  · intro other foreground hother
    obtain ⟨hstatus, hfresh⟩ := hquit.installing other foreground hother
    refine ⟨hstatus, fun row hrow => ?_⟩
    obtain ⟨old, hold, hsame, -⟩ := hold row hrow
    exact hsame ▸ hfresh old hold
  · intro x hx row hrow hsome
    obtain ⟨old, hold, hsame, hkept⟩ := hold row hrow
    cases hkept with
    | inl hkept =>
        subst hkept
        exact hquit.running x hx row hold hsome
    | inr hwritten =>
        cases List.mem_cons.mp (hafter.mem_iff.mp hx) with
        | inl hx => cases htask.symm.trans (hx ▸ hsome)
        | inr hx =>
            rw [hwritten] at hsome
            exact absurd (Op.commandId_of_task hsome) (h.apart hbefore hx rfl)

theorem advance (h : Tracked rows used ops) (hbefore : ops.Perm (op :: others))
    (hafter : ops'.Perm (op' :: others)) (hmove : op.CommandMove rows used answer rows' used' op') :
    Tracked rows' used' ops' := by
  cases hmove with
  | quiet hop hop' hused =>
      refine h.quit hbefore hafter hused (.inr hop') (Op.task_of_commandId hop') ?_
      intro command background hsame
      subst hsame
      cases hop'
  | drawn hop fresh hid running => exact h.drawn hbefore hafter hop fresh hid running
  | inserted fresh htask hid => exact h.inserted hbefore hafter fresh htask
  | started => exact h.started hbefore hafter
  | notStarted hanswer =>
      exact h.quit hbefore hafter (fun _ h => h) (.inr rfl) rfl fun _ _ h => nomatch h
  | finished hlast hstatus htask hid hinstall =>
      exact h.finished hbefore hafter htask hid hinstall
  | left hop htask htask' hid hinstall =>
      refine h.quit hbefore hafter (fun _ h => h) ?_ htask' hinstall
      rw [hop]
      exact hid

end Tracked

/-- Every running row has an operation or task that is to finalise it. -/
def Attended (rows : List CommandInfo) (ops : List Op) : Prop :=
  ∀ row ∈ rows, row.status = .running → ∃ op ∈ ops, op.task = some row.id

namespace Attended

variable {op op' : Op} {ops ops' others : List Op} {rows rows' : List CommandInfo}
  {used used' : List String} {answer : Answer}

theorem kept {more : List Op} (h : Attended rows ops)
    (hrows : (rows'.map CommandInfo.key).Sublist (rows.map CommandInfo.key))
    (hops : ops'.Perm (more ++ ops)) : Attended rows' ops' := by
  intro row hrow hrunning
  obtain ⟨old, hold, hkey⟩ := List.mem_map.mp (hrows.subset (List.mem_map_of_mem hrow))
  have hid : old.id = row.id := congrArg Prod.fst hkey
  have hstatus : old.status = row.status := congrArg Prod.snd hkey
  obtain ⟨op, hop, htask⟩ := h old hold (hstatus.trans hrunning)
  exact ⟨op, hops.mem_iff.mpr (List.mem_append_right _ hop), hid ▸ htask⟩

/-- A row whose task is not the one that moves stays attended. -/
theorem other (h : Attended rows ops) (hbefore : ops.Perm (op :: others))
    (hafter : ops'.Perm (op' :: others)) {row : CommandInfo} (hrow : row ∈ rows)
    (hrunning : row.status = .running)
    (hkeep : op.task = some row.id → op'.task = some row.id) :
    ∃ op ∈ ops', op.task = some row.id := by
  obtain ⟨x, hx, htask⟩ := h row hrow hrunning
  cases List.mem_cons.mp (hbefore.mem_iff.mp hx) with
  | inl hx => exact ⟨op', hafter.mem_iff.mpr List.mem_cons_self, hkeep (hx ▸ htask)⟩
  | inr hx => exact ⟨x, hafter.mem_iff.mpr (List.mem_cons_of_mem _ hx), htask⟩

theorem advance (h : Attended rows ops) (hbefore : ops.Perm (op :: others))
    (hafter : ops'.Perm (op' :: others)) (hmove : op.CommandMove rows used answer rows' used' op')
    (hstored : ∀ command, op = .startedExec command → answer = .ok) : Attended rows' ops' := by
  intro row hrow hrunning
  cases hmove with
  | quiet hop | drawn hop =>
      refine h.other hbefore hafter hrow hrunning fun htask => ?_
      cases (Op.task_of_commandId hop).symm.trans htask
  | inserted fresh htask hid =>
      cases List.mem_append.mp hrow with
      | inl hrow => exact h.other hbefore hafter hrow hrunning fun h => nomatch h
      | inr hrow =>
          rw [List.mem_singleton.mp hrow]
          exact ⟨op', hafter.mem_iff.mpr List.mem_cons_self, htask⟩
  | started => exact h.other hbefore hafter hrow hrunning fun h => h
  | notStarted hanswer => exact absurd (hstored _ rfl) hanswer
  | finished hlast hstatus htask hid hinstall =>
      obtain ⟨old, hold, rfl⟩ := List.mem_map.mp hrow
      split at hrunning
      · exact absurd hrunning hstatus
      · rename_i hne
        rw [if_neg hne]
        exact h.other hbefore hafter hold hrunning fun hsame =>
          absurd (Option.some.inj hsame).symm hne
  | left hop htask =>
      exact h.other hbefore hafter hrow hrunning fun h => nomatch htask.symm.trans h

end Attended

/-- What the row of `id` says once it is over. -/
structure Settled (rows : List CommandInfo) (used : List String) (ops : List Op) (id : String)
    (status : CommandStatus) : Prop where
  ended : status ≠ .running
  handed : id ∈ used
  same : ∀ row ∈ rows, row.id = id → row.status = status
  installed : ∀ command background, Op.installExec command background ∈ ops → command.id ≠ id

namespace Settled

variable {op op' : Op} {ops ops' others : List Op} {rows rows' : List CommandInfo}
  {used used' : List String} {answer : Answer} {id : String} {status : CommandStatus}

theorem kept {more : List Op} (h : Settled rows used ops id status)
    (hrows : (rows'.map CommandInfo.key).Sublist (rows.map CommandInfo.key))
    (hused : ∀ id ∈ used, id ∈ used') (hops : ops'.Perm (more ++ ops))
    (hmore : ∀ op ∈ more, op.commandId = none) : Settled rows' used' ops' id status where
  ended := h.ended
  handed := hused id h.handed
  same := by
    intro row hrow hid
    obtain ⟨old, hold, hkey⟩ := List.mem_map.mp (hrows.subset (List.mem_map_of_mem hrow))
    have hsame : old.id = row.id := congrArg Prod.fst hkey
    have hstatus : old.status = row.status := congrArg Prod.snd hkey
    exact hstatus ▸ h.same old hold (hsame.trans hid)
  installed := by
    intro command background hop
    cases List.mem_append.mp (hops.mem_iff.mp hop) with
    | inl hop => cases hmore _ hop
    | inr hop => exact h.installed command background hop

/-- An operation that moves on without inserting a row. -/
theorem quit (h : Settled rows used ops id status) (hbefore : ops.Perm (op :: others))
    (hafter : ops'.Perm (op' :: others)) (hused : ∀ id ∈ used, id ∈ used')
    (hinstall : ∀ command background, op' = .installExec command background → command.id ≠ id) :
    Settled rows used' ops' id status where
  ended := h.ended
  handed := hused id h.handed
  same := h.same
  installed := by
    intro command background hop
    cases List.mem_cons.mp (hafter.mem_iff.mp hop) with
    | inl hop => exact hinstall command background hop.symm
    | inr hop =>
        exact h.installed command background (hbefore.mem_iff.mpr (List.mem_cons_of_mem _ hop))

/-- The task of a row that is over has ended. -/
theorem advance (h : Settled rows used ops id status) (htracked : Tracked rows used ops)
    (hbefore : ops.Perm (op :: others)) (hafter : ops'.Perm (op' :: others))
    (hmove : op.CommandMove rows used answer rows' used' op') :
    Settled rows' used' ops' id status := by
  have hop : op ∈ ops := hbefore.mem_iff.mpr List.mem_cons_self
  cases hmove with
  | quiet _ hop' hused =>
      refine h.quit hbefore hafter hused fun command background hsame => ?_
      subst hsame
      cases hop'
  | drawn _ fresh hid =>
      refine h.quit hbefore hafter (fun _ h => List.mem_cons_of_mem _ h) ?_
      intro command background hsame hcommand
      cases hsame
      exact fresh (hid ▸ hcommand ▸ h.handed)
  | started | notStarted =>
      exact h.quit hbefore hafter (fun _ h => h) fun _ _ h => nomatch h
  | left _ _ _ _ hinstall =>
      exact h.quit hbefore hafter (fun _ h => h) fun _ _ hsame => absurd hsame (hinstall _ _)
  | inserted fresh htask hid =>
      have hquit : Settled rows used ops' id status := by
        refine h.quit hbefore hafter (fun _ h => h) fun command background hsame => ?_
        subst hsame
        cases htask
      refine ⟨h.ended, h.handed, fun row hrow hsame => ?_, hquit.installed⟩
      cases List.mem_append.mp hrow with
      | inl hrow => exact h.same row hrow hsame
      | inr hrow =>
          rw [List.mem_singleton.mp hrow] at hsame
          exact absurd hsame (h.installed _ _ hop)
  | finished hlast hstatus htask hid hinstall =>
      have hquit : Settled rows used ops' id status :=
        h.quit hbefore hafter (fun _ h => h) fun _ _ hsame => absurd hsame (hinstall _ _)
      refine ⟨h.ended, h.handed, fun row hrow hid => ?_, hquit.installed⟩
      obtain ⟨old, hold, rfl⟩ := List.mem_map.mp hrow
      split at hid
      · rename_i hsame
        have hrunning := htracked.running _ hop old hold (congrArg some hsame.symm)
        exact absurd (h.same old hold hid ▸ hrunning) h.ended
      · rename_i hne
        rw [if_neg hne]
        exact h.same old hold hid

end Settled
end AiSsh
