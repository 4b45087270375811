import AiSsh.Library.Cursor

/-!
Drains. A reader calls for one page after the other, each time with the cursor the
last page left it at; what else a call depends on, such as its budget, is the reader's
choice. Whatever is chosen, the pages of an exact source make up the items beyond the
first cursor, and a source whose flagged pages have an item cannot flag more pages than
there are items.
-/

namespace AiSsh.Library

universe u v

variable {α : Type u} {β : Type v} (key : α → Nat)

/-- The items beyond a cursor. -/
def beyond (all : List α) (cursor : Nat) : List α := all.filter fun a => decide (cursor < key a)

/-- The pages of consecutive calls. -/
def drain (source : Nat → β → List α × Bool) : Nat → List β → List (List α × Bool)
  | _, [] => []
  | cursor, call :: calls =>
      source cursor call ::
        drain source (nextCursor key cursor (source cursor call).1) calls

/-- What a list of pages hands over. -/
def delivered (pages : List (List α × Bool)) : List α := pages.flatMap Prod.fst

@[simp] theorem delivered_nil : delivered ([] : List (List α × Bool)) = [] := rfl

@[simp] theorem delivered_cons (page : List α × Bool) (pages : List (List α × Bool)) :
    delivered (page :: pages) = page.1 ++ delivered pages := rfl

@[simp] theorem delivered_append (pre post : List (List α × Bool)) :
    delivered (pre ++ post) = delivered pre ++ delivered post := List.flatMap_append

/-- A cursor is moved by two pages as by both of them at once. -/
theorem nextCursor_append (cursor : Nat) (xs ys : List α) :
    nextCursor key cursor (xs ++ ys) = nextCursor key (nextCursor key cursor xs) ys := by
  by_cases hy : ys = []
  · simp [hy]
  · rw [nextCursor_of_ne key hy, nextCursor_of_ne key (List.append_ne_nil_of_right_ne_nil xs hy),
      List.getLast_append_of_ne_nil _ hy]

theorem mem_beyond {all : List α} {cursor : Nat} {a : α} :
    a ∈ beyond key all cursor ↔ a ∈ all ∧ cursor < key a := by
  simp [beyond]

theorem ascending_beyond {all : List α} (h : Ascending key all) (cursor : Nat) :
    Ascending key (beyond key all cursor) := h.filter key _

/-- Behind the front of what is beyond a cursor lies the rest of it. -/
theorem beyond_nextCursor {all : List α} (hall : Ascending key all) {cursor : Nat}
    {page rest : List α} (h : beyond key all cursor = page ++ rest) :
    beyond key all (nextCursor key cursor page) = rest := by
  have hparts : Ascending key (page ++ rest) := h ▸ ascending_beyond key hall cursor
  obtain ⟨hpage, hrest, hlt⟩ := (ascending_append key).mp hparts
  have hmem {a : α} : a ∈ page ++ rest ↔ a ∈ all ∧ cursor < key a := by
    rw [← h]
    exact mem_beyond key
  refine (ascending_beyond key hall _).ext key hrest fun a => ?_
  rw [mem_beyond]
  have hbeyond : ∀ b ∈ page, cursor < key b := fun b hb =>
    (hmem.mp (List.mem_append_left rest hb)).2
  constructor
  · intro ⟨ha, hnext⟩
    have hcursor := cursor_le_nextCursor key hbeyond
    cases List.mem_append.mp (hmem.mpr ⟨ha, Nat.lt_of_le_of_lt hcursor hnext⟩) with
    | inl hp => exact absurd (le_nextCursor key hpage hp) (Nat.not_le.mpr hnext)
    | inr hr => exact hr
  · intro ha
    have hall := hmem.mp (List.mem_append_right page ha)
    refine ⟨hall.1, ?_⟩
    by_cases hnil : page = []
    · simpa [hnil] using hall.2
    · obtain ⟨b, hb, hk⟩ := nextCursor_mem key cursor hnil
      rw [← hk]
      exact hlt b hb a ha

theorem Sound.append {all : α → Prop} {cursor : Nat} {xs ys : List α}
    (hx : Sound key all cursor xs) (hy : Sound key all (nextCursor key cursor xs) ys) :
    Sound key all cursor (xs ++ ys) where
  ascending := (ascending_append key).mpr ⟨hx.ascending, hy.ascending, fun _ ha b hb =>
    Nat.lt_of_le_of_lt (le_nextCursor key hx.ascending ha) (hy.beyond b hb)⟩
  beyond := List.forall_mem_append.mpr ⟨hx.beyond, fun b hb =>
    Nat.lt_of_le_of_lt (hx.cursor_le key) (hy.beyond b hb)⟩
  drawn := List.forall_mem_append.mpr ⟨hx.drawn, hy.drawn⟩

section Calls

variable (source : Nat → β → List α × Bool)

/-- What every page of a source keeps to, the pages of a drain keep to. -/
theorem drain_forall {P : β → List α × Bool → Prop} (h : ∀ cursor call,
    P call (source cursor call)) (cursor : Nat) (calls : List β) :
    List.Forall₂ P calls (drain key source cursor calls) := by
  induction calls generalizing cursor with
  | nil => exact .nil
  | cons call calls ih => exact .cons (h cursor call) (ih _)

/-- Each page is called for with the cursor the pages before it leave. -/
theorem drain_split {cursor : Nat} {calls : List β} {pre post : List (List α × Bool)}
    {page : List α × Bool} (h : drain key source cursor calls = pre ++ page :: post) :
    ∃ call ∈ calls, page = source (nextCursor key cursor (delivered pre)) call := by
  induction calls generalizing cursor pre with
  | nil => simp [drain] at h
  | cons call calls ih =>
      cases pre with
      | nil => exact ⟨call, List.mem_cons_self, (List.cons.inj h).1.symm⟩
      | cons first pre =>
          obtain ⟨rfl, hrest⟩ := List.cons.inj h
          obtain ⟨other, hother, hpage⟩ := ih hrest
          refine ⟨other, List.mem_cons_of_mem _ hother, ?_⟩
          rw [hpage, delivered_cons, nextCursor_append]

variable {source}

theorem sound_drain {all : α → Prop} {calls : List β} (h : ∀ cursor, ∀ call ∈ calls,
    Sound key all cursor (source cursor call).1) (cursor : Nat) :
    Sound key all cursor (delivered (drain key source cursor calls)) := by
  induction calls generalizing cursor with
  | nil => exact ⟨ascending_nil key, by simp [drain], by simp [drain]⟩
  | cons call calls ih =>
      exact (h cursor call List.mem_cons_self).append key
        (ih (fun cursor other hother => h cursor other (List.mem_cons_of_mem _ hother)) _)

theorem le_length_drain {cursor : Nat} {calls : List β}
    (h : ∀ page ∈ drain key source cursor calls, page.1 ≠ []) :
    calls.length ≤ (delivered (drain key source cursor calls)).length := by
  induction calls generalizing cursor with
  | nil => exact Nat.zero_le _
  | cons call calls ih =>
      obtain ⟨hfirst, hrest⟩ := List.forall_mem_cons.mp h
      have hpos := List.length_pos_of_ne_nil hfirst
      have hih := ih hrest
      simp only [drain, delivered_cons, List.length_append, List.length_cons]
      omega

/-- A loop that goes on while the flag is set ends: when flagged pages have an item, there
are at most as many of them in a row as items are delivered. -/
theorem drain_ends {cursor : Nat} {calls : List β} (hprogress : ∀ cursor, ∀ call ∈ calls,
    (source cursor call).2 = true → (source cursor call).1 ≠ [])
    (hlength : (delivered (drain key source cursor calls)).length < calls.length) :
    ∃ page ∈ drain key source cursor calls, page.2 = false := by
  by_contra hnone
  have hflagged : ∀ page ∈ drain key source cursor calls, page.1 ≠ [] := by
    intro page hpage
    obtain ⟨pre, post, hsplit⟩ := List.append_of_mem hpage
    obtain ⟨call, hcall, rfl⟩ := drain_split key source hsplit
    apply hprogress _ call hcall
    by_contra hflag
    exact hnone ⟨_, hpage, Bool.eq_false_of_not_eq_true hflag⟩
  have hmany := le_length_drain key hflagged
  omega

/-- Sound pages deliver no item twice. -/
theorem length_delivered_le {all : List α} {calls : List β} (hsound : ∀ cursor, ∀ call ∈ calls,
    Sound key (· ∈ all) cursor (source cursor call).1) (cursor : Nat) :
    (delivered (drain key source cursor calls)).length ≤ all.length := by
  have htotal := sound_drain key hsound cursor
  exact (List.subperm_of_subset (htotal.ascending.nodup key) htotal.drawn).length_le

end Calls

/-- Every page is the front of what is beyond the cursor, has an item as long as there is
one, and is flagged exactly when it leaves an item behind. -/
structure ExactPages (all : List α) (source : Nat → β → List α × Bool) : Prop where
  front : ∀ cursor call, ∃ rest, beyond key all cursor = (source cursor call).1 ++ rest ∧
    ((source cursor call).2 = false ↔ rest = [])
  progress : ∀ cursor call, beyond key all cursor ≠ [] → (source cursor call).1 ≠ []

namespace ExactPages

variable {key} {all : List α} {source : Nat → β → List α × Bool}

/-- The flag tells whether an item lies beyond the next cursor. -/
theorem flag (h : ExactPages key all source) (hall : Ascending key all) (cursor : Nat)
    (call : β) :
    (source cursor call).2 = true ↔
      ∃ a ∈ all, nextCursor key cursor (source cursor call).1 < key a := by
  obtain ⟨rest, hrows, hflag⟩ := h.front cursor call
  have hrest := beyond_nextCursor key hall hrows
  rw [← Bool.not_eq_false, hflag, ← hrest, List.eq_nil_iff_forall_not_mem, not_forall]
  simp only [mem_beyond, Classical.not_not]

theorem sound (h : ExactPages key all source) (hall : Ascending key all) (cursor : Nat)
    (call : β) : Sound key (· ∈ all) cursor (source cursor call).1 := by
  obtain ⟨rest, hrows, -⟩ := h.front cursor call
  have hmem : ∀ a ∈ (source cursor call).1, a ∈ all ∧ cursor < key a := by
    intro a ha
    rw [← mem_beyond key, hrows]
    exact List.mem_append_left rest ha
  have hparts : Ascending key ((source cursor call).1 ++ rest) :=
    hrows ▸ ascending_beyond key hall cursor
  exact ⟨((ascending_append key).mp hparts).1, fun a ha => (hmem a ha).2,
    fun a ha => (hmem a ha).1⟩

/-- The pages of a drain and what is left behind them are what was beyond its cursor. -/
theorem delivered_append_beyond (h : ExactPages key all source) (hall : Ascending key all)
    (cursor : Nat) (calls : List β) :
    delivered (drain key source cursor calls) ++
        beyond key all (nextCursor key cursor (delivered (drain key source cursor calls))) =
      beyond key all cursor := by
  induction calls generalizing cursor with
  | nil => rfl
  | cons call calls ih =>
      obtain ⟨rest, hrows, -⟩ := h.front cursor call
      have hrest := beyond_nextCursor key hall hrows
      simp only [drain, delivered_cons, nextCursor_append, List.append_assoc]
      rw [ih, hrest, ← hrows]

/-- As many calls as there are items beyond the cursor deliver all of them. -/
theorem delivered_all (h : ExactPages key all source) (hall : Ascending key all) {cursor : Nat}
    {calls : List β} (hlength : (beyond key all cursor).length ≤ calls.length) :
    delivered (drain key source cursor calls) = beyond key all cursor := by
  induction calls generalizing cursor with
  | nil => exact (List.length_eq_zero_iff.mp (Nat.le_zero.mp hlength)).symm
  | cons call calls ih =>
      obtain ⟨rest, hrows, -⟩ := h.front cursor call
      have hrest := beyond_nextCursor key hall hrows
      simp only [drain, delivered_cons]
      rw [ih, hrest, ← hrows]
      rw [hrest]
      by_cases hnil : beyond key all cursor = []
      · rw [hnil] at hrows
        simp [(List.append_eq_nil_iff.mp hrows.symm).2]
      · have hpos := List.length_pos_of_ne_nil (h.progress cursor call hnil)
        rw [hrows, List.length_append] at hlength
        simp only [List.length_cons] at hlength
        omega

end ExactPages
end AiSsh.Library
