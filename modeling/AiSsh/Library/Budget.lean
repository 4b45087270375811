import AiSsh.Library.Paging

/-!
Pieces put together under a budget. Each piece has a tag and a body; only bodies are charged.
The first body that does not fit ends the whole, and of it the elements are taken that start
before the budget is used up, so that the last of them may reach beyond it.

The whole stays within the budget in two cases: everything fits with its tags, or no tag comes
before the cut and an element ends exactly where the budget does.
-/

namespace AiSsh.Library.Budget

universe u

variable {α : Type u} (size : α → Nat)

structure Piece (α : Type u) where
  tag : List α
  body : List α

/-- The elements that start before `budget`, the first of them at `start`. -/
def startingBefore (budget start : Nat) : List α → List α
  | [] => []
  | x :: xs => if start < budget then x :: startingBefore budget (start + size x) xs else []

def capped : Nat → List (Piece α) → List α
  | _, [] => []
  | budget, piece :: pieces =>
      if total size piece.body ≤ budget then
        piece.tag ++ piece.body ++ capped (budget - total size piece.body) pieces
      else
        piece.tag ++ startingBefore size budget 0 piece.body

def bodies (pieces : List (Piece α)) : Nat :=
  total (fun piece => total size piece.body) pieces

def tagged (pieces : List (Piece α)) : Nat :=
  total (fun piece => total size piece.tag + total size piece.body) pieces

@[simp] theorem bodies_nil : bodies size ([] : List (Piece α)) = 0 := rfl

@[simp] theorem bodies_cons (piece : Piece α) (pieces : List (Piece α)) :
    bodies size (piece :: pieces) = total size piece.body + bodies size pieces :=
  total_cons _ _ _

@[simp] theorem tagged_cons (piece : Piece α) (pieces : List (Piece α)) :
    tagged size (piece :: pieces) =
      total size piece.tag + total size piece.body + tagged size pieces :=
  total_cons _ _ _

/-- Without a tag, up to and into a body that goes on where the budget ends. -/
def EndsAt (budget : Nat) (pieces : List (Piece α)) : Prop :=
  ∃ front piece back kept dropped, pieces = front ++ piece :: back ∧
    (∀ p ∈ front ++ [piece], total size p.tag = 0) ∧ piece.body = kept ++ dropped ∧
    total size dropped ≠ 0 ∧ bodies size front + total size kept = budget

section Cut

variable {size}

theorem startingBefore_of_le {budget start : Nat} (h : budget ≤ start) (xs : List α) :
    startingBefore size budget start xs = [] := by
  cases xs with
  | nil => rfl
  | cons x xs => rw [startingBefore, if_neg (by omega)]

/-- What overflows the budget is cut where it is used up, or later. -/
theorem budget_le_cut {budget start : Nat} {xs : List α} (hstart : start ≤ budget)
    (h : budget < start + total size xs) :
    budget ≤ start + total size (startingBefore size budget start xs) := by
  induction xs generalizing start with
  | nil =>
      rw [total_nil] at h
      omega
  | cons x xs ih =>
      rw [startingBefore]
      rw [total_cons] at h
      split
      · rw [total_cons]
        by_cases hnext : start + size x ≤ budget
        · have hrest := ih hnext (by omega)
          omega
        · omega
      · omega

theorem startingBefore_prefix (size : α → Nat) (budget start : Nat) (xs : List α) :
    ∃ dropped, xs = startingBefore size budget start xs ++ dropped := by
  induction xs generalizing start with
  | nil => exact ⟨[], rfl⟩
  | cons x xs ih =>
      rw [startingBefore]
      split
      · obtain ⟨dropped, hdropped⟩ := ih (start + size x)
        exact ⟨dropped, by rw [List.cons_append, ← hdropped]⟩
      · exact ⟨x :: xs, rfl⟩

/-- An element that ends where the budget does is the last one. -/
theorem cut_of_prefix {budget start : Nat} {kept : List α} (dropped : List α)
    (h : start + total size kept = budget) :
    start + total size (startingBefore size budget start (kept ++ dropped)) = budget := by
  induction kept generalizing start with
  | nil =>
      rw [List.nil_append, startingBefore_of_le (by rw [total_nil] at h; omega), total_nil]
      simpa using h
  | cons x kept ih =>
      rw [total_cons] at h
      rw [List.cons_append, startingBefore]
      split
      · rw [total_cons]
        have hnext : start + size x + total size kept = budget := by omega
        have hrest := ih hnext
        omega
      · rw [total_nil]
        omega

/-- The longest beginning of `whole` that the budget covers. -/
structure Longest (size : α → Nat) (budget : Nat) (whole front : List α) : Prop where
  begins : front <+: whole
  within : total size front ≤ budget
  longest : ∀ other, other <+: whole → total size other ≤ budget → other <+: front

theorem longest_of_le {budget : Nat} {whole : List α} (h : total size whole ≤ budget) :
    Longest size budget whole whole :=
  ⟨List.prefix_rfl, h, fun _ hother _ => hother⟩

/-- A beginning that uses the budget up is the longest one. -/
theorem longest_of_total_eq (hsize : ∀ x, 0 < size x) {budget : Nat} {whole front : List α}
    (hfront : front <+: whole) (h : total size front = budget) :
    Longest size budget whole front := by
  refine ⟨hfront, Nat.le_of_eq h, fun other hother hwithin => ?_⟩
  cases List.prefix_or_prefix_of_prefix hother hfront with
  | inl hshorter => exact hshorter
  | inr hlonger =>
      obtain ⟨rest, rfl⟩ := hlonger
      rw [total_append] at hwithin
      have hrest : rest = [] := by
        cases rest with
        | nil => rfl
        | cons x rest =>
            have hx := hsize x
            rw [total_cons] at hwithin
            omega
      simp only [hrest, List.append_nil, List.prefix_rfl]

/-- The cut is the longest beginning exactly if an element ends where the budget does. -/
theorem longest_cut_iff (hsize : ∀ x, 0 < size x) {budget : Nat} {xs : List α}
    (h : budget < total size xs) :
    Longest size budget xs (startingBefore size budget 0 xs) ↔
      ∃ front, front <+: xs ∧ total size front = budget := by
  constructor
  · intro hlongest
    have hover := budget_le_cut (Nat.zero_le budget) (Nat.zero_add (total size xs) ▸ h)
    rw [Nat.zero_add] at hover
    exact ⟨_, hlongest.begins, Nat.le_antisymm hlongest.within hover⟩
  · intro ⟨front, ⟨dropped, hdropped⟩, hfront⟩
    have hcut := cut_of_prefix dropped ((Nat.zero_add (total size front)).trans hfront)
    rw [hdropped, Nat.zero_add] at hcut
    obtain ⟨rest, hrest⟩ := startingBefore_prefix size budget 0 xs
    exact longest_of_total_eq hsize ⟨rest, hrest.symm⟩ hcut

end Cut

section Within

variable {size} {budget : Nat} {piece : Piece α} {pieces : List (Piece α)}

theorem not_endsAt_nil : ¬ EndsAt size budget ([] : List (Piece α)) := by
  intro ⟨front, piece, back, kept, dropped, hpieces, hrest⟩
  simp at hpieces

/-- A body that fits is charged. -/
theorem endsAt_cons_of_le (h : total size piece.body ≤ budget) :
    EndsAt size budget (piece :: pieces) ↔
      total size piece.tag = 0 ∧ EndsAt size (budget - total size piece.body) pieces := by
  constructor
  · intro ⟨front, last, back, kept, dropped, hpieces, htags, hbody, hdropped, hsize⟩
    cases front with
    | nil =>
        cases hpieces
        rw [hbody, total_append] at h
        rw [bodies_nil] at hsize
        omega
    | cons first front =>
        cases hpieces
        refine ⟨htags piece (by simp), front, last, back, kept, dropped, rfl, ?_, hbody, hdropped,
          ?_⟩
        · exact fun p hp => htags p (List.mem_cons_of_mem _ hp)
        · rw [bodies_cons] at hsize
          omega
  · intro ⟨htag, front, last, back, kept, dropped, hpieces, htags, hbody, hdropped, hsize⟩
    refine ⟨piece :: front, last, back, kept, dropped, by rw [hpieces]; rfl, ?_, hbody, hdropped,
      ?_⟩
    · intro p hp
      rcases List.mem_cons.mp hp with rfl | hp
      · exact htag
      · exact htags p hp
    · rw [bodies_cons]
      omega

/-- A body that does not fit is cut. -/
theorem endsAt_cons_of_lt (h : budget < total size piece.body) :
    EndsAt size budget (piece :: pieces) ↔
      total size piece.tag = 0 ∧ total size (startingBefore size budget 0 piece.body) = budget := by
  constructor
  · intro ⟨front, last, back, kept, dropped, hpieces, htags, hbody, hdropped, hsize⟩
    cases front with
    | nil =>
        cases hpieces
        rw [bodies_nil] at hsize
        refine ⟨htags piece (by simp), ?_⟩
        have hcut := cut_of_prefix dropped hsize
        rwa [hbody, ← Nat.zero_add (total _ _)]
    | cons first front =>
        cases hpieces
        rw [bodies_cons] at hsize
        omega
  · intro ⟨htag, hcut⟩
    obtain ⟨dropped, hdropped⟩ := startingBefore_prefix size budget 0 piece.body
    refine ⟨[], piece, pieces, _, dropped, rfl, by simpa using htag, hdropped, ?_, ?_⟩
    · intro hnone
      have htotal := congrArg (total size) hdropped
      rw [total_append] at htotal
      omega
    · simpa [bodies] using hcut

/-- `extra` has been spent on tags before. -/
theorem capped_add_le_iff (extra : Nat) :
    total size (capped size budget pieces) + extra ≤ budget ↔
      tagged size pieces + extra ≤ budget ∨ extra = 0 ∧ EndsAt size budget pieces := by
  induction pieces generalizing budget extra with
  | nil => simp [capped, tagged, not_endsAt_nil]
  | cons piece pieces ih =>
      rw [capped, tagged_cons]
      split
      · rename_i hfits
        have hrest := @ih (budget - total size piece.body) (extra + total size piece.tag)
        rw [endsAt_cons_of_le hfits]
        simp only [total_append]
        constructor
        · intro h
          rcases hrest.mp (by omega) with hleft | ⟨hextra, hends⟩
          · exact .inl (by omega)
          · exact .inr ⟨by omega, by omega, hends⟩
        · intro h
          have hle := hrest.mpr (by
            rcases h with hleft | ⟨hextra, htag, hends⟩
            · exact .inl (by omega)
            · exact .inr ⟨by omega, hends⟩)
          omega
      · rename_i hover
        have hcut : budget ≤ 0 + total size (startingBefore size budget 0 piece.body) :=
          budget_le_cut (Nat.zero_le _) (by omega)
        rw [endsAt_cons_of_lt (by omega), total_append]
        omega

/-- The whole stays within the budget when all of it does, or when it ends there. -/
theorem capped_le_iff :
    total size (capped size budget pieces) ≤ budget ↔
      tagged size pieces ≤ budget ∨ EndsAt size budget pieces := by
  have hnothing : total size (capped size budget pieces) + 0 ≤ budget ↔ _ := capped_add_le_iff 0
  simpa using hnothing

end Within

end AiSsh.Library.Budget
