import AiSsh.Library.Cursor
import Mathlib.Algebra.BigOperators.Group.List.Basic
import Mathlib.Algebra.GroupWithZero.Nat
import Mathlib.Algebra.Order.BigOperators.Group.List

/-!
Pages that are filled from the front of a queue. An item is taken while the page
still fits it; the first item that does not fit ends the page, and the page is
then marked as cut. The weight budget is the usual policy: a page always takes
its first item, so that a reader makes progress whatever the item weighs.
-/

namespace AiSsh.Library

universe u

variable {α : Type u}

def total (weight : α → Nat) (items : List α) : Nat := (items.map weight).sum

@[simp] theorem total_nil (weight : α → Nat) : total weight [] = 0 := rfl

@[simp] theorem total_cons (weight : α → Nat) (x : α) (xs : List α) :
    total weight (x :: xs) = weight x + total weight xs := by
  simp [total]

@[simp] theorem total_append (weight : α → Nat) (xs ys : List α) :
    total weight (xs ++ ys) = total weight xs + total weight ys := by
  simp [total]

theorem total_eq_zero_iff {weight : α → Nat} {xs : List α} :
    total weight xs = 0 ↔ ∀ x ∈ xs, weight x = 0 := by
  induction xs with
  | nil => simp
  | cons x xs ih => simp [ih]

theorem total_sortByKey (weight key : α → Nat) (items : List α) :
    total weight (sortByKey key items) = total weight items :=
  ((List.perm_insertionSort _ items).map weight).sum_eq

/-- Extends `page` from the queue; the flag says that an item was left behind. -/
def fill (fits : List α → α → Bool) (page : List α) : List α → List α × Bool
  | [] => (page, false)
  | x :: queue => if fits page x then fill fits (page ++ [x]) queue else (page, true)

theorem fill_split (fits : List α → α → Bool) (page queue : List α) :
    ∃ taken rest, queue = taken ++ rest ∧ (fill fits page queue).1 = page ++ taken ∧
      ((fill fits page queue).2 = false → rest = []) ∧
      ((fill fits page queue).2 = true →
        ∃ x xs, rest = x :: xs ∧ fits (page ++ taken) x = false) := by
  induction queue generalizing page with
  | nil => exact ⟨[], [], rfl, by simp [fill], by simp [fill], by simp [fill]⟩
  | cons x queue ih =>
      cases h : fits page x with
      | false => exact ⟨[], x :: queue, rfl, by simp [fill, h], by simp [fill, h],
          fun _ => ⟨x, queue, rfl, by simpa using h⟩⟩
      | true =>
          obtain ⟨taken, rest, hq, hp, hall, hcut⟩ := ih (page ++ [x])
          refine ⟨x :: taken, rest, by simp [hq], ?_, ?_, ?_⟩
          · simpa [fill, h] using hp
          · simpa [fill, h] using hall
          · simpa [fill, h] using hcut

theorem fill_prefix (fits : List α → α → Bool) (page queue : List α) :
    ∃ taken, taken <+: queue ∧ (fill fits page queue).1 = page ++ taken := by
  obtain ⟨taken, rest, hq, hp, -⟩ := fill_split fits page queue
  exact ⟨taken, ⟨rest, hq.symm⟩, hp⟩

theorem fill_all {fits : List α → α → Bool} {page queue : List α}
    (h : (fill fits page queue).2 = false) : (fill fits page queue).1 = page ++ queue := by
  obtain ⟨taken, rest, hq, hp, hall, -⟩ := fill_split fits page queue
  rw [hp, hq, hall h, List.append_nil]

theorem fill_ne_nil {fits : List α → α → Bool} (hfirst : ∀ x, fits [] x = true)
    {page queue : List α} (h : page ≠ [] ∨ queue ≠ []) :
    (fill fits page queue).1 ≠ [] := by
  cases queue with
  | nil => simpa [fill] using h
  | cons x queue =>
      obtain ⟨taken, -, hp⟩ := fill_prefix fits (page ++ [x]) queue
      cases hf : fits page x with
      | true => simp [fill, hf, hp]
      | false =>
          have hpage : page ≠ [] := by
            rintro rfl
            simp [hfirst] at hf
          simpa [fill, hf] using hpage

/-- The budget policy: the first item always fits, later ones while the page
stays within `limit`. -/
def withinBudget (weight : α → Nat) (limit : Nat) (page : List α) (x : α) : Bool :=
  page.isEmpty || decide (total weight page + weight x ≤ limit)

theorem withinBudget_nil (weight : α → Nat) (limit : Nat) (x : α) :
    withinBudget weight limit [] x = true := rfl

theorem withinBudget_of_ne {weight : α → Nat} {limit : Nat} {page : List α} {x : α}
    (h : page ≠ []) :
    withinBudget weight limit page x = decide (total weight page + weight x ≤ limit) := by
  cases page with
  | nil => contradiction
  | cons y page => rfl

/-- A page of more than one item stays within the budget. -/
theorem fill_total_le {weight : α → Nat} {limit : Nat} {fits : List α → α → Bool}
    (hfits : ∀ page x, fits page x = true → withinBudget weight limit page x = true)
    {page : List α} (h : page.length ≤ 1 ∨ total weight page ≤ limit) (queue : List α) :
    (fill fits page queue).1.length ≤ 1 ∨ total weight (fill fits page queue).1 ≤ limit := by
  induction queue generalizing page with
  | nil => exact h
  | cons x queue ih =>
      cases hx : fits page x with
      | false => simpa [fill, hx] using h
      | true =>
          simp only [fill, hx, if_true]
          apply ih
          cases page with
          | nil => exact .inl (Nat.le_refl 1)
          | cons y page =>
              have hle := hfits _ _ hx
              rw [withinBudget_of_ne (List.cons_ne_nil y page), decide_eq_true_eq] at hle
              right
              simpa [Nat.add_assoc] using hle

/-- An item of the queue is taken by a page that has begun exactly when it and
everything queued before it fit together. -/
theorem mem_fill_budget {weight : α → Nat} {limit : Nat} {page pre post : List α} {x : α}
    (hpage : page ≠ []) (hnew : x ∉ page) (hpre : x ∉ pre) :
    x ∈ (fill (withinBudget weight limit) page (pre ++ x :: post)).1 ↔
      total weight page + total weight (pre ++ [x]) ≤ limit := by
  induction pre generalizing page with
  | nil =>
      have hx : withinBudget weight limit page x = _ := withinBudget_of_ne hpage
      by_cases hle : total weight page + weight x ≤ limit
      · obtain ⟨taken, -, hp⟩ := fill_prefix (withinBudget weight limit) (page ++ [x]) post
        simp [fill, hx, hle, hp]
      · simp [fill, hx, hle, hnew]
  | cons y pre ih =>
      rw [List.mem_cons, not_or] at hpre
      have hy : withinBudget weight limit page y = _ := withinBudget_of_ne hpage
      by_cases hle : total weight page + weight y ≤ limit
      · have hbegun : page ++ [y] ≠ [] := by simp
        have hstep := ih hbegun (by simp [hnew, hpre.1]) hpre.2
        simp only [total_append, total_cons, total_nil, List.cons_append] at hstep ⊢
        simp only [fill, hy, hle, decide_true, if_true, hstep]
        omega
      · simp only [fill, List.cons_append, hy, hle, decide_false, Bool.false_eq_true, if_false,
          hnew, total_cons, total_append, total_nil, false_iff]
        omega

/-- The queued item `x` and everything queued before it still go on the page. -/
def Within (weight : α → Nat) (limit : Nat) (page queue : List α) (x : α) : Prop :=
  ∃ pre post, queue = pre ++ x :: post ∧
    (page = [] ∧ pre = [] ∨ total weight page + total weight (pre ++ [x]) ≤ limit)

theorem Within.mem {weight : α → Nat} {limit : Nat} {page queue : List α} {x : α}
    (h : Within weight limit page queue x) : x ∈ queue := by
  obtain ⟨pre, post, rfl, -⟩ := h
  simp

/-- What is queued before an item that fits, fits. -/
theorem Within.of_le {weight : α → Nat} {limit : Nat} {page queue : List α} {key : α → Nat}
    {x y : α} (hqueue : Ascending key queue) (h : Within weight limit page queue y)
    (hx : x ∈ queue) (hle : key x ≤ key y) : Within weight limit page queue x := by
  obtain ⟨pre, post, rfl, hfit⟩ := h
  cases List.mem_append.mp hx with
  | inl hpre =>
      obtain ⟨before, between, rfl⟩ := List.append_of_mem hpre
      refine ⟨before, between ++ y :: post, by simp, .inr ?_⟩
      rcases hfit with ⟨-, hnil⟩ | hfit
      · simp at hnil
      · simp only [total_append, total_cons, total_nil] at hfit ⊢
        omega
  | inr hpost =>
      rcases List.mem_cons.mp hpost with rfl | hafter
      · exact ⟨pre, post, rfl, hfit⟩
      · have := (List.pairwise_cons.mp ((ascending_append key).mp hqueue).2.1).1 x hafter
        omega

private theorem mem_fill_first {weight : α → Nat} {limit : Nat} {page pre post : List α} {x : α}
    (hnodup : (page ++ (pre ++ x :: post)).Nodup) :
    x ∈ (fill (withinBudget weight limit) page (pre ++ x :: post)).1 ↔
      (page = [] ∧ pre = [] ∨ total weight page + total weight (pre ++ [x]) ≤ limit) := by
  have hpre : x ∉ pre := fun h =>
    (List.nodup_append.mp (List.nodup_append.mp hnodup).2.1).2.2 x h x (by simp) rfl
  have hpage : x ∉ page := fun h => (List.nodup_append.mp hnodup).2.2 x h x (by simp) rfl
  cases page with
  | cons y page => simp [mem_fill_budget (List.cons_ne_nil y page) hpage hpre]
  | nil =>
      cases pre with
      | nil =>
          obtain ⟨taken, -, hp⟩ := fill_prefix (withinBudget weight limit) [x] post
          simp [fill, withinBudget_nil, hp]
      | cons y pre =>
          have hbegun : x ∈ (fill (withinBudget weight limit) [y] (pre ++ x :: post)).1 ↔ _ :=
            mem_fill_budget (List.cons_ne_nil y []) (by simpa using List.ne_of_not_mem_cons hpre)
              (List.not_mem_of_not_mem_cons hpre)
          simp only [List.cons_append, fill, withinBudget_nil, if_true, List.nil_append]
          rw [hbegun]
          simp

/-- A page takes from the queue exactly what stays within the budget. -/
theorem mem_fill_within {weight : α → Nat} {limit : Nat} {page queue : List α} {x : α}
    (hnodup : (page ++ queue).Nodup) :
    x ∈ (fill (withinBudget weight limit) page queue).1 ↔
      x ∈ page ∨ Within weight limit page queue x := by
  constructor
  · intro h
    obtain ⟨taken, ⟨rest, hq⟩, hp⟩ := fill_prefix (withinBudget weight limit) page queue
    rw [hp] at h
    cases List.mem_append.mp h with
    | inl hpage => exact .inl hpage
    | inr htaken =>
        obtain ⟨pre, post, hsplit⟩ :=
          List.append_of_mem (show x ∈ queue from hq ▸ List.mem_append_left rest htaken)
        subst hsplit
        refine .inr ⟨pre, post, rfl, (mem_fill_first hnodup).mp ?_⟩
        rw [hp]
        exact h
  · rintro (hpage | ⟨pre, post, rfl, hfit⟩)
    · obtain ⟨taken, -, hp⟩ := fill_prefix (withinBudget weight limit) page queue
      rw [hp]
      exact List.mem_append_left _ hpage
    · exact (mem_fill_first hnodup).mpr hfit

end AiSsh.Library
