import Mathlib.Data.List.Sort

/-!
Readers that follow a cursor. Items carry a key; a page holds items beyond the
cursor in ascending order, and the reader moves its cursor to the last key of the
page. Whatever a page passes over is behind the cursor for good, so a reader is
complete exactly when no page passed over an item.
-/

namespace AiSsh.Library

universe u

variable {α : Type u} (key : α → Nat)

def Ascending (items : List α) : Prop := items.Pairwise fun a b => key a < key b

theorem ascending_nil : Ascending key [] := List.Pairwise.nil

theorem Ascending.sublist {xs ys : List α} (h : Ascending key ys) (hs : xs.Sublist ys) :
    Ascending key xs := List.Pairwise.sublist hs h

theorem Ascending.filter {xs : List α} (p : α → Bool) (h : Ascending key xs) :
    Ascending key (xs.filter p) := h.sublist key List.filter_sublist

theorem ascending_append {xs ys : List α} :
    Ascending key (xs ++ ys) ↔
      Ascending key xs ∧ Ascending key ys ∧ ∀ a ∈ xs, ∀ b ∈ ys, key a < key b :=
  List.pairwise_append

theorem Ascending.nodup {xs : List α} (h : Ascending key xs) : xs.Nodup := by
  refine List.Pairwise.imp ?_ h
  rintro a b hlt rfl
  exact Nat.lt_irrefl _ hlt

theorem Ascending.key_inj {xs : List α} (h : Ascending key xs) {a b : α}
    (ha : a ∈ xs) (hb : b ∈ xs) (hk : key a = key b) : a = b := by
  induction xs with
  | nil => contradiction
  | cons x xs ih =>
      obtain ⟨hx, hxs⟩ := List.pairwise_cons.mp h
      rcases List.mem_cons.mp ha with rfl | ha' <;> rcases List.mem_cons.mp hb with rfl | hb'
      · rfl
      · exact absurd (hx b hb') (by omega)
      · exact absurd (hx a ha') (by omega)
      · exact ih hxs ha' hb'

/-- Ascending lists with the same items are the same list. -/
theorem Ascending.ext {xs ys : List α} (hx : Ascending key xs) (hy : Ascending key ys)
    (h : ∀ a, a ∈ xs ↔ a ∈ ys) : xs = ys := by
  have hperm : xs.Perm ys := (List.perm_ext_iff_of_nodup hx.nodup hy.nodup).mpr h
  refine List.Perm.eq_of_pairwise ?_ hx hy hperm
  intro a b _ _ hab hba
  omega

/-- Items in front of the last one have smaller keys. -/
theorem Ascending.le_getLast {xs : List α} (h : Ascending key xs) (hne : xs ≠ [])
    {a : α} (ha : a ∈ xs) : key a ≤ key (xs.getLast hne) := by
  have hsplit := List.dropLast_append_getLast hne
  rw [← hsplit] at h ha
  cases List.mem_append.mp ha with
  | inl hinit =>
      exact Nat.le_of_lt
        (((ascending_append key).mp h).2.2 a hinit _ (List.mem_singleton_self _))
  | inr hlast => rw [List.mem_singleton.mp hlast]

def sortByKey (items : List α) : List α :=
  items.insertionSort fun a b => key a ≤ key b

theorem mem_sortByKey {items : List α} {a : α} : a ∈ sortByKey key items ↔ a ∈ items :=
  List.mem_insertionSort _

theorem sortByKey_pairwise (items : List α) :
    (sortByKey key items).Pairwise fun a b => key a ≤ key b := by
  let _ : Std.Total fun a b : α => key a ≤ key b := ⟨fun a b => Nat.le_total _ _⟩
  let _ : IsTrans α fun a b => key a ≤ key b := ⟨fun _ _ _ => Nat.le_trans⟩
  exact List.pairwise_insertionSort _ items

theorem ascending_sortByKey {items : List α} (h : (items.map key).Nodup) :
    Ascending key (sortByKey key items) := by
  have hle := sortByKey_pairwise key items
  have hperm := (List.perm_insertionSort (fun a b : α => key a ≤ key b) items).map key
  have hne : (sortByKey key items).Pairwise fun a b => key a ≠ key b :=
    List.pairwise_map.mp (hperm.nodup_iff.mpr h)
  refine (hle.and hne).imp ?_
  intro a b hab
  omega

theorem sortByKey_of_ascending {items : List α} (h : Ascending key items) :
    sortByKey key items = items :=
  List.Pairwise.insertionSort_eq (h.imp fun hlt => Nat.le_of_lt hlt)

theorem ascending_map {items : List α} (h : Ascending key items) :
    Ascending (fun n : Nat => n) (items.map key) := List.pairwise_map.mpr h

/-- Where the cursor stands after a page: on its last key, or where it was. -/
def nextCursor (cursor : Nat) (page : List α) : Nat := (page.getLast?.map key).getD cursor

@[simp] theorem nextCursor_nil (cursor : Nat) : nextCursor key cursor [] = cursor := rfl

@[simp] theorem nextCursor_map (cursor : Nat) (page : List α) :
    nextCursor (fun n => n) cursor (page.map key) = nextCursor key cursor page := by
  simp [nextCursor, List.getLast?_map, Function.comp_def]

theorem nextCursor_of_ne {cursor : Nat} {page : List α} (h : page ≠ []) :
    nextCursor key cursor page = key (page.getLast h) := by
  simp [nextCursor, List.getLast?_eq_some_getLast h]

theorem le_nextCursor {cursor : Nat} {page : List α} (h : Ascending key page)
    {a : α} (ha : a ∈ page) : key a ≤ nextCursor key cursor page := by
  have hne : page ≠ [] := List.ne_nil_of_mem ha
  rw [nextCursor_of_ne key hne]
  exact h.le_getLast key hne ha

/-- No item of a sorted page is beyond the next cursor. -/
theorem le_nextCursor_sortByKey {cursor : Nat} {items : List α} {a : α} (ha : a ∈ items) :
    key a ≤ nextCursor key cursor (sortByKey key items) := by
  have hmem := (mem_sortByKey key).mpr ha
  have hne : sortByKey key items ≠ [] := List.ne_nil_of_mem hmem
  have hsorted := sortByKey_pairwise key items
  have hsplit := List.dropLast_append_getLast hne
  rw [nextCursor_of_ne key hne]
  rw [← hsplit] at hmem hsorted
  cases List.mem_append.mp hmem with
  | inl hinit => exact (List.pairwise_append.mp hsorted).2.2 a hinit _ (List.mem_singleton_self _)
  | inr hlast => rw [List.mem_singleton.mp hlast]

/-- A cursor that moves stands on an item of the page. -/
theorem nextCursor_mem (cursor : Nat) {page : List α} (h : page ≠ []) :
    ∃ a ∈ page, key a = nextCursor key cursor page :=
  ⟨page.getLast h, List.getLast_mem h, (nextCursor_of_ne key h).symm⟩

theorem cursor_le_nextCursor {cursor : Nat} {page : List α} (h : ∀ a ∈ page, cursor < key a) :
    cursor ≤ nextCursor key cursor page := by
  by_cases hne : page = []
  · simp [hne]
  · obtain ⟨a, ha, hk⟩ := nextCursor_mem key cursor hne
    have := h a ha
    omega

/-- A page as a cursor reader expects it, over the items it is drawn from. -/
structure Sound (all : α → Prop) (cursor : Nat) (page : List α) : Prop where
  ascending : Ascending key page
  beyond : ∀ a ∈ page, cursor < key a
  drawn : ∀ a ∈ page, all a

/-- The page passes over no item on its way to the next cursor. -/
def Gapless (all : α → Prop) (cursor : Nat) (page : List α) : Prop :=
  ∀ a, all a → cursor < key a → key a ≤ nextCursor key cursor page → a ∈ page

theorem Sound.cursor_le {all : α → Prop} {cursor : Nat} {page : List α}
    (h : Sound key all cursor page) : cursor ≤ nextCursor key cursor page :=
  cursor_le_nextCursor key h.beyond

structure Reader (α : Type u) where
  cursor : Nat
  received : List α

namespace Reader

def start : Reader α := ⟨0, []⟩

def take (r : Reader α) (page : List α) : Reader α :=
  ⟨nextCursor key r.cursor page, r.received ++ page⟩

/-- What was received came in ascending order from the items, once each. -/
structure InOrder (all : α → Prop) (r : Reader α) : Prop where
  ascending : Ascending key r.received
  behind : ∀ a ∈ r.received, key a ≤ r.cursor
  drawn : ∀ a ∈ r.received, all a

/-- Nothing behind the cursor was missed. -/
def Complete (all : α → Prop) (r : Reader α) : Prop :=
  ∀ a, all a → key a ≤ r.cursor → a ∈ r.received

theorem inOrder_start (all : α → Prop) : InOrder key all start :=
  ⟨ascending_nil key, by simp [start], by simp [start]⟩

theorem InOrder.mono {all all' : α → Prop} {r : Reader α} (h : InOrder key all r)
    (hall : ∀ a, all a → all' a) : InOrder key all' r :=
  ⟨h.ascending, h.behind, fun a ha => hall a (h.drawn a ha)⟩

theorem InOrder.take {all : α → Prop} {r : Reader α} {page : List α}
    (h : InOrder key all r) (hp : Sound key all r.cursor page) :
    InOrder key all (r.take key page) where
  ascending := by
    refine (ascending_append key).mpr ⟨h.ascending, hp.ascending, ?_⟩
    intro a ha b hb
    exact Nat.lt_of_le_of_lt (h.behind a ha) (hp.beyond b hb)
  behind a ha := by
    cases List.mem_append.mp ha with
    | inl hr => exact Nat.le_trans (h.behind a hr) (hp.cursor_le key)
    | inr hpage => exact le_nextCursor key hp.ascending hpage
  drawn a ha := (List.mem_append.mp ha).elim (h.drawn a) (hp.drawn a)

theorem Complete.take {all : α → Prop} {r : Reader α} {page : List α}
    (h : Complete key all r) (hp : Gapless key all r.cursor page) :
    Complete key all (r.take key page) := by
  intro a ha hk
  by_cases hcur : key a ≤ r.cursor
  · exact List.mem_append_left _ (h a ha hcur)
  · exact List.mem_append_right _ (hp a ha (by omega) hk)

/-- A page with a gap leaves the reader incomplete. -/
theorem not_complete_take {all : α → Prop} {r : Reader α} {page : List α}
    (h : InOrder key all r) (hp : ¬ Gapless key all r.cursor page) :
    ¬ Complete key all (r.take key page) := by
  simp only [Gapless, not_forall] at hp
  obtain ⟨a, ha, hbeyond, hnext, hmissed⟩ := hp
  intro hcomplete
  cases List.mem_append.mp (hcomplete a ha hnext) with
  | inl hr =>
      have := h.behind a hr
      omega
  | inr hpage => exact hmissed hpage

/-- An incomplete reader stays incomplete. -/
theorem not_complete_take_of_not {all : α → Prop} {r : Reader α} {page : List α}
    (hp : Sound key all r.cursor page) (h : ¬ Complete key all r) :
    ¬ Complete key all (r.take key page) := by
  simp only [Complete, not_forall] at h
  obtain ⟨a, ha, hk, hmissed⟩ := h
  intro hcomplete
  have hnext : key a ≤ (r.take key page).cursor := Nat.le_trans hk (hp.cursor_le key)
  cases List.mem_append.mp (hcomplete a ha hnext) with
  | inl hr => exact hmissed hr
  | inr hpage =>
      have := hp.beyond a hpage
      omega

/-- One more page keeps the reader complete exactly when it has no gap. -/
theorem complete_take_iff {all : α → Prop} {r : Reader α} {page : List α}
    (h : InOrder key all r) (hp : Sound key all r.cursor page) :
    Complete key all (r.take key page) ↔
      Complete key all r ∧ Gapless key all r.cursor page := by
  constructor
  · intro hcomplete
    constructor
    · by_contra hnot
      exact not_complete_take_of_not key hp hnot hcomplete
    · by_contra hgap
      exact not_complete_take key h hgap hcomplete
  · rintro ⟨hcomplete, hgapless⟩
    exact hcomplete.take key hgapless

/-- A complete reader whose cursor has passed every item received them all. -/
theorem received_eq {all : List α} {r : Reader α} (h : InOrder key (· ∈ all) r)
    (hall : Ascending key all) (hpast : ∀ a ∈ all, key a ≤ r.cursor) :
    r.received = all ↔ Complete key (· ∈ all) r := by
  constructor
  · intro heq a ha _
    rw [heq]
    exact ha
  · intro hcomplete
    exact h.ascending.ext key hall fun a =>
      ⟨h.drawn a, fun ha => hcomplete a ha (hpast a ha)⟩

/-- No more is received than there is. -/
theorem InOrder.length_le {all : List α} {r : Reader α} (h : InOrder key (· ∈ all) r) :
    r.received.length ≤ all.length :=
  (List.subperm_of_subset (h.ascending.nodup key) h.drawn).length_le

/-! A reader whose pages may come late: each is taken whole, and the cursor only moves on. -/

/-- The cursor after a page that need not lie beyond it. -/
def furthest (cursor : Nat) (page : List α) : Nat :=
  page.foldl (fun cursor a => max cursor (key a)) cursor

theorem furthest_le {cursor n : Nat} {page : List α} :
    furthest key cursor page ≤ n ↔ cursor ≤ n ∧ ∀ a ∈ page, key a ≤ n := by
  induction page generalizing cursor with
  | nil => simp [furthest]
  | cons a page ih =>
      have hcons : furthest key cursor (a :: page) = furthest key (max cursor (key a)) page := rfl
      rw [hcons, ih]
      simp only [Nat.max_le, List.forall_mem_cons, and_assoc]

theorem furthest_cases (cursor : Nat) (page : List α) :
    furthest key cursor page = cursor ∨ ∃ a ∈ page, key a = furthest key cursor page := by
  induction page generalizing cursor with
  | nil => exact .inl rfl
  | cons a page ih =>
      rw [show furthest key cursor (a :: page) = furthest key (max cursor (key a)) page from rfl]
      cases ih (max cursor (key a)) with
      | inl hmax =>
          rw [hmax]
          cases Nat.le_total cursor (key a) with
          | inl hle => exact .inr ⟨a, List.mem_cons_self, (Nat.max_eq_right hle).symm⟩
          | inr hle => exact .inl (Nat.max_eq_left hle)
      | inr hlater =>
          obtain ⟨b, hb, hkey⟩ := hlater
          exact .inr ⟨b, List.mem_cons_of_mem _ hb, hkey⟩

def accept (r : Reader α) (page : List α) : Reader α :=
  ⟨furthest key r.cursor page, r.received ++ page⟩

/-- The cursor is the furthest key received. -/
structure Abreast (r : Reader α) : Prop where
  behind : ∀ a ∈ r.received, key a ≤ r.cursor
  last : r.cursor = 0 ∨ ∃ a ∈ r.received, key a = r.cursor

theorem abreast_start : Abreast key (start : Reader α) := ⟨nofun, .inl rfl⟩

theorem Abreast.accept {r : Reader α} (h : Abreast key r) (page : List α) :
    Abreast key (r.accept key page) := by
  have hle := (furthest_le key).mp (Nat.le_refl (furthest key r.cursor page))
  refine ⟨?_, ?_⟩
  · intro a ha
    cases List.mem_append.mp ha with
    | inl hold => exact Nat.le_trans (h.behind a hold) hle.1
    | inr hnew => exact hle.2 a hnew
  · cases furthest_cases key r.cursor page with
    | inl hsame =>
        refine h.last.imp (fun hzero => hsame.trans hzero) fun hlast => ?_
        obtain ⟨a, ha, hkey⟩ := hlast
        exact ⟨a, List.mem_append_left page ha, hkey.trans hsame.symm⟩
    | inr hnew =>
        obtain ⟨a, ha, hkey⟩ := hnew
        exact .inr ⟨a, List.mem_append_right r.received ha, hkey⟩

/-- A page keeps the reader in order exactly if it starts beyond the cursor. -/
theorem Abreast.ascending_accept {r : Reader α} (h : Abreast key r) {page : List α}
    (hpage : Ascending key page) (hpositive : ∀ a ∈ page, 0 < key a) :
    Ascending key (r.accept key page).received ↔
      Ascending key r.received ∧ ∀ a ∈ page.head?, r.cursor < key a := by
  rw [show (r.accept key page).received = r.received ++ page from rfl, ascending_append]
  refine and_congr_right fun _ => ?_
  cases page with
  | nil => simp [hpage]
  | cons first rest =>
      simp only [hpage, true_and, List.head?_cons, Option.mem_some_iff, forall_eq']
      constructor
      · intro hbefore
        cases h.last with
        | inl hzero => exact hzero ▸ hpositive first List.mem_cons_self
        | inr hlast =>
            obtain ⟨a, ha, hkey⟩ := hlast
            exact hkey ▸ hbefore a ha first List.mem_cons_self
      · intro hbeyond a ha b hb
        have hfirst : key first ≤ key b := by
          cases List.mem_cons.mp hb with
          | inl hsame => rw [hsame]
          | inr hrest => exact Nat.le_of_lt ((List.pairwise_cons.mp hpage).1 b hrest)
        exact Nat.lt_of_le_of_lt (h.behind a ha) (Nat.lt_of_lt_of_le hbeyond hfirst)

end Reader
end AiSsh.Library
