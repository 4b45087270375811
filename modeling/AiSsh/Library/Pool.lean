import Mathlib.Data.List.Nodup
import Mathlib.Data.List.Perm.Basic

/-!
A pool of items of which one at a time moves on. The order of the pool does not matter,
so a step is a pair of permutations with the items that stay. Names that the items draw
from a growing supply stay apart.
-/

namespace AiSsh.Library

universe u v

variable {α : Type u} {β : Type v}

theorem mem_middle {front back : List α} {x y : α} :
    y ∈ front ++ x :: back ↔ y = x ∨ y ∈ front ++ back :=
  List.perm_middle.mem_iff.trans List.mem_cons

theorem countP_middle (p : α → Bool) (front back : List α) (x : α) :
    (front ++ x :: back).countP p = (front ++ back).countP p + if p x then 1 else 0 := by
  rw [List.perm_middle.countP_eq, List.countP_cons]

/-- One item of one part moves on: so it does in the pool of all parts. -/
theorem flatMap_set_perm {f : α → List β} {parts : List α} {k : Nat} {x x' : α} {b b' : β}
    {rest : List β} (hx : parts[k]? = some x) (h : (f x).Perm (b :: rest))
    (h' : (f x').Perm (b' :: rest)) :
    ∃ others, (parts.flatMap f).Perm (b :: others) ∧
      ((parts.set k x').flatMap f).Perm (b' :: others) := by
  induction parts generalizing k with
  | nil => cases hx
  | cons y parts ih =>
      cases k with
      | zero =>
          cases hx
          exact ⟨rest ++ parts.flatMap f, h.append_right _, h'.append_right _⟩
      | succ k =>
          obtain ⟨others, hall, hall'⟩ := ih hx
          refine ⟨f y ++ others, ?_, ?_⟩
          · exact (hall.append_left (f y)).trans List.perm_middle
          · exact (hall'.append_left (f y)).trans List.perm_middle

/-- One part gets more items: so does the pool of all parts. -/
theorem flatMap_set_more {f : α → List β} {parts : List α} {k : Nat} {x x' : α} {more : List β}
    (hx : parts[k]? = some x) (h : (f x').Perm (more ++ f x)) :
    ((parts.set k x').flatMap f).Perm (more ++ parts.flatMap f) := by
  induction parts generalizing k with
  | nil => cases hx
  | cons y parts ih =>
      cases k with
      | zero =>
          cases hx
          simpa using h.append_right (parts.flatMap f)
      | succ k =>
          have hall := (ih hx).append_left (f y)
          have hswap := List.perm_append_comm_assoc (f y) more (parts.flatMap f)
          exact hall.trans hswap

/-- The names in use stay apart when the item that moves keeps its name, drops it, or draws
a new one. -/
theorem nodup_names_move {name : α → Option β} {items items' others : List α} {x x' : α}
    {used used' : List β} (hbefore : items.Perm (x :: others)) (hafter : items'.Perm (x' :: others))
    (hused : ∀ b ∈ used, b ∈ used')
    (hmove : ∀ b, name x' = some b →
      name x = some b ∨ name x = none ∧ b ∉ used ∧ b ∈ used')
    (hdistinct : (items.filterMap name).Nodup) (hhanded : ∀ b ∈ items.filterMap name, b ∈ used) :
    (items'.filterMap name).Nodup ∧ ∀ b ∈ items'.filterMap name, b ∈ used' := by
  have hnames := hbefore.filterMap name
  have hdistinct := hnames.nodup_iff.mp hdistinct
  have hhanded (b : β) (hb : b ∈ (x :: others).filterMap name) : b ∈ used :=
    hhanded b (hnames.mem_iff.mpr hb)
  have hnames' := hafter.filterMap name
  have hothers : ((others.filterMap name).Sublist ((x :: others).filterMap name)) :=
    (List.sublist_cons_self x others).filterMap _
  rw [hnames'.nodup_iff]
  simp only [hnames'.mem_iff]
  cases hname : name x' with
  | none =>
      rw [List.filterMap_cons_none hname]
      exact ⟨hdistinct.sublist hothers, fun b hb => hused b (hhanded b (hothers.subset hb))⟩
  | some b =>
      rw [List.filterMap_cons_some hname]
      cases hmove b hname with
      | inl hsame =>
          rw [List.filterMap_cons_some hsame] at hdistinct hhanded
          exact ⟨hdistinct, fun c hc => hused c (hhanded c hc)⟩
      | inr hdrawn =>
          obtain ⟨-, hfresh, hnew⟩ := hdrawn
          refine ⟨List.nodup_cons.mpr ⟨?_, hdistinct.sublist hothers⟩, ?_⟩
          · exact fun hb => hfresh (hhanded b (hothers.subset hb))
          · intro c hc
            cases List.mem_cons.mp hc with
            | inl hc => exact hc ▸ hnew
            | inr hc => exact hused c (hhanded c (hothers.subset hc))

end AiSsh.Library
