import Mathlib.Data.List.Basic

/-!
Streams of items under captions. Some items are captions, others are owned; an owned item
is read as its owner's exactly if the last caption before it is the owner's. A stream only
grows at its end, so what has been read under its caption stays read so.
-/

namespace AiSsh.Library

universe u v

variable {α : Type u} {ι : Type v} (caption owner : α → Option ι)

/-- The caption that the next item will stand under. -/
def lastCaption (items : List α) : Option ι := (items.filterMap caption).getLast?

@[simp] theorem lastCaption_nil : lastCaption caption [] = none := rfl

@[simp] theorem lastCaption_concat (items : List α) (item : α) :
    lastCaption caption (items ++ [item]) = (caption item).or (lastCaption caption items) := by
  cases h : caption item <;> simp [lastCaption, h]

/-- Every owned item stands under the caption of its owner. -/
def Attributed (items : List α) : Prop :=
  ∀ before item after, items = before ++ item :: after →
    ∀ id, owner item = some id → lastCaption caption before = some id

theorem attributed_nil : Attributed caption owner [] := by
  intro before item after hsplit
  cases before <;> cases hsplit

theorem attributed_concat {items : List α} {item : α} :
    Attributed caption owner (items ++ [item]) ↔ Attributed caption owner items ∧
      ∀ id, owner item = some id → lastCaption caption items = some id := by
  constructor
  · intro h
    refine ⟨fun before other after hsplit => ?_, h items item [] rfl⟩
    exact h before other (after ++ [item]) (by simp [hsplit])
  · intro h before other after hsplit
    cases after.eq_nil_or_concat with
    | inl hlast =>
        subst hlast
        obtain ⟨rfl, hitem⟩ := List.append_inj' hsplit rfl
        cases hitem
        exact h.2
    | inr hearlier =>
        obtain ⟨rest, last, rfl⟩ := hearlier
        rw [List.concat_eq_append, ← List.cons_append, ← List.append_assoc] at hsplit
        exact h.1 before other rest (List.append_inj' hsplit rfl).1

theorem attributed_iff_getElem {items : List α} :
    Attributed caption owner items ↔ ∀ k < items.length, ∀ id ∈ items[k]?.bind owner,
      lastCaption caption (items.take k) = some id := by
  constructor
  · intro h k hk id hid
    rw [List.getElem?_eq_getElem hk] at hid
    refine h (items.take k) items[k] (items.drop (k + 1)) ?_ id hid
    rw [← List.drop_eq_getElem_cons hk, List.take_append_drop]
  · intro h before item after hsplit id hid
    have hk : before.length < items.length := by simp [hsplit]
    have hitem := h before.length hk id (by simpa [hsplit] using hid)
    simpa [hsplit] using hitem

instance decidableAttributed [DecidableEq ι] (items : List α) :
    Decidable (Attributed caption owner items) :=
  decidable_of_iff _ (attributed_iff_getElem caption owner).symm

end AiSsh.Library
