import Mathlib.Logic.Function.Basic

/-!
A table of files: names, and the numbered files they stand for. A handle is the number of
the file it was opened on, so it goes on writing to that file whatever becomes of the name.
A file has one name at most.
-/

namespace AiSsh.Library

universe u v

variable {P : Type u} {β : Type v}

structure FileTable (P : Type u) (β : Type v) where
  names : P → Option Nat
  contents : Nat → List β
  next : Nat
  fresh : ∀ p i, names p = some i → i < next
  unlinked : ∀ p q i, names p = some i → names q = some i → p = q

namespace FileTable

def empty : FileTable P β where
  names _ := none
  contents _ := []
  next := 0
  fresh := nofun
  unlinked := nofun

def read (t : FileTable P β) (p : P) : Option (List β) := (t.names p).map t.contents

def setContents (t : FileTable P β) (i : Nat) (content : List β) : FileTable P β :=
  { t with contents := Function.update t.contents i content }

/-- The file that creating `p` opens. -/
def created (t : FileTable P β) (p : P) : Nat := (t.names p).getD t.next

theorem created_name {t : FileTable P β} {p q : P} (h : t.names q = some (t.created p)) :
    q = p := by
  rw [created] at h
  cases hp : t.names p with
  | none =>
      rw [hp] at h
      exact absurd (t.fresh q _ h) (Nat.lt_irrefl _)
  | some j =>
      rw [hp] at h
      exact t.unlinked q p j h hp

section Names

variable [DecidableEq P]

def allocate (t : FileTable P β) (p : P) : FileTable P β where
  names := Function.update t.names p (some t.next)
  contents := Function.update t.contents t.next []
  next := t.next + 1
  fresh := by
    intro q i hq
    by_cases h : q = p
    · rw [h, Function.update_self, Option.some.injEq] at hq
      omega
    · rw [Function.update_of_ne h] at hq
      exact Nat.lt_succ_of_lt (t.fresh q i hq)
  unlinked := by
    intro q r i hq hr
    by_cases hqp : q = p
    · rw [hqp, Function.update_self, Option.some.injEq] at hq
      by_cases hrp : r = p
      · rw [hqp, hrp]
      · rw [Function.update_of_ne hrp] at hr
        have := t.fresh r i hr
        omega
    · rw [Function.update_of_ne hqp] at hq
      by_cases hrp : r = p
      · rw [hrp, Function.update_self, Option.some.injEq] at hr
        have := t.fresh q i hq
        omega
      · rw [Function.update_of_ne hrp] at hr
        exact t.unlinked q r i hq hr

/-- Creating an existing file truncates it. -/
def create (t : FileTable P β) (p : P) : FileTable P β :=
  match t.names p with
  | some i => t.setContents i []
  | none => t.allocate p

def remove (t : FileTable P β) (p : P) : FileTable P β where
  names := Function.update t.names p none
  contents := t.contents
  next := t.next
  fresh := by
    intro q i hq
    by_cases h : q = p
    · simp [h] at hq
    · rw [Function.update_of_ne h] at hq
      exact t.fresh q i hq
  unlinked := by
    intro q r i hq hr
    by_cases hqp : q = p
    · simp [hqp] at hq
    · by_cases hrp : r = p
      · simp [hrp] at hr
      · rw [Function.update_of_ne hqp] at hq
        rw [Function.update_of_ne hrp] at hr
        exact t.unlinked q r i hq hr

/-- The file of `source` under the name `target`, whose own file loses its name. -/
def rename (t : FileTable P β) (source target : P) : FileTable P β where
  names p := if p = target then t.names source else if p = source then none else t.names p
  contents := t.contents
  next := t.next
  fresh := by
    intro p i hp
    split at hp
    · exact t.fresh source i hp
    · split at hp
      · cases hp
      · exact t.fresh p i hp
  unlinked := by
    intro p q i hp hq
    split at hp
    · rename_i hptarget
      split at hq
      · rename_i hqtarget
        rw [hptarget, hqtarget]
      · split at hq
        · cases hq
        · rename_i hqsource
          exact absurd (t.unlinked q source i hq hp) hqsource
    · split at hp
      · cases hp
      · rename_i hpsource
        split at hq
        · exact absurd (t.unlinked p source i hp hq) hpsource
        · split at hq
          · cases hq
          · exact t.unlinked p q i hp hq

end Names

/-- What a file holds once `data` is written at `offset`; a gap is filled up. -/
def splice [Inhabited β] (content : List β) (offset : Nat) (data : List β) : List β :=
  content.take offset ++ List.replicate (offset - content.length) default ++ data ++
    content.drop (offset + data.length)

def writeAt [Inhabited β] (t : FileTable P β) (i offset : Nat) (data : List β) : FileTable P β :=
  t.setContents i (splice (t.contents i) offset data)

theorem splice_end [Inhabited β] (content data : List β) :
    splice content content.length data = content ++ data := by
  simp [splice]

/-- The file `i` holds `content`, it has no name but `p`, and `p` is no other file's name. -/
structure Held (t : FileTable P β) (p : P) (i : Nat) (content : List β) : Prop where
  below : i < t.next
  name : ∀ q, t.names q = some i → q = p
  only : ∀ j, t.names p = some j → j = i
  content : t.contents i = content

section Held

variable {t : FileTable P β} {p q : P} {i : Nat} {content : List β}

/-- What a held file's name reads as. -/
theorem Held.read_eq (h : t.Held p i content) (hp : (t.names p).isSome) :
    t.read p = some content := by
  obtain ⟨j, hj⟩ := Option.isSome_iff_exists.mp hp
  rw [FileTable.read, hj, h.only j hj, Option.map_some, h.content]

/-- Writing to a held file is seen under its name only. -/
theorem Held.read_setContents (h : t.Held p i content) (hne : q ≠ p) (content' : List β) :
    (t.setContents i content').read q = t.read q := by
  simp only [read, setContents]
  cases hq : t.names q with
  | none => rfl
  | some j =>
      have hji : j ≠ i := by
        intro heq
        exact hne (h.name q (heq ▸ hq))
      simp [Function.update_of_ne hji]

theorem Held.writeAt [Inhabited β] (h : t.Held p i content) (data : List β) :
    (t.writeAt i content.length data).Held p i (content ++ data) where
  below := h.below
  name := h.name
  only := h.only
  content := by
    show Function.update t.contents i _ i = _
    rw [Function.update_self, h.content, splice_end]

variable [DecidableEq P]

theorem names_create (t : FileTable P β) (p : P) :
    (t.create p).names = Function.update t.names p (some (t.created p)) := by
  rw [create, created]
  cases h : t.names p with
  | none => rfl
  | some j => exact (Function.update_eq_self_iff.mpr h.symm).symm

theorem contents_create (t : FileTable P β) (p : P) :
    (t.create p).contents = Function.update t.contents (t.created p) [] := by
  rw [create, created]
  cases h : t.names p <;> rfl

theorem created_lt (t : FileTable P β) (p : P) : t.created p < (t.create p).next := by
  rw [create, created]
  cases h : t.names p with
  | none => exact Nat.lt_succ_self _
  | some j => exact t.fresh p j h

theorem held_create (t : FileTable P β) (p : P) : (t.create p).Held p (t.created p) [] where
  below := t.created_lt p
  name := by
    intro q hq
    rw [names_create] at hq
    by_contra hne
    rw [Function.update_of_ne hne] at hq
    exact hne (created_name hq)
  only := by
    intro j hj
    rw [names_create, Function.update_self, Option.some.injEq] at hj
    exact hj.symm
  content := by rw [contents_create, Function.update_self]

theorem read_create (t : FileTable P β) (hne : q ≠ p) : (t.create p).read q = t.read q := by
  simp only [read]
  rw [names_create, contents_create, Function.update_of_ne hne]
  cases hq : t.names q with
  | none => rfl
  | some j =>
      have hj : j ≠ t.created p := by
        intro heq
        exact hne (created_name (heq ▸ hq))
      simp [Function.update_of_ne hj]

theorem read_remove (t : FileTable P β) (hne : q ≠ p) : (t.remove p).read q = t.read q := by
  simp [read, remove, Function.update_of_ne hne]

theorem Held.remove (h : t.Held p i content) : (t.remove p).Held p i content where
  below := h.below
  name := by
    intro q hq
    by_contra hne
    change Function.update t.names p none q = some i at hq
    rw [Function.update_of_ne hne] at hq
    exact hne (h.name q hq)
  only := by simp [FileTable.remove]
  content := h.content

theorem names_rename_target (t : FileTable P β) (source target : P) :
    (t.rename source target).names target = t.names source := by
  simp [rename]

theorem read_rename_target (t : FileTable P β) (source target : P) :
    (t.rename source target).read target = t.read source := by
  simp [read, rename]

end Held

end FileTable
end AiSsh.Library
