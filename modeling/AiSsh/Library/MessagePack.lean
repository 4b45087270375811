import AiSsh.Library.Paging
import Mathlib.Algebra.Order.Ring.Nat

/-!
Sizes of MessagePack encodings. An integer takes the fewest bytes that hold it; texts,
byte strings, arrays and maps begin with a header whose size depends on their length; a
record is a map from the names of its fields.
-/

namespace AiSsh.Library.MessagePack

universe u

variable {α : Type u}

def uint (n : Nat) : Nat :=
  if n < 2 ^ 7 then 1 else if n < 2 ^ 8 then 2 else if n < 2 ^ 16 then 3
  else if n < 2 ^ 32 then 5 else 9

def bool : Nat := 1

def nil : Nat := 1

/-- A text of `bytes` bytes. -/
def textBytes (bytes : Nat) : Nat :=
  (if bytes < 2 ^ 5 then 1 else if bytes < 2 ^ 8 then 2 else if bytes < 2 ^ 16 then 3 else 5) +
    bytes

def text (s : String) : Nat := textBytes s.utf8ByteSize

/-- A byte string. -/
def bin (bytes : Nat) : Nat :=
  (if bytes < 2 ^ 8 then 2 else if bytes < 2 ^ 16 then 3 else 5) + bytes

/-- The header of an array or of a map. -/
def header (length : Nat) : Nat :=
  if length < 2 ^ 4 then 1 else if length < 2 ^ 16 then 3 else 5

def option (size : α → Nat) : Option α → Nat
  | none => nil
  | some a => size a

def array (size : α → Nat) (items : List α) : Nat := header items.length + total size items

/-- A record, by the names and the sizes of its fields. -/
def record (fields : List (String × Nat)) : Nat :=
  header fields.length + total (fun field => text field.1 + field.2) fields

theorem uint_mono {m n : Nat} (h : m ≤ n) : uint m ≤ uint n := by
  simp only [uint]
  split_ifs <;> omega

theorem header_mono {m n : Nat} (h : m ≤ n) : header m ≤ header n := by
  simp only [header]
  split_ifs <;> omega

theorem one_le_uint (n : Nat) : 1 ≤ uint n := by
  rw [uint]
  split_ifs <;> omega

theorem one_le_text (s : String) : 1 ≤ text s := by
  rw [text, textBytes]
  split_ifs <;> omega

theorem two_le_bin (bytes : Nat) : 2 ≤ bin bytes := by
  rw [bin]
  split_ifs <;> omega

theorem total_le_of_subperm {size : α → Nat} {xs ys : List α} (h : List.Subperm xs ys) :
    total size xs ≤ total size ys := by
  obtain ⟨zs, hperm, hsub⟩ := h
  rw [total, ← (hperm.map size).sum_eq]
  exact (hsub.map size).sum_le_sum fun _ _ => Nat.zero_le _

theorem array_le_of_subperm {size : α → Nat} {xs ys : List α} (h : List.Subperm xs ys) :
    array size xs ≤ array size ys :=
  Nat.add_le_add (header_mono h.length_le) (total_le_of_subperm h)

theorem array_perm {size : α → Nat} {xs ys : List α} (h : xs.Perm ys) :
    array size xs = array size ys := by
  rw [array, array, h.length_eq, total, total, (h.map size).sum_eq]

theorem mul_le_total {size : α → Nat} {items : List α} {least : Nat}
    (h : ∀ x ∈ items, least ≤ size x) : items.length * least ≤ total size items := by
  induction items with
  | nil => simp
  | cons x items ih =>
      have hfirst := h x List.mem_cons_self
      have hrest := ih fun y hy => h y (List.mem_cons_of_mem _ hy)
      rw [List.length_cons, Nat.succ_mul, total_cons]
      omega

/-- An array takes at least what its items take. -/
theorem mul_le_array {size : α → Nat} {items : List α} {least : Nat}
    (h : ∀ x ∈ items, least ≤ size x) : items.length * least ≤ array size items :=
  (mul_le_total h).trans (Nat.le_add_left _ _)

end AiSsh.Library.MessagePack
