import Mathlib.Algebra.GroupWithZero.Nat
import Mathlib.Data.List.Basic

/-!
Numbers as big-endian bytes, and reliable streams of bytes that arrive in chunks of any size. A
read takes from the first chunk only; a read that must fill its buffer goes on until it has, or
ends when the stream does.
-/

namespace AiSsh.Library

/-- The last `width` digits of a number to the base 256. -/
def bigEndian : Nat → Nat → List UInt8
  | 0, _ => []
  | width + 1, n => bigEndian width (n / 256) ++ [UInt8.ofNat n]

def ofBigEndian (bytes : List UInt8) : Nat := bytes.foldl (fun n byte => 256 * n + byte.toNat) 0

@[simp] theorem length_bigEndian (width n : Nat) : (bigEndian width n).length = width := by
  induction width generalizing n with
  | zero => rfl
  | succ width ih => rw [bigEndian, List.length_append, ih, List.length_singleton]

theorem ofBigEndian_bigEndian {width n : Nat} (h : n < 256 ^ width) :
    ofBigEndian (bigEndian width n) = n := by
  induction width generalizing n with
  | zero =>
      rw [Nat.pow_zero, Nat.lt_one_iff] at h
      rw [h]
      rfl
  | succ width ih =>
      have hdiv : n / 256 < 256 ^ width := by
        rw [Nat.div_lt_iff_lt_mul (by omega)]
        rwa [Nat.pow_succ] at h
      have hbyte : (UInt8.ofNat n).toNat = n % 256 := UInt8.toNat_ofNat'
      have hinit := ih hdiv
      rw [ofBigEndian] at hinit
      rw [bigEndian, ofBigEndian, List.foldl_append, hinit]
      simp only [List.foldl_cons, List.foldl_nil, hbyte]
      omega

/-- What a reader is still to get, in the chunks in which it arrives. -/
structure ByteSource where
  chunks : List (List UInt8)
  nonempty : ∀ chunk ∈ chunks, chunk ≠ []

namespace ByteSource

def bytes (s : ByteSource) : List UInt8 := s.chunks.flatten

/-- One read into a buffer of `size` bytes. At the end of the stream it gets nothing. -/
def read (s : ByteSource) (size : Nat) : List UInt8 × ByteSource :=
  match s with
  | ⟨[], _⟩ => ([], s)
  | ⟨chunk :: chunks, h⟩ =>
      if hle : chunk.length ≤ size then
        (chunk, ⟨chunks, fun c hc => h c (List.mem_cons_of_mem _ hc)⟩)
      else
        (chunk.take size, ⟨chunk.drop size :: chunks, fun c hc => by
          cases List.mem_cons.mp hc with
          | inl hdrop =>
              rw [hdrop, ne_eq, List.drop_eq_nil_iff]
              exact hle
          | inr hc => exact h c (List.mem_cons_of_mem _ hc)⟩)

theorem read_bytes (s : ByteSource) (size : Nat) :
    (s.read size).1 ++ (s.read size).2.bytes = s.bytes := by
  obtain ⟨chunks, h⟩ := s
  cases chunks with
  | nil => rfl
  | cons chunk chunks =>
      simp only [read]
      split
      · rfl
      · simp only [bytes, List.flatten_cons, ← List.append_assoc, List.take_append_drop]

theorem read_length (s : ByteSource) (size : Nat) : (s.read size).1.length ≤ size := by
  obtain ⟨chunks, h⟩ := s
  cases chunks with
  | nil => exact Nat.zero_le size
  | cons chunk chunks =>
      simp only [read]
      split
      · assumption
      · exact List.length_take_le size chunk

theorem read_eq_nil {s : ByteSource} {size : Nat} (hsize : 0 < size) (h : (s.read size).1 = []) :
    s.bytes = [] := by
  obtain ⟨chunks, hne⟩ := s
  cases chunks with
  | nil => rfl
  | cons chunk chunks =>
      have hchunk := hne chunk List.mem_cons_self
      simp only [read] at h
      split at h
      · exact absurd h hchunk
      · cases List.take_eq_nil_iff.mp h with
        | inl hzero => omega
        | inr hnil => exact absurd hnil hchunk

/-- Reads until `size` bytes are there; nothing when the stream ends before. -/
def readExact (s : ByteSource) (size : Nat) : Option (List UInt8 × ByteSource) :=
  if _hsize : size = 0 then some ([], s)
  else if _hgot : (s.read size).1 = [] then none
  else ((s.read size).2.readExact (size - (s.read size).1.length)).map fun rest =>
    ((s.read size).1 ++ rest.1, rest.2)
termination_by size
decreasing_by
  have hpos := List.length_pos_iff.mpr _hgot
  omega

theorem readExact_spec (s : ByteSource) (size : Nat) :
    if size ≤ s.bytes.length then
      ∃ rest, s.readExact size = some (s.bytes.take size, rest) ∧ rest.bytes = s.bytes.drop size
    else s.readExact size = none := by
  induction size using Nat.strongRecOn generalizing s with
  | ind size ih =>
      rw [readExact]
      by_cases hsize : size = 0
      · subst hsize
        simp
      · have hbytes := s.read_bytes size
        have hlength := congrArg List.length hbytes
        rw [List.length_append] at hlength
        by_cases hgot : (s.read size).1 = []
        · have hnil := read_eq_nil (Nat.pos_of_ne_zero hsize) hgot
          simp [hsize, hgot, hnil]
        · have hpos := List.length_pos_iff.mpr hgot
          have hle := s.read_length size
          have hrest := ih (size - (s.read size).1.length) (by omega) (s.read size).2
          simp only [hsize, hgot, dite_false]
          by_cases henough : size ≤ s.bytes.length
          · rw [if_pos (by omega)] at hrest
            obtain ⟨rest, hread, hdrop⟩ := hrest
            rw [if_pos henough, hread]
            refine ⟨rest, ?_, ?_⟩
            · rw [Option.map_some, ← hbytes, List.take_append, List.take_of_length_le hle]
            · rw [hdrop, ← hbytes, List.drop_append, List.drop_of_length_le hle, List.nil_append]
          · rw [if_neg (by omega)] at hrest
            rw [if_neg henough, hrest, Option.map_none]

theorem readExact_append {s : ByteSource} {front back : List UInt8} (h : s.bytes = front ++ back) :
    ∃ rest, s.readExact front.length = some (front, rest) ∧ rest.bytes = back := by
  have hspec := s.readExact_spec front.length
  rw [h, if_pos (by rw [List.length_append]; omega), List.take_left, List.drop_left] at hspec
  exact hspec

theorem readExact_of_lt {s : ByteSource} {size : Nat} (h : s.bytes.length < size) :
    s.readExact size = none := by
  have hspec := s.readExact_spec size
  rwa [if_neg (by omega)] at hspec

end ByteSource

end AiSsh.Library
