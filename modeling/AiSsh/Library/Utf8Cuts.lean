import AiSsh.Library.Utf8
import AiSsh.Library.Paging
import Mathlib.Data.String.Basic

/-!
An input in UTF-8 that is cut. Its pieces up to the cut stay what they are, but for a character
that the cut leaves open: it is read again with the bytes that follow. A byte that goes on with
such a character is no piece of its own, and what is read without the character's beginning has
more pieces than what is read with it.
-/

namespace AiSsh.Library.Utf8

theorem toNat_ofNat {n : Nat} (h : n.isValidChar) : (Char.ofNat n).toNat = n := by
  rw [Char.ofNat, dif_pos h]
  rfl

theorem utf8Size_eq (c : Char) : c.utf8Size =
    if c.toNat ≤ 0x7F then 1 else if c.toNat ≤ 0x7FF then 2 else if c.toNat ≤ 0xFFFF then 3
    else 4 := by
  have hle (n : UInt32) : (c.val ≤ n) = (c.toNat ≤ n.toNat) := propext UInt32.le_iff_toNat_le
  simp only [Char.utf8Size, hle]
  rfl

theorem isTail_bounds {b : UInt8} (h : isTail b = true) : 128 ≤ b.toNat ∧ b.toNat ≤ 191 := by
  simp only [isTail, decide_eq_true_eq, UInt8.le_iff_toNat_le, UInt8.reduceToNat] at h
  exact h

theorem isSecond_bounds {a b : UInt8} (h : isSecond a b = true) :
    128 ≤ b.toNat ∧ b.toNat ≤ 191 ∧ (a.toNat = 224 → 160 ≤ b.toNat) ∧
      (a.toNat = 237 → b.toNat ≤ 159) ∧ (a.toNat = 240 → 144 ≤ b.toNat) ∧
      (a.toNat = 244 → b.toNat ≤ 143) := by
  simp only [isSecond, isTail, ← UInt8.toNat_inj, UInt8.le_iff_toNat_le, UInt8.reduceToNat] at h
  split at h
  · rw [decide_eq_true_eq] at h
    omega
  · split at h
    · rw [decide_eq_true_eq] at h
      omega
    · split at h
      · rw [decide_eq_true_eq] at h
        omega
      · split at h
        · rw [decide_eq_true_eq] at h
          omega
        · rw [decide_eq_true_eq] at h
          omega

theorem size_of_toNat {lead value : Nat} {tail : List UInt8} (hvalid : value.isValidChar)
    (hvalue : tail.foldl (fun value b => value * 64 + b.toNat % 64) lead = value) :
    (codePoint lead tail).utf8Size =
      if value ≤ 0x7F then 1 else if value ≤ 0x7FF then 2 else if value ≤ 0xFFFF then 3
      else 4 := by
  rw [utf8Size_eq, codePoint, hvalue, toNat_ofNat hvalid]

theorem size_one {a : UInt8} (ha : a < 0x80) : (codePoint a.toNat []).utf8Size = 1 := by
  have ha : a.toNat < 128 := UInt8.lt_iff_toNat_lt.mp ha
  have hvalid : a.toNat.isValidChar := Or.inl (by omega)
  rw [size_of_toNat hvalid rfl, if_pos (by omega)]

theorem size_two {a b : UInt8} (ha : 0xC2 ≤ a ∧ a ≤ 0xDF) (hb : isTail b = true) :
    (codePoint (a.toNat % 32) [b]).utf8Size = 2 := by
  simp only [UInt8.le_iff_toNat_le, UInt8.reduceToNat] at ha
  have hb := isTail_bounds hb
  have hvalid : (a.toNat % 32 * 64 + b.toNat % 64).isValidChar := Or.inl (by omega)
  rw [size_of_toNat hvalid rfl, if_neg (by omega), if_pos (by omega)]

theorem size_three {a b c : UInt8} (ha : 0xE0 ≤ a ∧ a ≤ 0xEF) (hb : isSecond a b = true)
    (hc : isTail c = true) : (codePoint (a.toNat % 16) [b, c]).utf8Size = 3 := by
  simp only [UInt8.le_iff_toNat_le, UInt8.reduceToNat] at ha
  have hb := isSecond_bounds hb
  have hc := isTail_bounds hc
  have hvalid : (((a.toNat % 16) * 64 + b.toNat % 64) * 64 + c.toNat % 64).isValidChar := by
    rw [Nat.isValidChar]
    omega
  rw [size_of_toNat hvalid rfl, if_neg (by omega), if_neg (by omega), if_pos (by omega)]

theorem size_four {a b c d : UInt8} (ha : 0xF0 ≤ a ∧ a ≤ 0xF4) (hb : isSecond a b = true)
    (hc : isTail c = true) (hd : isTail d = true) :
    (codePoint (a.toNat % 8) [b, c, d]).utf8Size = 4 := by
  simp only [UInt8.le_iff_toNat_le, UInt8.reduceToNat] at ha
  have hb := isSecond_bounds hb
  have hc := isTail_bounds hc
  have hd := isTail_bounds hd
  have hvalid : ((((a.toNat % 8) * 64 + b.toNat % 64) * 64 + c.toNat % 64) * 64 +
      d.toNat % 64).isValidChar := by
    rw [Nat.isValidChar]
    omega
  rw [size_of_toNat hvalid rfl, if_neg (by omega), if_neg (by omega), if_neg (by omega)]

section

variable {a b c d : UInt8} (h80 : ¬a < 0x80)

theorem pieces_ascii (ha : a < 0x80) (rest : List UInt8) :
    pieces (a :: rest) = .char (codePoint a.toNat []) :: pieces rest := by
  rw [pieces.eq_def]
  simp only [ha, if_true]

include h80

theorem pieces_lead_two (ha : 0xC2 ≤ a ∧ a ≤ 0xDF) (b : UInt8) (rest : List UInt8) :
    pieces (a :: b :: rest) =
      if isTail b then .char (codePoint (a.toNat % 32) [b]) :: pieces rest
      else .invalid 1 :: pieces (b :: rest) := by
  rw [pieces.eq_def]
  simp only [h80, ha, and_self, if_true, if_false]

theorem pieces_two (ha : 0xC2 ≤ a ∧ a ≤ 0xDF) (hb : isTail b = true) (rest : List UInt8) :
    pieces (a :: b :: rest) = .char (codePoint (a.toNat % 32) [b]) :: pieces rest := by
  rw [pieces_lead_two h80 ha, if_pos hb]

theorem pieces_two_invalid (ha : 0xC2 ≤ a ∧ a ≤ 0xDF) (hb : ¬isTail b = true)
    (rest : List UInt8) : pieces (a :: b :: rest) = .invalid 1 :: pieces (b :: rest) := by
  rw [pieces_lead_two h80 ha, if_neg hb]

variable (h2 : ¬(0xC2 ≤ a ∧ a ≤ 0xDF))

include h2

theorem pieces_lead_three (ha : 0xE0 ≤ a ∧ a ≤ 0xEF) (b : UInt8) (rest : List UInt8) :
    pieces (a :: b :: rest) =
      if isSecond a b then
        match rest with
        | [] => [.incomplete 2]
        | c :: more =>
            if isTail c then .char (codePoint (a.toNat % 16) [b, c]) :: pieces more
            else .invalid 2 :: pieces (c :: more)
      else .invalid 1 :: pieces (b :: rest) := by
  rw [pieces.eq_def]
  exact (if_neg h80).trans ((if_neg h2).trans (if_pos ha))

theorem pieces_three (ha : 0xE0 ≤ a ∧ a ≤ 0xEF) (hb : isSecond a b = true)
    (hc : isTail c = true) (rest : List UInt8) : pieces (a :: b :: c :: rest) =
      .char (codePoint (a.toNat % 16) [b, c]) :: pieces rest := by
  rw [pieces_lead_three h80 h2 ha, if_pos hb]
  exact if_pos hc

theorem pieces_three_invalid (ha : 0xE0 ≤ a ∧ a ≤ 0xEF) (hb : isSecond a b = true)
    (hc : ¬isTail c = true) (rest : List UInt8) :
    pieces (a :: b :: c :: rest) = .invalid 2 :: pieces (c :: rest) := by
  rw [pieces_lead_three h80 h2 ha, if_pos hb]
  exact if_neg hc

theorem pieces_three_second (ha : 0xE0 ≤ a ∧ a ≤ 0xEF) (hb : ¬isSecond a b = true)
    (rest : List UInt8) : pieces (a :: b :: rest) = .invalid 1 :: pieces (b :: rest) := by
  rw [pieces_lead_three h80 h2 ha, if_neg hb]

variable (h3 : ¬(0xE0 ≤ a ∧ a ≤ 0xEF))

include h3

theorem pieces_lead_four (ha : 0xF0 ≤ a ∧ a ≤ 0xF4) (b : UInt8) (rest : List UInt8) :
    pieces (a :: b :: rest) =
      if isSecond a b then
        match rest with
        | [] => [.incomplete 2]
        | c :: more =>
            if isTail c then
              match more with
              | [] => [.incomplete 3]
              | d :: last =>
                  if isTail d then .char (codePoint (a.toNat % 8) [b, c, d]) :: pieces last
                  else .invalid 3 :: pieces (d :: last)
            else .invalid 2 :: pieces (c :: more)
      else .invalid 1 :: pieces (b :: rest) := by
  rw [pieces.eq_def]
  exact (if_neg h80).trans ((if_neg h2).trans ((if_neg h3).trans (if_pos ha)))

theorem pieces_four (ha : 0xF0 ≤ a ∧ a ≤ 0xF4) (hb : isSecond a b = true)
    (hc : isTail c = true) (hd : isTail d = true) (rest : List UInt8) :
    pieces (a :: b :: c :: d :: rest) =
      .char (codePoint (a.toNat % 8) [b, c, d]) :: pieces rest := by
  rw [pieces_lead_four h80 h2 h3 ha, if_pos hb]
  exact (if_pos hc).trans (if_pos hd)

theorem pieces_four_invalid (ha : 0xF0 ≤ a ∧ a ≤ 0xF4) (hb : isSecond a b = true)
    (hc : isTail c = true) (hd : ¬isTail d = true) (rest : List UInt8) :
    pieces (a :: b :: c :: d :: rest) = .invalid 3 :: pieces (d :: rest) := by
  rw [pieces_lead_four h80 h2 h3 ha, if_pos hb]
  exact (if_pos hc).trans (if_neg hd)

theorem pieces_four_third (ha : 0xF0 ≤ a ∧ a ≤ 0xF4) (hb : isSecond a b = true)
    (hc : ¬isTail c = true) (rest : List UInt8) :
    pieces (a :: b :: c :: rest) = .invalid 2 :: pieces (c :: rest) := by
  rw [pieces_lead_four h80 h2 h3 ha, if_pos hb]
  exact if_neg hc

theorem pieces_four_second (ha : 0xF0 ≤ a ∧ a ≤ 0xF4) (hb : ¬isSecond a b = true)
    (rest : List UInt8) : pieces (a :: b :: rest) = .invalid 1 :: pieces (b :: rest) := by
  rw [pieces_lead_four h80 h2 h3 ha, if_neg hb]

theorem pieces_other (h4 : ¬(0xF0 ≤ a ∧ a ≤ 0xF4)) (rest : List UInt8) :
    pieces (a :: rest) = .invalid 1 :: pieces rest := by
  rw [pieces.eq_def]
  simp only [h80, h2, h3, h4, if_false]

end

def width : Utf8Piece → Nat
  | .char c => c.utf8Size
  | .invalid length | .incomplete length => length

def isChar : Utf8Piece → Bool
  | .char _ => true
  | .invalid _ | .incomplete _ => false

/-- `closed` is what `bytes` are for good, and `tail` are those that may yet become a character. -/
structure Cut (bytes : List UInt8) (closed : List Utf8Piece) (tail : List UInt8) : Prop where
  append : ∀ rest, pieces (bytes ++ rest) = closed ++ pieces (tail ++ rest)
  tail_open : tail = [] ∨ pieces tail = [.incomplete tail.length]
  complete : ∀ length, .incomplete length ∉ closed
  front : (∀ piece ∈ closed, isChar piece = true) →
    ∃ front, bytes = front ++ tail ∧ pieces front = closed ∧ total width closed = front.length

namespace Cut

variable {bytes tail : List UInt8} {closed : List Utf8Piece}

theorem complete_cons {piece : Utf8Piece} (h : Cut bytes closed tail)
    (hpiece : ∀ length, piece ≠ .incomplete length) (length : Nat) :
    .incomplete length ∉ piece :: closed := by
  rw [List.mem_cons, not_or]
  exact ⟨(hpiece length).symm, h.complete length⟩

theorem char (first : List UInt8) {c : Char}
    (hfirst : ∀ rest, pieces (first ++ rest) = .char c :: pieces rest)
    (hsize : c.utf8Size = first.length) (h : Cut bytes closed tail) :
    Cut (first ++ bytes) (.char c :: closed) tail where
  append rest := by rw [List.append_assoc, hfirst, h.append, List.cons_append]
  tail_open := h.tail_open
  complete := h.complete_cons fun _ heq => by cases heq
  front hchars := by
    obtain ⟨front, hbytes, hpieces, htotal⟩ :=
      h.front fun piece hpiece => hchars piece (List.mem_cons_of_mem _ hpiece)
    refine ⟨first ++ front, ?_, ?_, ?_⟩
    · rw [hbytes, List.append_assoc]
    · rw [hfirst, hpieces]
    · rw [total_cons, htotal, List.length_append, width, hsize]

theorem invalid (first : List UInt8) {length : Nat}
    (hfirst : ∀ rest, pieces (first ++ (bytes ++ rest)) = .invalid length :: pieces (bytes ++ rest))
    (h : Cut bytes closed tail) : Cut (first ++ bytes) (.invalid length :: closed) tail where
  append rest := by rw [List.append_assoc, hfirst, h.append, List.cons_append]
  tail_open := h.tail_open
  complete := h.complete_cons fun _ heq => by cases heq
  front hchars := by
    have hfalse := hchars _ List.mem_cons_self
    cases hfalse

theorem all_open (h : pieces bytes = [.incomplete bytes.length]) : Cut bytes [] bytes where
  append rest := rfl
  tail_open := .inr h
  complete _ hmem := by cases hmem
  front _ := ⟨[], rfl, rfl, rfl⟩

theorem nil : Cut [] [] [] where
  append rest := rfl
  tail_open := .inl rfl
  complete _ hmem := by cases hmem
  front _ := ⟨[], rfl, rfl, rfl⟩

end Cut

theorem exists_cut (bytes : List UInt8) : ∃ closed tail, Cut bytes closed tail := by
  fun_induction pieces bytes with
  | case1 => exact ⟨_, _, Cut.nil⟩
  | case2 a rest ha ih =>
      obtain ⟨closed, tail, h⟩ := ih
      exact ⟨_, _, h.char [a] (pieces_ascii ha) (size_one ha)⟩
  | case3 a h80 ha => exact ⟨_, _, Cut.all_open (by simp [pieces, h80, ha])⟩
  | case4 a h80 ha b rest hb ih =>
      obtain ⟨closed, tail, h⟩ := ih
      exact ⟨_, _, h.char [a, b] (pieces_two h80 ha hb) (size_two ha hb)⟩
  | case5 a h80 ha b rest hb ih =>
      obtain ⟨closed, tail, h⟩ := ih
      exact ⟨_, _, h.invalid [a] fun more => pieces_two_invalid h80 ha hb (rest ++ more)⟩
  | case6 a h80 h2 ha => exact ⟨_, _, Cut.all_open (by simp [pieces, h80, h2, ha])⟩
  | case7 a h80 h2 ha b hb => exact ⟨_, _, Cut.all_open (by simp [pieces, h80, h2, ha, hb])⟩
  | case8 a h80 h2 ha b hb c rest hc ih =>
      obtain ⟨closed, tail, h⟩ := ih
      exact ⟨_, _, h.char [a, b, c] (pieces_three h80 h2 ha hb hc) (size_three ha hb hc)⟩
  | case9 a h80 h2 ha b hb c rest hc ih =>
      obtain ⟨closed, tail, h⟩ := ih
      exact ⟨_, _, h.invalid [a, b] fun more =>
        pieces_three_invalid h80 h2 ha hb hc (rest ++ more)⟩
  | case10 a h80 h2 ha b rest hb ih =>
      obtain ⟨closed, tail, h⟩ := ih
      exact ⟨_, _, h.invalid [a] fun more => pieces_three_second h80 h2 ha hb (rest ++ more)⟩
  | case11 a h80 h2 h3 ha => exact ⟨_, _, Cut.all_open (by simp [pieces, h80, h2, h3, ha])⟩
  | case12 a h80 h2 h3 ha b hb =>
      exact ⟨_, _, Cut.all_open (by simp [pieces, h80, h2, h3, ha, hb])⟩
  | case13 a h80 h2 h3 ha b hb c hc =>
      exact ⟨_, _, Cut.all_open (by simp [pieces, h80, h2, h3, ha, hb, hc])⟩
  | case14 a h80 h2 h3 ha b hb c hc d rest hd ih =>
      obtain ⟨closed, tail, h⟩ := ih
      exact ⟨_, _, h.char [a, b, c, d] (pieces_four h80 h2 h3 ha hb hc hd)
        (size_four ha hb hc hd)⟩
  | case15 a h80 h2 h3 ha b hb c hc d rest hd ih =>
      obtain ⟨closed, tail, h⟩ := ih
      exact ⟨_, _, h.invalid [a, b, c] fun more =>
        pieces_four_invalid h80 h2 h3 ha hb hc hd (rest ++ more)⟩
  | case16 a h80 h2 h3 ha b hb c rest hc ih =>
      obtain ⟨closed, tail, h⟩ := ih
      exact ⟨_, _, h.invalid [a, b] fun more =>
        pieces_four_third h80 h2 h3 ha hb hc (rest ++ more)⟩
  | case17 a h80 h2 h3 ha b rest hb ih =>
      obtain ⟨closed, tail, h⟩ := ih
      exact ⟨_, _, h.invalid [a] fun more => pieces_four_second h80 h2 h3 ha hb (rest ++ more)⟩
  | case18 a rest h80 h2 h3 h4 ih =>
      obtain ⟨closed, tail, h⟩ := ih
      exact ⟨_, _, h.invalid [a] fun more => pieces_other h80 h2 h3 h4 (rest ++ more)⟩

/-- A byte that can only go on with a character. -/
theorem pieces_continuation {b : UInt8} (h : 128 ≤ b.toNat ∧ b.toNat ≤ 191)
    (rest : List UInt8) : pieces (b :: rest) = .invalid 1 :: pieces rest := by
  refine pieces_other ?_ ?_ ?_ ?_ rest
  all_goals
    simp only [UInt8.lt_iff_toNat_lt, UInt8.le_iff_toNat_le, UInt8.reduceToNat]
    omega

theorem pieces_second {a b : UInt8} (h : isSecond a b = true) (rest : List UInt8) :
    pieces (b :: rest) = .invalid 1 :: pieces rest := by
  have hb := isSecond_bounds h
  exact pieces_continuation ⟨hb.1, hb.2.1⟩ rest

theorem pieces_tail {b : UInt8} (h : isTail b = true) (rest : List UInt8) :
    pieces (b :: rest) = .invalid 1 :: pieces rest := pieces_continuation (isTail_bounds h) rest

def ClosesOff (tail : List UInt8) (b : UInt8) : Prop :=
  ∀ rest, pieces (tail ++ b :: rest) = .invalid tail.length :: pieces (b :: rest)

/-- Read without the open character the byte begins a piece, read with it the byte does not. -/
def GoesOn (tail : List UInt8) (b : UInt8) : Prop :=
  (pieces (tail ++ [b])).length = 1 ∧
    ∀ rest, (pieces (tail ++ b :: rest)).length ≤ (pieces (b :: rest)).length

/-- The next byte closes an open character off, or goes on with it. -/
theorem open_next {tail : List UInt8} (h : pieces tail = [.incomplete tail.length]) (b : UInt8) :
    ClosesOff tail b ∨ GoesOn tail b := by
  revert h
  fun_cases pieces tail with
  | case1 | case2 | case4 | case5 | case8 | case9 | case10 | case14 | case15 | case16 | case17
  | case18 =>
      intro h
      cases h
  | case3 a h80 ha =>
      intro _
      by_cases hb : isTail b = true
      · refine .inr ⟨by simp [pieces, h80, ha, hb], fun rest => ?_⟩
        rw [List.cons_append, List.nil_append, pieces_two h80 ha hb, pieces_tail hb]
        exact Nat.le_refl _
      · exact .inl (pieces_two_invalid h80 ha hb)
  | case6 a h80 h2 ha =>
      intro _
      by_cases hb : isSecond a b = true
      · refine .inr ⟨by simp [pieces, h80, h2, ha, hb], fun rest => ?_⟩
        rw [List.cons_append, List.nil_append, pieces_second hb, List.length_cons]
        cases rest with
        | nil => simp [pieces, h80, h2, ha, hb]
        | cons c rest =>
            by_cases hc : isTail c = true
            · rw [pieces_three h80 h2 ha hb hc, pieces_tail hc, List.length_cons, List.length_cons]
              omega
            · rw [pieces_three_invalid h80 h2 ha hb hc, List.length_cons]
      · exact .inl (pieces_three_second h80 h2 ha hb)
  | case7 a h80 h2 ha b' hb' =>
      intro _
      by_cases hb : isTail b = true
      · refine .inr ⟨by simp [pieces, h80, h2, ha, hb', hb], fun rest => ?_⟩
        simp only [List.cons_append, List.nil_append]
        rw [pieces_three h80 h2 ha hb' hb, pieces_tail hb]
        exact Nat.le_refl _
      · exact .inl (pieces_three_invalid h80 h2 ha hb' hb)
  | case11 a h80 h2 h3 ha =>
      intro _
      by_cases hb : isSecond a b = true
      · refine .inr ⟨by simp [pieces, h80, h2, h3, ha, hb], fun rest => ?_⟩
        rw [List.cons_append, List.nil_append, pieces_second hb, List.length_cons]
        cases rest with
        | nil => simp [pieces, h80, h2, h3, ha, hb]
        | cons c rest =>
            by_cases hc : isTail c = true
            · rw [pieces_tail hc, List.length_cons]
              cases rest with
              | nil => simp [pieces, h80, h2, h3, ha, hb, hc]
              | cons d rest =>
                  by_cases hd : isTail d = true
                  · rw [pieces_four h80 h2 h3 ha hb hc hd, pieces_tail hd, List.length_cons,
                      List.length_cons]
                    omega
                  · rw [pieces_four_invalid h80 h2 h3 ha hb hc hd, List.length_cons]
                    omega
            · rw [pieces_four_third h80 h2 h3 ha hb hc, List.length_cons]
      · exact .inl (pieces_four_second h80 h2 h3 ha hb)
  | case12 a h80 h2 h3 ha b' hb' =>
      intro _
      by_cases hb : isTail b = true
      · refine .inr ⟨by simp [pieces, h80, h2, h3, ha, hb', hb], fun rest => ?_⟩
        simp only [List.cons_append, List.nil_append]
        rw [pieces_tail hb, List.length_cons]
        cases rest with
        | nil => simp [pieces, h80, h2, h3, ha, hb', hb]
        | cons d rest =>
            by_cases hd : isTail d = true
            · rw [pieces_four h80 h2 h3 ha hb' hb hd, pieces_tail hd, List.length_cons,
                List.length_cons]
              omega
            · rw [pieces_four_invalid h80 h2 h3 ha hb' hb hd, List.length_cons]
      · exact .inl (pieces_four_third h80 h2 h3 ha hb' hb)
  | case13 a h80 h2 h3 ha b' hb' c hc =>
      intro _
      by_cases hb : isTail b = true
      · refine .inr ⟨by simp [pieces, h80, h2, h3, ha, hb', hc, hb], fun rest => ?_⟩
        simp only [List.cons_append, List.nil_append]
        rw [pieces_four h80 h2 h3 ha hb' hc hb, pieces_tail hb]
        exact Nat.le_refl _
      · exact .inl (pieces_four_invalid h80 h2 h3 ha hb' hc hb)

/-- How a lossy reading shows a piece. -/
def shown : Utf8Piece → Char
  | .char c => c
  | .invalid _ | .incomplete _ => replacement

def lossy (bytes : List UInt8) : List Char := (pieces bytes).map shown

theorem decodeLossy_eq (bytes : List UInt8) : decodeLossy bytes = .ofList (lossy bytes) := by
  refine congrArg String.ofList (List.map_congr_left fun piece _ => ?_)
  cases piece with
  | _ => rfl

theorem validate_chars {closed : List Utf8Piece}
    (h : ∀ piece ∈ closed, isChar piece = true) (read : List Char) (n : Nat)
    (rest : List Utf8Piece) : validate read n (closed ++ rest) =
      validate (read ++ closed.map shown) (n + total width closed) rest := by
  induction closed generalizing read n with
  | nil => simp
  | cons piece closed ih =>
      cases piece with
      | char c =>
          rw [List.cons_append, validate, ih fun piece hp => h piece (List.mem_cons_of_mem _ hp)]
          simp [shown, width, Nat.add_assoc]
      | invalid length =>
          have hfalse := h _ List.mem_cons_self
          cases hfalse
      | incomplete length =>
          have hfalse := h _ List.mem_cons_self
          cases hfalse

theorem validate_invalid {closed : List Utf8Piece}
    (hcomplete : ∀ length, .incomplete length ∉ closed)
    (h : ¬∀ piece ∈ closed, isChar piece = true) (read : List Char) (n : Nat)
    (rest : List Utf8Piece) :
    ∃ valid length, validate read n (closed ++ rest) = .error ⟨valid, some length⟩ := by
  induction closed generalizing read n with
  | nil => exact absurd (fun piece hp => by cases hp) h
  | cons piece closed ih =>
      cases piece with
      | char c =>
          refine ih (fun length hmem => hcomplete length (List.mem_cons_of_mem _ hmem)) ?_ _ _
          intro hall
          refine h fun piece hp => ?_
          cases List.mem_cons.mp hp with
          | inl heq =>
              rw [heq]
              rfl
          | inr hp => exact hall piece hp
      | invalid length => exact ⟨n, length, rfl⟩
      | incomplete length => exact absurd List.mem_cons_self (hcomplete length)

namespace Cut

variable {bytes tail : List UInt8} {closed : List Utf8Piece}

theorem pieces_eq (h : Cut bytes closed tail) : pieces bytes = closed ++ pieces tail := by
  have happend := h.append []
  rwa [List.append_nil, List.append_nil] at happend

theorem eq_nil (h : Cut bytes closed tail) (hnil : pieces bytes = []) : bytes = [] := by
  rw [h.pieces_eq, List.append_eq_nil_iff] at hnil
  obtain ⟨hclosed, htail⟩ := hnil
  subst hclosed
  obtain ⟨front, hbytes, -, htotal⟩ := h.front fun piece hp => by cases hp
  have hfront : front = [] := List.length_eq_zero_iff.mp htotal.symm
  cases h.tail_open with
  | inl hempty => rw [hbytes, hfront, hempty]; rfl
  | inr hopen =>
      rw [hopen] at htail
      cases htail

theorem lossy_append (h : Cut bytes closed tail) (rest : List UInt8) :
    lossy (bytes ++ rest) = closed.map shown ++ lossy (tail ++ rest) := by
  rw [lossy, h.append, List.map_append, lossy]

theorem decode_invalid (h : Cut bytes closed tail)
    (hinvalid : ¬∀ piece ∈ closed, isChar piece = true) :
    ∃ valid length, decode bytes = .error ⟨valid, some length⟩ := by
  rw [decode, h.pieces_eq]
  exact validate_invalid h.complete hinvalid [] 0 (pieces tail)

theorem decode_valid (h : Cut bytes closed tail)
    (hchars : ∀ piece ∈ closed, isChar piece = true) :
    tail = [] ∧ decode bytes = .ok (.ofList (closed.map shown)) ∨
      ∃ front, bytes = front ++ tail ∧ decode bytes = .error ⟨front.length, none⟩ ∧
        decode front = .ok (.ofList (closed.map shown)) := by
  obtain ⟨front, hbytes, hfront, htotal⟩ := h.front hchars
  cases h.tail_open with
  | inl hnil =>
      subst hnil
      refine .inl ⟨rfl, ?_⟩
      rw [decode, h.pieces_eq, validate_chars hchars]
      rfl
  | inr hopen =>
      refine .inr ⟨front, hbytes, ?_, ?_⟩
      · rw [decode, h.pieces_eq, validate_chars hchars, hopen, Nat.zero_add, htotal]
        rfl
      · have hvalid := validate_chars hchars [] 0 []
        rw [List.append_nil] at hvalid
        rw [decode, hfront, hvalid]
        rfl

end Cut

theorem pieces_ne_nil (b : UInt8) (rest : List UInt8) : pieces (b :: rest) ≠ [] := by
  obtain ⟨closed, tail, h⟩ := exists_cut (b :: rest)
  intro hnil
  cases h.eq_nil hnil

section Sizes

theorem utf8Len_eq_total (cs : List Char) : String.utf8Len cs = total Char.utf8Size cs := by
  induction cs with
  | nil => rfl
  | cons c cs ih => rw [String.utf8Len_cons, total_cons, ih, Nat.add_comm]

theorem utf8ByteSize_ofList (cs : List Char) :
    (String.ofList cs).utf8ByteSize = total Char.utf8Size cs := by
  rw [String.utf8ByteSize_ofList, utf8Len_eq_total]

theorem utf8ByteSize_eq_total (text : String) :
    text.utf8ByteSize = total Char.utf8Size text.toList := by
  rw [← utf8ByteSize_ofList, String.ofList_toList]

/-- The bytes of the text that a lossy reading makes of a piece. -/
def shownWidth : Utf8Piece → Nat
  | .char c => c.utf8Size
  | .invalid _ | .incomplete _ => 3

theorem utf8ByteSize_decodeLossy (bytes : List UInt8) :
    (decodeLossy bytes).utf8ByteSize = total shownWidth (pieces bytes) := by
  have hreplacement : replacement.utf8Size = 3 := by decide
  have hshown : ∀ piece, (shown piece).utf8Size = shownWidth piece := by
    intro piece
    cases piece with
    | char c => rfl
    | invalid length | incomplete length => exact hreplacement
  rw [decodeLossy_eq, utf8ByteSize_ofList, lossy, total, List.map_map, total]
  exact congrArg List.sum (List.map_congr_left fun piece _ => hshown piece)

/-- A lossy reading of UTF-8 has as many bytes as what it reads. -/
theorem shownWidth_of_decode {bytes : List UInt8} {text : String} (h : decode bytes = .ok text) :
    total shownWidth (pieces bytes) = bytes.length := by
  obtain ⟨closed, tail, hcut⟩ := exists_cut bytes
  by_cases hchars : ∀ piece ∈ closed, isChar piece = true
  · rcases hcut.decode_valid hchars with ⟨rfl, -⟩ | ⟨front, -, herror, -⟩
    · obtain ⟨front, hbytes, hpieces, htotal⟩ := hcut.front hchars
      rw [List.append_nil] at hbytes
      subst hbytes
      rw [hpieces, ← htotal]
      refine congrArg List.sum (List.map_congr_left fun piece hpiece => ?_)
      cases piece with
      | char c => rfl
      | invalid length | incomplete length => cases hchars _ hpiece
    · rw [h] at herror
      cases herror
  · obtain ⟨valid, length, herror⟩ := hcut.decode_invalid hchars
    rw [h] at herror
    cases herror

end Sizes

end AiSsh.Library.Utf8
