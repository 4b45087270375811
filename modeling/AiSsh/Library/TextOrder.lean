import Mathlib.Algebra.GroupWithZero.Nat
import Mathlib.Data.List.Lex
import Mathlib.Order.Monotone.Defs

/-!
Numbers written in fixed width, and the order of such texts. A text that is put together
field by field, from the field that weighs most to the one that weighs least, orders like the
number it is put together from.
-/

namespace AiSsh.Library

section Lists

variable {α : Type} [LT α]

theorem append_lt_of_lt {a b : List α} (hlength : a.length = b.length) (h : a < b)
    (x y : List α) : a ++ x < b ++ y := by
  induction a generalizing b with
  | nil =>
      cases b with
      | nil => exact absurd h (List.not_lt_nil _)
      | cons c b => cases hlength
  | cons c a ih =>
      cases b with
      | nil => cases hlength
      | cons d b =>
          rw [List.cons_append, List.cons_append, List.cons_lt_cons_iff]
          rw [List.cons_lt_cons_iff] at h
          exact h.imp_right fun ⟨hsame, hrest⟩ => ⟨hsame, ih (Nat.succ.inj hlength) hrest⟩

end Lists

/-- `f` writes the numbers below `bound` in their order. -/
def WritesBelow (bound : Nat) (f : Nat → List Char) : Prop :=
  ∀ m n, m < n → n < bound → f m < f n

/-- All texts of `f` below `bound` are of this length. -/
def Wide (bound width : Nat) (f : Nat → List Char) : Prop := ∀ n < bound, (f n).length = width

def digit (d : Nat) : Char := .ofNat (48 + d % 10)

/-- A number in decimal, in this many digits. -/
def padded : Nat → Nat → List Char
  | 0, _ => []
  | width + 1, n => padded width (n / 10) ++ [digit n]

theorem digit_lt {d e : Nat} (h : d % 10 < e % 10) : digit d < digit e := by
  have hall : ∀ a < 10, ∀ b < 10, a < b → Char.ofNat (48 + a) < Char.ofNat (48 + b) := by decide
  exact hall _ (Nat.mod_lt _ (by omega)) _ (Nat.mod_lt _ (by omega)) h

@[simp] theorem length_padded (width n : Nat) : (padded width n).length = width := by
  induction width generalizing n with
  | zero => rfl
  | succ width ih => rw [padded, List.length_append, ih, List.length_singleton]

theorem wide_padded (bound width : Nat) : Wide bound width (padded width) :=
  fun n _ => length_padded width n

theorem writes_padded (width : Nat) : WritesBelow (10 ^ width) (padded width) := by
  induction width with
  | zero =>
      intro m n hlt hn
      simp only [Nat.pow_zero] at hn
      omega
  | succ width ih =>
      intro m n hlt hn
      have hwidth : n / 10 < 10 ^ width := by
        rw [Nat.div_lt_iff_lt_mul (by omega)]
        rwa [Nat.pow_succ] at hn
      rw [padded, padded]
      cases Nat.lt_or_ge (m / 10) (n / 10) with
      | inl hless =>
          exact append_lt_of_lt (by simp) (ih _ _ hless hwidth) _ _
      | inr hge =>
          have hsame : m / 10 = n / 10 := by omega
          rw [hsame]
          refine List.append_left_lt (List.cons_lt_cons_iff.mpr (.inl (digit_lt ?_)))
          omega

/-- Two groups of digits. -/
theorem padded_add (front back n : Nat) :
    padded (front + back) n = padded front (n / 10 ^ back) ++ padded back (n % 10 ^ back) := by
  induction back generalizing n with
  | zero => simp [padded]
  | succ back ih =>
      have hdiv : n / 10 / 10 ^ back = n / 10 ^ (back + 1) := by
        rw [Nat.div_div_eq_div_mul, Nat.pow_succ']
      have hmod : n / 10 % 10 ^ back = n % 10 ^ (back + 1) / 10 := by
        rw [Nat.pow_succ', Nat.mod_mul_right_div_self]
      have hlast : digit (n % 10 ^ (back + 1)) = digit n := by
        rw [digit, digit, Nat.pow_succ', Nat.mod_mul_right_mod]
      rw [← Nat.add_assoc, padded, padded, ih, hdiv, hmod, hlast, List.append_assoc]

/-- A text of the whole, then a text of the rest. -/
theorem WritesBelow.pair {whole unit width : Nat} {f g : Nat → List Char}
    (hf : WritesBelow whole f) (hwide : Wide whole width f) (hg : WritesBelow unit g)
    (hunit : 0 < unit) :
    WritesBelow (whole * unit) fun n => f (n / unit) ++ g (n % unit) := by
  intro m n hlt hn
  have hwhole : n / unit < whole := (Nat.div_lt_iff_lt_mul hunit).mpr hn
  have hle : m / unit ≤ n / unit := Nat.div_le_div_right (Nat.le_of_lt hlt)
  cases Nat.lt_or_ge (m / unit) (n / unit) with
  | inl hless =>
      exact append_lt_of_lt ((hwide _ (Nat.lt_trans hless hwhole)).trans (hwide _ hwhole).symm)
        (hf _ _ hless hwhole) _ _
  | inr hge =>
      have hsame : m / unit = n / unit := Nat.le_antisymm hle hge
      show f (m / unit) ++ g (m % unit) < f (n / unit) ++ g (n % unit)
      rw [hsame]
      refine List.append_left_lt (hg _ _ ?_ (Nat.mod_lt _ hunit))
      have hm := Nat.div_add_mod m unit
      have hn' := Nat.div_add_mod n unit
      rw [hsame] at hm
      omega

/-- As `pair`, for parts of any sizes: the part of `n` starts at `start (part n)`. -/
theorem WritesBelow.parts {whole bound width : Nat} {start part : Nat → Nat}
    {f : Nat → List Char} {g : Nat → Nat → List Char} (hstart : Monotone start)
    (hpart : ∀ n < bound, start (part n) ≤ n ∧ n < start (part n + 1))
    (hwhole : ∀ n < bound, part n < whole) (hf : WritesBelow whole f) (hwide : Wide whole width f)
    (hg : ∀ k < whole, WritesBelow (start (k + 1) - start k) (g k)) :
    WritesBelow bound fun n => f (part n) ++ g (part n) (n - start (part n)) := by
  intro m n hlt hn
  have hm : m < bound := Nat.lt_trans hlt hn
  obtain ⟨hmstart, hmend⟩ := hpart m hm
  obtain ⟨hnstart, hnend⟩ := hpart n hn
  cases Nat.lt_trichotomy (part m) (part n) with
  | inl hless =>
      exact append_lt_of_lt ((hwide _ (hwhole m hm)).trans (hwide _ (hwhole n hn)).symm)
        (hf _ _ hless (hwhole n hn)) _ _
  | inr hge =>
      cases hge with
      | inl hsame =>
          show f (part m) ++ g (part m) (m - start (part m)) <
            f (part n) ++ g (part n) (n - start (part n))
          rw [hsame] at hmstart ⊢
          exact List.append_left_lt (hg _ (hwhole n hn) _ _ (by omega) (by omega))
      | inr hgreater =>
          have hback := hstart (show part n + 1 ≤ part m from hgreater)
          omega

/-- A fixed text in front. -/
theorem WritesBelow.after {bound : Nat} {f : Nat → List Char} (hf : WritesBelow bound f)
    (front : List Char) : WritesBelow bound fun n => front ++ f n :=
  fun m n hlt hn => List.append_left_lt (hf m n hlt hn)

theorem WritesBelow.mono {bound bound' : Nat} {f : Nat → List Char} (hf : WritesBelow bound f)
    (hle : bound' ≤ bound) : WritesBelow bound' f :=
  fun m n hlt hn => hf m n hlt (Nat.lt_of_lt_of_le hn hle)

/-- A fraction in groups of three digits, up to the last group that is not zero, and what
follows it. -/
def trimmed (suffix : List Char) : Nat → Nat → List Char
  | 0, _ => suffix
  | groups + 1, n =>
      if n = 0 then suffix
      else padded 3 (n / 1000 ^ groups) ++ trimmed suffix groups (n % 1000 ^ groups)

theorem exists_padded_cons (width n : Nat) :
    ∃ d rest, padded (width + 1) n = digit d :: rest := by
  induction width generalizing n with
  | zero => exact ⟨n, [], rfl⟩
  | succ width ih =>
      obtain ⟨d, rest, h⟩ := ih (n / 10)
      exact ⟨d, rest ++ [digit n], by rw [padded, h, List.cons_append]⟩

theorem zero_le_digit (d : Nat) : '0' ≤ digit d := by
  have hall : ∀ a < 10, '0' ≤ Char.ofNat (48 + a) := by decide
  exact hall _ (Nat.mod_lt _ (by omega))

/-- What follows a number comes before all digits, so that the shorter fraction is the
smaller one. -/
theorem writes_trimmed {c : Char} {rest : List Char} (hc : c < '0') (groups : Nat) :
    WritesBelow (1000 ^ groups) (trimmed (c :: rest) groups) := by
  induction groups with
  | zero =>
      intro m n hlt hn
      rw [Nat.pow_zero] at hn
      omega
  | succ groups ih =>
      intro m n hlt hn
      have hn0 : n ≠ 0 := by omega
      rw [trimmed, trimmed, if_neg hn0]
      split
      · obtain ⟨d, digits, hdigits⟩ := exists_padded_cons 2 (n / 1000 ^ groups)
        rw [hdigits, List.cons_append, List.cons_lt_cons_iff]
        exact .inl (UInt32.lt_of_lt_of_le hc (zero_le_digit d))
      · rw [Nat.pow_succ'] at hn
        have hpair := (writes_padded 3).pair (wide_padded _ 3) ih (Nat.pow_pos (by omega))
        exact hpair m n hlt hn

section Bytes

/-- The bytes of a text, as a database compares them. -/
def textBytes (text : String) : List UInt8 := text.toList.flatMap String.utf8EncodeChar

def Ascii (chars : List Char) : Prop := ∀ c ∈ chars, c.toNat < 128

instance decidableAscii (chars : List Char) : Decidable (Ascii chars) :=
  List.decidableBAll (fun c : Char => c.toNat < 128) chars

theorem utf8EncodeChar_of_lt {c : Char} (hc : c.toNat < 128) :
    String.utf8EncodeChar c = [c.val.toUInt8] := by
  have hle : c.val.toNat ≤ 127 := Nat.le_of_lt_succ hc
  simp only [String.utf8EncodeChar, hle, if_true]
  rfl

theorem textBytes_ofList {chars : List Char} (h : Ascii chars) :
    textBytes (.ofList chars) = chars.map fun c => c.val.toUInt8 := by
  rw [textBytes, String.toList_ofList]
  induction chars with
  | nil => rfl
  | cons c chars ih =>
      rw [List.flatMap_cons, utf8EncodeChar_of_lt (h c List.mem_cons_self),
        ih fun d hd => h d (List.mem_cons_of_mem _ hd)]
      rfl

/-- Texts of ASCII characters compare alike as texts and as bytes. -/
theorem textBytes_lt {a b : List Char} (ha : Ascii a) (hb : Ascii b) (h : a < b) :
    textBytes (.ofList a) < textBytes (.ofList b) := by
  rw [textBytes_ofList ha, textBytes_ofList hb]
  induction a generalizing b with
  | nil =>
      cases b with
      | nil => exact absurd h (List.not_lt_nil _)
      | cons d b => exact List.nil_lt_cons _ _
  | cons c a ih =>
      cases b with
      | nil => exact absurd h (List.not_lt_nil _)
      | cons d b =>
          have hc : c.val.toNat < 128 := ha c List.mem_cons_self
          have hd : d.val.toNat < 128 := hb d List.mem_cons_self
          rw [List.map_cons, List.map_cons, List.cons_lt_cons_iff]
          rw [List.cons_lt_cons_iff] at h
          cases h with
          | inl hless =>
              refine .inl ?_
              rw [UInt8.lt_iff_toNat_lt]
              have hless : c.val.toNat < d.val.toNat := hless
              simp only [UInt32.toNat_toUInt8]
              omega
          | inr hrest =>
              obtain ⟨rfl, hrest⟩ := hrest
              exact .inr ⟨rfl, ih (fun x hx => ha x (List.mem_cons_of_mem _ hx))
                (fun x hx => hb x (List.mem_cons_of_mem _ hx)) hrest⟩

theorem Ascii.append {a b : List Char} (ha : Ascii a) (hb : Ascii b) : Ascii (a ++ b) :=
  List.forall_mem_append.mpr ⟨ha, hb⟩

theorem Ascii.cons {c : Char} {a : List Char} (hc : c.toNat < 128) (ha : Ascii a) :
    Ascii (c :: a) :=
  List.forall_mem_cons.mpr ⟨hc, ha⟩

theorem ascii_padded (width n : Nat) : Ascii (padded width n) := by
  have hall : ∀ a < 10, (Char.ofNat (48 + a)).toNat < 128 := by decide
  induction width generalizing n with
  | zero => exact List.forall_mem_nil _
  | succ width ih =>
      refine (ih (n / 10)).append (List.forall_mem_singleton.mpr ?_)
      exact hall _ (Nat.mod_lt _ (by omega))

end Bytes

end AiSsh.Library
