import Mathlib.Data.List.Basic

/-!
Chunks of a stream that are kept as long as there is room for them: a chunk that does not fit is
dropped whole, and a later one may still fit. What is kept is the beginning of the stream exactly
if the chunks that fit after the first dropped one repeat its bytes.
-/

namespace AiSsh.Library.FirstFit

universe u

variable {α : Type u}

def kept : Nat → List (List α) → List α
  | _, [] => []
  | room, chunk :: chunks =>
      if chunk.length ≤ room then chunk ++ kept (room - chunk.length) chunks
      else kept room chunks

/-- The chunks that fit spell the beginning of `dropped`, one after the other. -/
def Repeats : Nat → List α → List (List α) → Prop
  | _, _, [] => True
  | room, dropped, chunk :: chunks =>
      if chunk.length ≤ room then
        chunk <+: dropped ∧ Repeats (room - chunk.length) (dropped.drop chunk.length) chunks
      else Repeats room dropped chunks

/-- The chunks that fit after the first one that does not repeat its beginning. -/
def Contiguous : Nat → List (List α) → Prop
  | _, [] => True
  | room, chunk :: chunks =>
      if chunk.length ≤ room then Contiguous (room - chunk.length) chunks
      else Repeats room chunk chunks

theorem length_kept_le (room : Nat) (chunks : List (List α)) :
    (kept room chunks).length ≤ room := by
  induction chunks generalizing room with
  | nil => exact Nat.zero_le room
  | cons chunk chunks ih =>
      rw [kept]
      split
      · have hrest := ih (room - chunk.length)
        rw [List.length_append]
        omega
      · exact ih room

theorem kept_eq_flatten {room : Nat} {chunks : List (List α)}
    (h : chunks.flatten.length ≤ room) : kept room chunks = chunks.flatten := by
  induction chunks generalizing room with
  | nil => rfl
  | cons chunk chunks ih =>
      rw [List.flatten_cons, List.length_append] at h
      rw [kept, if_pos (by omega), List.flatten_cons, ih (by omega)]

/-- All is kept exactly if there is room for all. -/
theorem kept_eq_flatten_iff {room : Nat} {chunks : List (List α)} :
    kept room chunks = chunks.flatten ↔ chunks.flatten.length ≤ room :=
  ⟨fun h => h ▸ length_kept_le room chunks, kept_eq_flatten⟩

theorem kept_append (room : Nat) (xs ys : List (List α)) :
    kept room (xs ++ ys) = kept room xs ++ kept (room - (kept room xs).length) ys := by
  induction xs generalizing room with
  | nil => rfl
  | cons chunk xs ih =>
      rw [List.cons_append, kept, kept]
      split
      · rw [ih, List.append_assoc, List.length_append, Nat.sub_add_eq]
      · exact ih room

/-- One chunk under a limit on the whole. -/
theorem append_kept_singleton (limit : Nat) (before chunk : List α) :
    before ++ kept (limit - before.length) [chunk] =
      if limit < before.length + chunk.length then before else before ++ chunk := by
  simp only [kept, List.append_nil]
  by_cases hover : limit < before.length + chunk.length
  · rw [if_pos hover]
    split
    · have hempty : chunk = [] := List.length_eq_zero_iff.mp (by omega)
      rw [hempty, List.append_nil]
    · exact List.append_nil before
  · rw [if_neg hover, if_pos (by omega)]

/-- A loop that keeps the chunks of one stream in a part of its state, while there is room. -/
theorem foldl_kept {σ ε : Type u} {step : σ → ε → σ} {part : σ → List α}
    {chunk : ε → Option (List α)} {limit : Nat}
    (hstep : ∀ s e, part (step s e) =
      part s ++ kept (limit - (part s).length) (chunk e).toList) (s : σ) (es : List ε) :
    part (es.foldl step s) = part s ++ kept (limit - (part s).length) (es.filterMap chunk) := by
  induction es generalizing s with
  | nil => exact (List.append_nil _).symm
  | cons e es ih =>
      have hcons : (e :: es).filterMap chunk = (chunk e).toList ++ es.filterMap chunk := by
        cases h : chunk e <;> simp [h]
      rw [List.foldl_cons, ih, hcons, kept_append, hstep, List.append_assoc, List.length_append,
        Nat.sub_add_eq]

theorem append_prefix_iff {a b whole : List α} (h : a.length ≤ whole.length) (rest : List α) :
    a ++ b <+: whole ++ rest ↔ a <+: whole ∧ b <+: whole.drop a.length ++ rest := by
  constructor
  · intro hab
    have ha : a <+: whole :=
      List.prefix_of_prefix_length_le ((List.prefix_append a b).trans hab)
        (List.prefix_append whole rest) h
    refine ⟨ha, ?_⟩
    obtain ⟨tail, rfl⟩ := ha
    rw [List.drop_left]
    exact (List.prefix_append_right_inj a).mp (by rwa [List.append_assoc] at hab)
  · rintro ⟨⟨tail, rfl⟩, hb⟩
    rw [List.drop_left] at hb
    rw [List.append_assoc]
    exact (List.prefix_append_right_inj a).mpr hb

theorem kept_prefix_iff_repeats {room : Nat} {dropped : List α} (chunks : List (List α))
    (hroom : room ≤ dropped.length) (rest : List α) :
    kept room chunks <+: dropped ++ rest ↔ Repeats room dropped chunks := by
  induction chunks generalizing room dropped with
  | nil => exact iff_of_true (List.nil_prefix) trivial
  | cons chunk chunks ih =>
      rw [kept, Repeats]
      split
      · rename_i hfits
        have hleft : room - chunk.length ≤ (dropped.drop chunk.length).length := by
          rw [List.length_drop]
          omega
        rw [append_prefix_iff (Nat.le_trans hfits hroom), ih hleft]
      · exact ih hroom

/-- What is kept is the beginning of the stream exactly if it is contiguous. -/
theorem kept_prefix_iff (room : Nat) (chunks : List (List α)) :
    kept room chunks <+: chunks.flatten ↔ Contiguous room chunks := by
  induction chunks generalizing room with
  | nil => exact iff_of_true (List.nil_prefix) trivial
  | cons chunk chunks ih =>
      rw [kept, Contiguous, List.flatten_cons]
      split
      · rw [List.prefix_append_right_inj, ih]
      · rename_i hover
        exact kept_prefix_iff_repeats chunks (by omega) chunks.flatten

end AiSsh.Library.FirstFit
