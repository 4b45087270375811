import Mathlib.Data.List.Basic

/-!
Transducers: machines that read a list element by element and emit a list for each element. What
they emit does not depend on how the input is cut into chunks, when the state is carried from one
chunk to the next.
-/

namespace AiSsh.Library

universe u v w x

structure Transducer (σ : Type u) (α : Type v) (β : Type w) where
  next : σ → α → σ
  emit : σ → α → List β

namespace Transducer

variable {σ : Type u} {α : Type v} {β : Type w} (M : Transducer σ α β)

def last (s : σ) (xs : List α) : σ := xs.foldl M.next s

def output : σ → List α → List β
  | _, [] => []
  | s, x :: xs => M.emit s x ++ output (M.next s x) xs

theorem last_append (s : σ) (xs ys : List α) :
    M.last s (xs ++ ys) = M.last (M.last s xs) ys := List.foldl_append

theorem output_append (s : σ) (xs ys : List α) :
    M.output s (xs ++ ys) = M.output s xs ++ M.output (M.last s xs) ys := by
  induction xs generalizing s with
  | nil => rfl
  | cons x xs ih =>
      rw [List.cons_append, output, output, ih, List.append_assoc]
      rfl

/-- The output of the chunks, and the state after them. -/
def chunked : σ → List (List α) → List β × σ
  | s, [] => ([], s)
  | s, chunk :: chunks =>
      let rest := chunked (M.last s chunk) chunks
      (M.output s chunk ++ rest.1, rest.2)

theorem chunked_eq (s : σ) (chunks : List (List α)) :
    M.chunked s chunks = (M.output s chunks.flatten, M.last s chunks.flatten) := by
  induction chunks generalizing s with
  | nil => rfl
  | cons chunk chunks ih => rw [chunked, ih, List.flatten_cons, output_append, last_append]

/-- Outputs that correspond element by element. -/
theorem output_map {γ : Type x} {N : Transducer σ α γ} {f : γ → β} (hnext : N.next = M.next)
    (hemit : ∀ s a, (N.emit s a).map f = M.emit s a) (s : σ) (xs : List α) :
    (N.output s xs).map f = M.output s xs := by
  induction xs generalizing s with
  | nil => rfl
  | cons x xs ih => rw [output, output, List.map_append, hemit, ih, hnext]

/-- What each element emits gives the element back, and so does the whole output. -/
theorem output_filterMap {own : β → Option α}
    (hown : ∀ s a, (M.emit s a).filterMap own = [a]) (s : σ) (xs : List α) :
    (M.output s xs).filterMap own = xs := by
  induction xs generalizing s with
  | nil => rfl
  | cons x xs ih =>
      rw [output, List.filterMap_append, hown, ih]
      rfl

/-- A transducer that leaves what it has emitted for an element as it is, and in the state in
which the element left it, leaves its whole output as it is. -/
theorem output_output {M : Transducer σ α α} (hemit : ∀ s a, M.output s (M.emit s a) = M.emit s a)
    (hnext : ∀ s a, M.last s (M.emit s a) = M.next s a) (s : σ) (xs : List α) :
    M.output s (M.output s xs) = M.output s xs := by
  induction xs generalizing s with
  | nil => rfl
  | cons x xs ih => rw [output, output_append, hemit, hnext, ih]

end Transducer
end AiSsh.Library
