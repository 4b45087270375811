import AiSsh.Transfer
import Mathlib.Algebra.GroupWithZero.Nat
import Mathlib.Data.List.Nodup

/-!
The names under which transfers are staged. A staged path stands in the directory of its
destination, is not the destination, and carries a number that no other staged path of the
process carries.
-/

namespace AiSsh

open Library

/-- The path a call is given, and what the clock returns to it. -/
structure StageCall where
  remote : String
  nanos : Nat

/-- The calls of one process; `counter` is the value of the shared 64-bit counter. -/
def stagedPaths (processId : Nat) : Nat → List StageCall → List String
  | _, [] => []
  | counter, call :: calls =>
      stagedPath ⟨processId, call.nanos, counter⟩ call.remote ::
        stagedPaths processId ((counter + 1) % 2 ^ 64) calls

section Siblings

theorem trimEndSlash_append (path : List Char) {name : List Char} (hne : name ≠ [])
    (hname : '/' ∉ name) : trimEndSlash (path ++ name) = path ++ name := by
  obtain ⟨front, c, rfl⟩ := (List.eq_nil_or_concat' name).resolve_left hne
  rw [← List.append_assoc]
  refine List.rdropWhile_concat_neg _ _ _ ?_
  simpa using fun hc : c = '/' => hname (by simp [hc])

theorem dirName_append_slash (path : List Char) {name : List Char} (hname : '/' ∉ name) :
    dirName (path ++ '/' :: name) = path := by
  have hall : ∀ c ∈ name.reverse, (c != '/') = true := by
    intro c hc
    simpa using fun h : c = '/' => hname (h ▸ List.mem_reverse.mp hc)
  simp [dirName, List.rdropWhile, List.dropWhile_append_of_pos hall]

theorem suffix_ne_nil (id : StageId) : id.suffix ≠ [] := by simp [StageId.suffix]

theorem parentOf_name {name : List Char} (hne : name ≠ []) (hname : '/' ∉ name) :
    parentOf (.ofList name) = none := by
  have htrim : trimEndSlash name = name := trimEndSlash_append [] hne hname
  rw [parentOf, String.toList_ofList, htrim, if_neg hname]

theorem parentOf_slash (front : List Char) {name : List Char} (hne : name ≠ [])
    (hname : '/' ∉ name) : parentOf (.ofList (front ++ '/' :: name)) =
      if front = [] then some "/" else some (.ofList front) := by
  have htrim : trimEndSlash (front ++ '/' :: name) = front ++ '/' :: name := by
    simpa using trimEndSlash_append (front ++ ['/']) hne hname
  rw [parentOf, String.toList_ofList, htrim, if_pos (by simp), dirName_append_slash _ hname]

/-- A staged path has the parent of its destination. -/
theorem parentOf_stagedPath (id : StageId) (remote : String) :
    parentOf (stagedPath id remote) = parentOf remote := by
  have hslash : '/' ∉ lastName (trimEndSlash remote.toList) ++ id.suffix := by
    simp [slash_not_mem_lastName, slash_not_mem_suffix]
  have hne : lastName (trimEndSlash remote.toList) ++ id.suffix ≠ [] := by
    simp [suffix_ne_nil]
  simp only [stagedPath]
  generalize lastName (trimEndSlash remote.toList) ++ id.suffix = staged at hslash hne
  conv => rhs; rw [parentOf]
  split
  · split
    · rename_i hdir
      rw [← List.nil_append ('/' :: staged), parentOf_slash [] hne hslash]
      cases hdir with
      | inl hroot => rw [if_pos rfl, if_pos hroot]
      | inr hroot =>
          rw [if_pos rfl, hroot, if_neg (List.cons_ne_nil _ _)]
    · exact parentOf_slash _ hne hslash
  · exact parentOf_name hne hslash

theorem stagedPath_ne_trimmed (id : StageId) (remote : String) :
    stagedPath id remote ≠ .ofList (trimEndSlash remote.toList) := by
  intro h
  have hname := lastName_stagedPath id remote
  rw [h, String.toList_ofList] at hname
  exact suffix_ne_nil id (List.self_eq_append_right.mp hname)

end Siblings

section Fresh

variable {id id' : StageId} {remote remote' : String}

theorem toDigits_injective {m n : Nat} (h : Nat.toDigits 10 m = Nat.toDigits 10 n) : m = n :=
  calc
    m = Nat.ofDigitChars 10 (Nat.toDigits 10 m) 0 := Nat.ofDigitChars_ten_toDigits.symm
    _ = Nat.ofDigitChars 10 (Nat.toDigits 10 n) 0 := by rw [h]
    _ = n := Nat.ofDigitChars_ten_toDigits

/-- The number is what follows the last dash. -/
theorem counter_of_suffix (front : List Char) (id : StageId) :
    (front ++ id.suffix).rtakeWhile (fun c => c != '-') = Nat.toDigits 10 id.counter := by
  have hdigits : ∀ c ∈ (Nat.toDigits 10 id.counter).reverse, (c != '-') = true := by
    intro c hc
    have hdigit := Nat.isDigit_of_mem_toDigits (by decide) (by decide) (List.mem_reverse.mp hc)
    simpa using fun h : c = '-' => absurd (h ▸ hdigit) (by decide)
  have hsplit : front ++ id.suffix = (front ++ stageTag ++ Nat.toDigits 10 id.processId ++
      '-' :: Nat.toDigits 10 id.nanos) ++ '-' :: Nat.toDigits 10 id.counter := by
    simp [StageId.suffix]
  rw [hsplit]
  simp [List.rtakeWhile, List.takeWhile_append_of_pos hdigits]

theorem counter_eq (h : stagedPath id remote = stagedPath id' remote') :
    id.counter = id'.counter := by
  have hname := congrArg (fun path => lastName path.toList) h
  simp only [lastName_stagedPath] at hname
  have hcounter := congrArg (List.rtakeWhile fun c => c != '-') hname
  rw [counter_of_suffix, counter_of_suffix] at hcounter
  exact toDigits_injective hcounter

end Fresh

theorem mem_stagedPaths {processId counter : Nat} {calls : List StageCall} {staged : String}
    (hcount : counter + calls.length ≤ 2 ^ 64) (h : staged ∈ stagedPaths processId counter calls) :
    ∃ id remote, counter ≤ id.counter ∧ staged = stagedPath id remote := by
  induction calls generalizing counter with
  | nil => cases h
  | cons call calls ih =>
      rw [List.length_cons] at hcount
      cases List.mem_cons.mp h with
      | inl hfirst => exact ⟨_, _, Nat.le_refl counter, hfirst⟩
      | inr hrest =>
          cases calls with
          | nil => cases hrest
          | cons next calls =>
              rw [List.length_cons] at hcount ih
              rw [Nat.mod_eq_of_lt (by omega)] at hrest
              obtain ⟨id, remote, hle, hstaged⟩ := ih (by omega) hrest
              exact ⟨id, remote, by omega, hstaged⟩

theorem stagedPaths_nodup {processId counter : Nat} {calls : List StageCall}
    (hcount : counter + calls.length ≤ 2 ^ 64) : (stagedPaths processId counter calls).Nodup := by
  induction calls generalizing counter with
  | nil => exact List.nodup_nil
  | cons call calls ih =>
      rw [List.length_cons] at hcount
      rw [stagedPaths]
      cases calls with
      | nil => exact List.nodup_singleton _
      | cons next calls =>
          rw [List.length_cons] at hcount ih
          rw [Nat.mod_eq_of_lt (by omega)]
          refine List.nodup_cons.mpr ⟨fun hmem => ?_, ih (by omega)⟩
          have hfits : counter + 1 + (next :: calls).length ≤ 2 ^ 64 := by
            rw [List.length_cons]
            omega
          obtain ⟨id, remote, hle, hstaged⟩ := mem_stagedPaths hfits hmem
          have hcounter : counter = id.counter := counter_eq hstaged
          omega

/-- Every staged path of a process stands beside its destination and is not the destination, and
no two are the same, as long as the counter does not come round. -/
theorem staged_paths_fresh (processId : Nat) (calls : List StageCall)
    (hcount : calls.length ≤ 2 ^ 64) :
    List.Forall₂ (fun call staged => parentOf staged = parentOf call.remote ∧
        staged ≠ .ofList (trimEndSlash call.remote.toList)) calls (stagedPaths processId 0 calls) ∧
      (stagedPaths processId 0 calls).Nodup := by
  refine ⟨?_, stagedPaths_nodup (by omega)⟩
  have hall (counter : Nat) : List.Forall₂ (fun call staged =>
      parentOf staged = parentOf call.remote ∧
        staged ≠ .ofList (trimEndSlash call.remote.toList)) calls
      (stagedPaths processId counter calls) := by
    clear hcount
    induction calls generalizing counter with
    | nil => exact .nil
    | cons call calls ih =>
        exact .cons ⟨parentOf_stagedPath _ _, stagedPath_ne_trimmed _ _⟩ (ih _)
  exact hall 0

/-- The clock stands still, and one destination is staged twice. -/
def sameClock : List StageCall := [⟨"/srv//app/", 5⟩, ⟨"src.tgz", 5⟩, ⟨"/srv//app/", 5⟩]

theorem staged_paths_fresh_sameClock :
    stagedPaths 7 0 sameClock = ["/srv//app.aissh-tmp-7-5-0", "src.tgz.aissh-tmp-7-5-1",
        "/srv//app.aissh-tmp-7-5-2"] ∧
      List.Forall₂ (fun call staged => parentOf staged = parentOf call.remote ∧
        staged ≠ .ofList (trimEndSlash call.remote.toList)) sameClock
        (stagedPaths 7 0 sameClock) ∧ (stagedPaths 7 0 sameClock).Nodup :=
  ⟨by decide +kernel, staged_paths_fresh 7 sameClock (by decide)⟩

end AiSsh
