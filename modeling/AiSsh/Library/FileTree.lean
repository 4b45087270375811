import Mathlib.Data.List.Basic
import Mathlib.Logic.Function.Basic

/-!
Trees of directories and regular files, and routes through them. A location is its names from
the innermost outward: the root is the empty list, and going up drops the head. Every entry
lies in a directory.

A lookup takes its steps from directory to directory. The target of a route is where the steps
lead when what is missing on the way counts as a directory; it agrees with the lookup wherever
this finds an entry, and a tree that gains directories keeps its targets.
-/

namespace AiSsh.Library

universe u v

inductive Node (γ : Type v)
  | directory
  | file (content : γ)

instance {γ : Type v} : (entry : Option (Node γ)) → Decidable (entry = some .directory)
  | some .directory => isTrue rfl
  | some (.file _) => isFalse nofun
  | none => isFalse nofun

inductive PathStep (ν : Type u)
  | here
  | up
  | name (name : ν)

def PathStep.move {ν : Type u} (d : List ν) : PathStep ν → List ν
  | .here => d
  | .up => d.tail
  | .name n => n :: d

@[simp] theorem PathStep.move_here {ν : Type u} (d : List ν) : here.move d = d := rfl

@[simp] theorem PathStep.move_name {ν : Type u} (n : ν) (d : List ν) :
    (name n).move d = n :: d := rfl

/-- A path, read. One that ends in a slash names a directory. -/
structure Route (ν : Type u) where
  absolute : Bool
  steps : List (PathStep ν)
  slashed : Bool

/-- The end of a route whose single steps are as `f` says. -/
def Route.follow {ν : Type u} (r : Route ν) (f : List ν → PathStep ν → Option (List ν))
    (start : List ν) : Option (List ν) :=
  r.steps.foldlM f start >>= fun d => if r.slashed then f d .here else some d

structure FileTree (ν : Type u) (γ : Type v) where
  entry : List ν → Option (Node γ)
  home : List ν
  root_directory : entry [] = some .directory
  home_directory : entry home = some .directory
  nested : ∀ name d, entry (name :: d) ≠ none → entry d = some .directory

namespace FileTree

variable {ν : Type u} {γ : Type v} {t t' t'' : FileTree ν γ} {d l start : List ν} {r : Route ν}
  {step : PathStep ν} {steps : List (PathStep ν)} {f g : List ν → PathStep ν → Option (List ν)}

def origin (t : FileTree ν γ) (r : Route ν) : List ν := if r.absolute then [] else t.home

def enter (t : FileTree ν γ) (d : List ν) (step : PathStep ν) : Option (List ν) :=
  match t.entry d with
  | some .directory => (t.entry (step.move d)).map fun _ => step.move d
  | _ => none

def pass (t : FileTree ν γ) (d : List ν) (step : PathStep ν) : Option (List ν) :=
  match t.entry d with
  | some (.file _) => none
  | _ => some (step.move d)

def lookup (t : FileTree ν γ) (r : Route ν) : Option (List ν) := r.follow t.enter (t.origin r)

def target (t : FileTree ν γ) (r : Route ν) : Option (List ν) := r.follow t.pass (t.origin r)

section Make

variable [DecidableEq ν]

def make (t : FileTree ν γ) (d : List ν) (name : ν) (hparent : t.entry d = some .directory)
    (hfree : t.entry (name :: d) = none) : FileTree ν γ where
  entry := Function.update t.entry (name :: d) (some .directory)
  home := t.home
  root_directory := by
    rw [Function.update_of_ne (List.cons_ne_nil _ _).symm]
    exact t.root_directory
  home_directory := by
    rw [Function.update_of_ne]
    · exact t.home_directory
    · intro h
      rw [← h, t.home_directory] at hfree
      cases hfree
  nested := by
    intro inner outer h
    by_cases hinner : inner :: outer = name :: d
    · cases hinner
      rw [Function.update_of_ne (List.cons_ne_self _ _).symm]
      exact hparent
    · rw [Function.update_of_ne hinner] at h
      by_cases houter : outer = name :: d
      · rw [houter, Function.update_self]
      · rw [Function.update_of_ne houter]
        exact t.nested inner outer h

/-- A new directory at the end of a route. The name must be free and the rest of the route a
directory; a slash at the end does no harm. -/
def create (t : FileTree ν γ) (r : Route ν) : Option (FileTree ν γ) :=
  match r.steps.getLast? with
  | some (.name name) =>
      match r.steps.dropLast.foldlM t.enter (t.origin r) with
      | some d =>
          if h : t.entry d = some .directory ∧ t.entry (name :: d) = none then
            some (t.make d name h.1 h.2)
          else
            none
      | none => none
  | _ => none

end Make

/-- `t'` is `t` with some directories more. -/
structure Grows (t t' : FileTree ν γ) : Prop where
  home : t'.home = t.home
  keeps : ∀ l node, t.entry l = some node → t'.entry l = some node
  adds : ∀ l, t.entry l = none → t'.entry l ≠ none → t'.entry l = some .directory

theorem Grows.refl (t : FileTree ν γ) : t.Grows t where
  home := rfl
  keeps _ _ h := h
  adds _ h h' := absurd h h'

theorem Grows.trans (h : t.Grows t') (h' : t'.Grows t'') : t.Grows t'' where
  home := h'.home.trans h.home
  keeps l node hl := h'.keeps l node (h.keeps l node hl)
  adds l hnone hsome := by
    cases hl : t'.entry l with
    | none => exact h'.adds l hl hsome
    | some node =>
        have hdirectory := h.adds l hnone (by rw [hl]; nofun)
        exact h'.keeps l _ hdirectory

section Steps

theorem enter_eq_some (h : t.enter d step = some l) :
    t.entry d = some .directory ∧ l = step.move d ∧ t.entry l ≠ none := by
  rw [enter] at h
  split at h
  · rename_i hdirectory
    obtain ⟨node, hnode, rfl⟩ := Option.map_eq_some_iff.mp h
    exact ⟨hdirectory, rfl, by rw [hnode]; nofun⟩
  · cases h

theorem pass_of_enter (h : t.enter d step = some l) :
    t.pass d step = some l := by
  obtain ⟨hdirectory, rfl, -⟩ := enter_eq_some h
  rw [pass, hdirectory]

theorem Grows.enter (hgrows : t.Grows t') (h : t.enter d step = some l) :
    t'.enter d step = some l := by
  obtain ⟨hdirectory, rfl, hentry⟩ := enter_eq_some h
  obtain ⟨node, hnode⟩ := Option.ne_none_iff_exists'.mp hentry
  rw [FileTree.enter, hgrows.keeps _ _ hdirectory]
  simp only [hgrows.keeps _ _ hnode, Option.map_some]

theorem Grows.file_iff (hgrows : t.Grows t') (content : γ) :
    t'.entry l = some (.file content) ↔ t.entry l = some (.file content) := by
  constructor
  · intro h
    cases hl : t.entry l with
    | none =>
        rw [hgrows.adds l hl (by rw [h]; nofun)] at h
        cases h
    | some node => rw [← hgrows.keeps l node hl, h]
  · exact hgrows.keeps l _

theorem Grows.pass (hgrows : t.Grows t') : t'.pass = t.pass := by
  funext d step
  simp only [FileTree.pass]
  cases h : t.entry d with
  | none =>
      cases h' : t'.entry d with
      | none => rfl
      | some node => rw [hgrows.adds d h (by rw [h']; nofun)] at h'; cases h'; rfl
  | some node => rw [hgrows.keeps d node h]

theorem foldlM_mono (hfg : ∀ d step l, f d step = some l → g d step = some l)
    (h : steps.foldlM f start = some l) : steps.foldlM g start = some l := by
  induction steps generalizing start with
  | nil => exact h
  | cons step steps ih =>
      rw [List.foldlM_cons] at h ⊢
      obtain ⟨d, hd, hrest⟩ := Option.bind_eq_some_iff.mp h
      exact Option.bind_eq_some_iff.mpr ⟨d, hfg _ _ _ hd, ih hrest⟩

theorem follow_mono (hfg : ∀ d step l, f d step = some l → g d step = some l)
    (h : r.follow f start = some l) : r.follow g start = some l := by
  obtain ⟨d, hd, hlast⟩ := Option.bind_eq_some_iff.mp h
  refine Option.bind_eq_some_iff.mpr ⟨d, foldlM_mono hfg hd, ?_⟩
  cases hslashed : r.slashed with
  | false =>
      simp only [hslashed] at hlast ⊢
      exact hlast
  | true =>
      simp only [hslashed, if_true] at hlast ⊢
      exact hfg _ _ _ hlast

/-- The last step of a route, and the slash that may follow it. -/
theorem follow_concat (hsteps : r.steps = steps ++ [step]) :
    r.follow f start = steps.foldlM f start >>= fun d =>
      f d step >>= fun d => if r.slashed then f d .here else some d := by
  rw [Route.follow, hsteps, List.foldlM_append]
  simp [Option.bind_assoc]

/-- A walk that starts in the tree ends in it. -/
theorem foldlM_enter_mem (hstart : t.entry start ≠ none)
    (h : steps.foldlM t.enter start = some l) : t.entry l ≠ none := by
  induction steps generalizing start with
  | nil =>
      cases h
      exact hstart
  | cons step steps ih =>
      rw [List.foldlM_cons] at h
      obtain ⟨d, hd, hrest⟩ := Option.bind_eq_some_iff.mp h
      exact ih (enter_eq_some hd).2.2 hrest

end Steps

section Routes

theorem origin_directory (t : FileTree ν γ) (r : Route ν) :
    t.entry (t.origin r) = some .directory := by
  rw [origin]
  split
  · exact t.root_directory
  · exact t.home_directory

/-- A route without steps stays where it starts. -/
theorem lookup_nil (h : r.steps = []) : t.lookup r = some (t.origin r) := by
  have hstart : t.enter (t.origin r) .here = some (t.origin r) := by
    simp only [enter, origin_directory, PathStep.move_here, Option.map_some]
  rw [lookup, Route.follow, h, List.foldlM_nil, Option.pure_def, Option.bind_eq_bind,
    Option.bind_some, hstart, ite_self]

theorem Grows.origin (hgrows : t.Grows t') (r : Route ν) : t'.origin r = t.origin r := by
  rw [FileTree.origin, FileTree.origin, hgrows.home]

theorem Grows.lookup (hgrows : t.Grows t') (h : t.lookup r = some l) :
    t'.lookup r = some l := by
  rw [FileTree.lookup, hgrows.origin r]
  exact follow_mono (fun _ _ _ => hgrows.enter) h

theorem Grows.target (hgrows : t.Grows t') (r : Route ν) : t'.target r = t.target r := by
  rw [FileTree.target, FileTree.target, hgrows.pass, hgrows.origin r]

theorem lookup_mem (h : t.lookup r = some l) : t.entry l ≠ none := by
  obtain ⟨d, hd, hlast⟩ := Option.bind_eq_some_iff.mp h
  have hmem := foldlM_enter_mem (by rw [origin_directory t r]; nofun) hd
  cases hslashed : r.slashed with
  | false =>
      simp only [hslashed, Bool.false_eq_true, if_false, Option.some.injEq] at hlast
      exact hlast ▸ hmem
  | true =>
      simp only [hslashed, if_true] at hlast
      exact (enter_eq_some hlast).2.2

/-- What a route finds is its target. -/
theorem target_of_lookup (h : t.lookup r = some l) : t.target r = some l :=
  follow_mono (fun _ _ _ => pass_of_enter) h

end Routes

section Make

variable [DecidableEq ν]

theorem entry_make {name : ν} (hparent : t.entry d = some .directory)
    (hfree : t.entry (name :: d) = none) :
    (t.make d name hparent hfree).entry = Function.update t.entry (name :: d) (some .directory) :=
  rfl

theorem make_grows {name : ν} (hparent : t.entry d = some .directory)
    (hfree : t.entry (name :: d) = none) : t.Grows (t.make d name hparent hfree) where
  home := rfl
  keeps l node hl := by
    have hne : l ≠ name :: d := by
      rintro rfl
      rw [hfree] at hl
      cases hl
    rw [entry_make, Function.update_of_ne hne, hl]
  adds l hnone hsome := by
    by_cases hl : l = name :: d
    · rw [entry_make, hl, Function.update_self]
    · rw [entry_make, Function.update_of_ne hl] at hsome
      exact absurd hnone hsome

theorem create_eq_some (h : t.create r = some t') :
    ∃ d name, ∃ hparent : t.entry d = some .directory, ∃ hfree : t.entry (name :: d) = none,
      r.steps = r.steps.dropLast ++ [.name name] ∧
      r.steps.dropLast.foldlM t.enter (t.origin r) = some d ∧ t' = t.make d name hparent hfree := by
  rw [create] at h
  split at h
  · rename_i name hlast
    split at h
    · rename_i d hd
      split at h
      · rename_i hfree
        cases h
        exact ⟨d, name, hfree.1, hfree.2, (List.dropLast_append_getLast? _ hlast).symm, hd, rfl⟩
      · cases h
    · cases h
  · cases h

/-- A directory that is created is found where the route leads, and is the only one. -/
theorem create_some (h : t.create r = some t') :
    ∃ made, t.Grows t' ∧ t'.lookup r = some made ∧ t'.entry made = some .directory ∧
      ∀ l, t.entry l = none → t'.entry l ≠ none → l = made := by
  obtain ⟨d, name, hparent, hfree, hsteps, hd, rfl⟩ := create_eq_some h
  have hgrows := make_grows hparent hfree
  have hmade : (t.make d name hparent hfree).entry (name :: d) = some .directory :=
    Function.update_self _ _ _
  have hwalk : (t.make d name hparent hfree).enter d (.name name) = some (name :: d) := by
    simp only [enter, hgrows.keeps d _ hparent, PathStep.move_name, hmade, Option.map_some]
  have hslash : (t.make d name hparent hfree).enter (name :: d) .here = some (name :: d) := by
    simp only [enter, hmade, PathStep.move_here, Option.map_some]
  refine ⟨name :: d, hgrows, ?_, hmade, ?_⟩
  · rw [lookup, follow_concat hsteps, hgrows.origin r,
      foldlM_mono (fun _ _ _ => hgrows.enter) hd]
    simp [hwalk, hslash]
  · intro l hnone hsome
    by_contra hne
    rw [entry_make, Function.update_of_ne hne] at hsome
    exact hsome hnone

/-- Where the rest of the route is found, a directory that cannot be created was not
missing. -/
theorem lookup_of_create_none (hsteps : r.steps = steps ++ [step])
    (hd : steps.foldlM t.enter (t.origin r) = some d) (h : t.create r = none) :
    t.lookup r = t.target r := by
  have hmem := foldlM_enter_mem (by rw [origin_directory t r]; nofun) hd
  have hpass : steps.foldlM t.pass (t.origin r) = some d :=
    foldlM_mono (fun _ _ _ => pass_of_enter) hd
  have hmoved : t.entry d = some .directory → ∃ node, t.entry (step.move d) = some node := by
    intro hdirectory
    cases step with
    | here => exact ⟨_, hdirectory⟩
    | up =>
        cases d with
        | nil => exact ⟨_, hdirectory⟩
        | cons name outer => exact ⟨_, t.nested name outer hmem⟩
    | name name =>
        refine Option.ne_none_iff_exists'.mp fun hfree => ?_
        rw [PathStep.move_name] at hfree
        simp [create, hsteps, hd, hdirectory, hfree] at h
  rw [lookup, target, follow_concat hsteps, follow_concat hsteps, hd, hpass]
  cases hentry : t.entry d with
  | none => exact absurd hentry hmem
  | some node =>
      cases node with
      | file content => simp [enter, pass, hentry]
      | directory =>
          obtain ⟨node, hnode⟩ := hmoved hentry
          cases node with
          | directory => simp [enter, pass, hentry, hnode]
          | file content => simp [enter, pass, hentry, hnode]

end Make

end FileTree
end AiSsh.Library
