import AiSsh.Library.FileTree
import AiSsh.Transfer

/-!
Paths of the remote host, read against a tree of directories and files. The names between the
slashes are the steps of a route, which starts from the root or from the login directory. The
parent that the transfer code computes is the route without its last step.
-/

namespace AiSsh

open Library

abbrev RemoteTree : Type := FileTree (List Char) Bytes

abbrev Location : Type := List (List Char)

def segments (path : List Char) : List (List Char) :=
  (path.splitOn '/').filter fun segment => !segment.isEmpty

def pathStep : List Char → PathStep (List Char)
  | ['.'] => .here
  | ['.', '.'] => .up
  | segment => .name segment

def route (path : String) : Route (List Char) where
  absolute := path.toList.head? == some '/'
  steps := (segments path.toList).map pathStep
  slashed := path.toList.getLast? == some '/'

namespace RemoteTree

/-- What a path names. The empty path names nothing. -/
def locate (t : RemoteTree) (path : String) : Option Location :=
  if path = "" then none else t.lookup (route path)

/-- What a path names once the directories that are missing on the way are made. -/
def destination (t : RemoteTree) (path : String) : Option Location :=
  if path = "" then none else t.target (route path)

end RemoteTree

section Segments

theorem segments_append (front back : List Char) :
    segments (front ++ '/' :: back) = segments front ++ segments back := by
  rw [segments, List.splitOn_append_cons_self, List.filter_append]
  rfl

theorem segments_slashes {slashes : List Char} (h : ∀ c ∈ slashes, c = '/') :
    segments slashes = [] := by
  induction slashes with
  | nil => rfl
  | cons c rest ih =>
      obtain rfl : c = '/' := h c List.mem_cons_self
      have hsplit := segments_append [] rest
      rw [List.nil_append] at hsplit
      rw [hsplit, ih fun c hc => h c (List.mem_cons_of_mem _ hc)]
      rfl

theorem segments_append_slashes (front : List Char) {slashes : List Char}
    (h : ∀ c ∈ slashes, c = '/') : segments (front ++ slashes) = segments front := by
  cases slashes with
  | nil => rw [List.append_nil]
  | cons c rest =>
      obtain rfl : c = '/' := h c List.mem_cons_self
      rw [segments_append, segments_slashes fun c hc => h c (List.mem_cons_of_mem _ hc),
        List.append_nil]

theorem segments_single {segment : List Char} (hne : segment ≠ []) (h : '/' ∉ segment) :
    segments segment = [segment] := by
  rw [segments, List.splitOn_eq_singleton h]
  simp [hne]

theorem segments_trimEndSlash (path : List Char) :
    segments (trimEndSlash path) = segments path := by
  have hsplit : trimEndSlash path ++ path.rtakeWhile (fun c => c == '/') = path :=
    List.rdropWhile_append_rtakeWhile
  conv => rhs; rw [← hsplit]
  refine (segments_append_slashes _ fun c hc => ?_).symm
  simpa using List.mem_rtakeWhile_imp hc

/-- A path with a slash in it is a directory, a slash and a last name. -/
theorem dirName_append {path : List Char} (h : '/' ∈ path) :
    path = dirName path ++ '/' :: lastName path := by
  have hsplit : path.rdropWhile (fun c => c != '/') ++ lastName path = path :=
    List.rdropWhile_append_rtakeWhile
  have hne : path.rdropWhile (fun c => c != '/') ≠ [] := by
    intro hnil
    have hall := List.rdropWhile_eq_nil_iff.mp hnil _ h
    simp at hall
  have hlast : (path.rdropWhile fun c => c != '/').getLast hne = '/' := by
    simpa using List.rdropWhile_last_not (fun c => c != '/') path hne
  have hdir := List.dropLast_append_getLast hne
  rw [hlast] at hdir
  conv => lhs; rw [← hsplit, ← hdir]
  rw [List.append_assoc]
  rfl

theorem lastName_ne_nil {path : List Char} (h : '/' ∈ trimEndSlash path) :
    lastName (trimEndSlash path) ≠ [] := by
  intro hnil
  have hsplit := dirName_append h
  rw [hnil] at hsplit
  have hne := List.ne_nil_of_mem h
  refine List.rdropWhile_last_not (fun c => c == '/') path hne ?_
  change ((trimEndSlash path).getLast hne == '/') = true
  simp only [beq_iff_eq]
  have hlast := congrArg List.getLast? hsplit
  rw [List.getLast?_eq_some_getLast hne] at hlast
  simpa using hlast

end Segments

section Parents

variable {path parent : String}

/-- `q` is a directory that `path` passes through, as `path` spells it. -/
def Above (q path : String) : Prop := ∃ rest, path.toList = q.toList ++ '/' :: rest

theorem Above.trans {p q r : String} (h : Above p q) (h' : Above q r) : Above p r := by
  obtain ⟨rest, hrest⟩ := h
  obtain ⟨rest', hrest'⟩ := h'
  exact ⟨rest ++ '/' :: rest', by rw [hrest', hrest, List.append_assoc, List.cons_append]⟩

/-- A path that has a parent: what its parent is made of, a slash and a name. -/
theorem parentOf_eq_some (h : parentOf path = some parent) :
    ∃ front rest, path.toList = front ++ '/' :: rest ∧
      (parent = .ofList front ∧ front ≠ [] ∨ parent = "/" ∧ front = []) ∧
      segments path.toList = segments front ++ [lastName (trimEndSlash path.toList)] := by
  have hsplit : trimEndSlash path.toList ++ path.toList.rtakeWhile (fun c => c == '/') =
      path.toList := List.rdropWhile_append_rtakeWhile
  simp only [parentOf] at h
  split at h
  · rename_i hslash
    have htrimmed := dirName_append hslash
    refine ⟨dirName (trimEndSlash path.toList),
      lastName (trimEndSlash path.toList) ++ path.toList.rtakeWhile (fun c => c == '/'), ?_, ?_, ?_⟩
    · conv => lhs; rw [← hsplit, htrimmed]
      rw [List.append_assoc, List.cons_append]
    · split at h
      · rename_i hnil
        cases h
        exact .inr ⟨rfl, hnil⟩
      · rename_i hne
        cases h
        exact .inl ⟨rfl, hne⟩
    · rw [← segments_trimEndSlash path.toList]
      conv => lhs; rw [htrimmed]
      rw [segments_append, segments_single (lastName_ne_nil hslash) (slash_not_mem_lastName _)]
  · cases h

theorem above_parentOf (h : parentOf path = some parent) (hroot : parent ≠ "/") :
    Above parent path := by
  obtain ⟨front, rest, hpath, ⟨rfl, -⟩ | ⟨rfl, -⟩, -⟩ := parentOf_eq_some h
  · exact ⟨rest, by rw [hpath, String.toList_ofList]⟩
  · exact absurd rfl hroot

/-- The route of a path is the route of its parent and one step more. -/
theorem route_parentOf (h : parentOf path = some parent) :
    parent ≠ "" ∧ path ≠ "" ∧ (route parent).absolute = (route path).absolute ∧
      ∃ step, (route path).steps = (route parent).steps ++ [step] := by
  obtain ⟨front, rest, hpath, hparent, hsegments⟩ := parentOf_eq_some h
  have hne : path ≠ "" := by
    rintro rfl
    simp at hpath
  have hsteps : ∃ step, (route path).steps = (segments front).map pathStep ++ [step] :=
    ⟨pathStep (lastName (trimEndSlash path.toList)), by simp [route, hsegments]⟩
  rcases hparent with ⟨rfl, hfront⟩ | ⟨rfl, rfl⟩
  · refine ⟨?_, hne, ?_, ?_⟩
    · intro hempty
      exact hfront (by simpa using congrArg String.toList hempty)
    · cases front with
      | nil => exact absurd rfl hfront
      | cons c front => simp [route, hpath]
    · simpa [route] using hsteps
  · refine ⟨by decide, hne, by simp [route, hpath], ?_⟩
    exact hsteps

theorem route_of_no_parent (h : parentOf path = none) :
    (route path).steps = [] ∨ ∃ step, (route path).steps = [step] := by
  have hslash : '/' ∉ trimEndSlash path.toList := by
    intro hslash
    simp only [parentOf, hslash, if_true] at h
    split at h <;> cases h
  have hsegments := segments_trimEndSlash path.toList
  by_cases hnil : trimEndSlash path.toList = []
  · rw [hnil] at hsegments
    exact .inl (by rw [route, ← hsegments]; rfl)
  · rw [segments_single hnil hslash] at hsegments
    exact .inr ⟨_, by rw [route, ← hsegments]; rfl⟩

end Parents

namespace RemoteTree

variable {t t' : RemoteTree} {path parent : String} {l : Location}

theorem locate_eq_some : t.locate path = some l ↔ path ≠ "" ∧ t.lookup (route path) = some l := by
  simp [locate]

theorem locate_mono (hgrows : t.Grows t') (h : t.locate path = some l) :
    t'.locate path = some l := by
  rw [locate_eq_some] at h ⊢
  exact ⟨h.1, hgrows.lookup h.2⟩

theorem destination_grows (hgrows : t.Grows t') (path : String) :
    t'.destination path = t.destination path := by
  rw [destination, destination, hgrows.target]

theorem destination_of_locate (h : t.locate path = some l) : t.destination path = some l := by
  obtain ⟨hne, hlookup⟩ := locate_eq_some.mp h
  rw [destination, if_neg hne, FileTree.target_of_lookup hlookup]

theorem locate_root (t : RemoteTree) : t.locate "/" = some [] :=
  locate_eq_some.mpr ⟨by decide, FileTree.lookup_nil rfl⟩

/-- A path through a directory that has no destination has none. -/
theorem destination_parentOf (hparent : parentOf path = some parent)
    (h : t.destination parent = none) : t.destination path = none := by
  obtain ⟨hne, hne', habsolute, step, hsteps⟩ := route_parentOf hparent
  have horigin : t.origin (route path) = t.origin (route parent) := by
    rw [FileTree.origin, FileTree.origin, habsolute]
  rw [destination, if_neg hne] at h
  rw [destination, if_neg hne', FileTree.target, FileTree.follow_concat hsteps, horigin]
  rw [FileTree.target, Route.follow] at h
  cases hwalk : (route parent).steps.foldlM t.pass (t.origin (route parent)) with
  | none => rfl
  | some d =>
      rw [hwalk, Option.bind_eq_bind, Option.bind_some] at h
      split at h
      · rw [FileTree.pass] at h
        split at h
        · rename_i hfile
          simp [FileTree.pass, hfile]
        · cases h
      · cases h

/-- Once the parent is there, a directory that cannot be created was not missing. -/
theorem locate_of_create_none (h : t.create (route path) = none)
    (hparent : ∀ parent, parentOf path = some parent → t.locate parent ≠ none) :
    t.locate path = t.destination path := by
  by_cases hne : path = ""
  · rw [locate, destination, if_pos hne, if_pos hne]
  · rw [locate, destination, if_neg hne, if_neg hne]
    cases hparents : parentOf path with
    | some parent =>
        obtain ⟨-, -, habsolute, step, hsteps⟩ := route_parentOf hparents
        obtain ⟨l, hl⟩ := Option.ne_none_iff_exists'.mp (hparent parent hparents)
        obtain ⟨d, hd, -⟩ := Option.bind_eq_some_iff.mp (locate_eq_some.mp hl).2
        rw [FileTree.origin, habsolute] at hd
        exact FileTree.lookup_of_create_none hsteps hd h
    | none =>
        rcases route_of_no_parent hparents with hsteps | ⟨step, hsteps⟩
        · have hlookup := FileTree.lookup_nil (t := t) hsteps
          rw [hlookup, FileTree.target_of_lookup hlookup]
        · have hwalk : [].foldlM t.enter (t.origin (route path)) =
              some (t.origin (route path)) := rfl
          exact FileTree.lookup_of_create_none hsteps hwalk h

end RemoteTree

end AiSsh
