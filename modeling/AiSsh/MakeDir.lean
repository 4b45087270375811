import AiSsh.RemoteTree

/-!
Creating a directory in a remote tree. Every run ends, keeps what was there, and adds
directories only, each at the path or, with `parents`, on the way to it. A run that succeeds
leaves the path resolving to something; only the existence of that is checked, so that a
regular file passes for the directory.
-/

namespace AiSsh

open Library Program

/-- A server over a tree. Creating a directory fails exactly when the rest of the path is not
a directory or the name is taken. -/
def treeHost : Env HostOp HostOp.Reply RemoteTree
  | t, .stat path, reply, t' => t' = t ∧
      match t.locate path with
      | some _ => ∃ metadata, reply = .ok metadata
      | none => ∃ text, reply = .error (.status .noSuchFile text)
  | t, .createDir path, reply, t' =>
      match t.create (route path) with
      | some made => reply = .ok () ∧ t' = made
      | none => (∃ error, reply = .error error) ∧ t' = t
  | t, .setMode path _, reply, t' => t' = t ∧ (t.locate path ≠ none → reply = .ok ())
  | t, _, _, t' => t' = t

/-- The paths at which a call may create a directory. -/
def Within (parents : Bool) (path q : String) : Prop := q = path ∨ parents = true ∧ Above q path

/-- What has changed: some directories more, each at a path within the requested one. -/
structure Made (parents : Bool) (path : String) (t t' : RemoteTree) : Prop where
  grows : t.Grows t'
  within : ∀ l, t.entry l = none → t'.entry l ≠ none → ∃ q, Within parents path q ∧
    t'.locate q = some l

/-- What the path names for the call: the missing directories are made, or not. -/
def RemoteTree.named (t : RemoteTree) (parents : Bool) (path : String) : Option Location :=
  if parents then t.destination path else t.locate path

/-- How a call that succeeds leaves the path. -/
def Resolved (parents : Bool) (path : String) (t t' : RemoteTree) : Prop :=
  ∃ l, t'.locate path = some l ∧
    (t.named parents path = some l ∨
      t.named parents path = none ∧ t'.entry l = some .directory)

section Steps

variable {t t' t'' : RemoteTree} {path parent : String} {parents : Bool}

theorem Made.refl (parents : Bool) (path : String) (t : RemoteTree) : Made parents path t t where
  grows := .refl t
  within _ hnone hsome := absurd hnone hsome

theorem Made.trans (h : Made parents path t t') (h' : Made parents path t' t'') :
    Made parents path t t'' where
  grows := h.grows.trans h'.grows
  within l hnone hsome := by
    by_cases hl : t'.entry l = none
    · exact h'.within l hl hsome
    · obtain ⟨q, hq, hlocate⟩ := h.within l hnone hl
      exact ⟨q, hq, RemoteTree.locate_mono h'.grows hlocate⟩

theorem Made.of_parent (h : Made true parent t t') (habove : Above parent path) :
    Made true path t t' where
  grows := h.grows
  within l hnone hsome := by
    obtain ⟨q, hq, hlocate⟩ := h.within l hnone hsome
    refine ⟨q, .inr ⟨rfl, ?_⟩, hlocate⟩
    rcases hq with rfl | ⟨-, hq⟩
    · exact habove
    · exact hq.trans habove

/-- A directory that is created is where the path leads. -/
theorem made_of_create (h : t.create (route path) = some t')
    (hmissing : parents = false → t.locate path = none) :
    Made parents path t t' ∧ Resolved parents path t t' := by
  have hne : path ≠ "" := by
    rintro rfl
    cases h
  obtain ⟨made, hgrows, hlookup, hdirectory, honly⟩ := FileTree.create_some h
  have hlocate : t'.locate path = some made := RemoteTree.locate_eq_some.mpr ⟨hne, hlookup⟩
  refine ⟨⟨hgrows, fun l hnone hsome => ⟨path, .inl rfl, ?_⟩⟩, made, hlocate, ?_⟩
  · rw [honly l hnone hsome, hlocate]
  · cases parents with
    | false => exact .inr ⟨hmissing rfl, hdirectory⟩
    | true =>
        refine .inl ?_
        show t.destination path = some made
        rw [← RemoteTree.destination_grows hgrows, RemoteTree.destination_of_locate hlocate]

theorem Resolved.of_named (h : Resolved parents path t' t'')
    (hnamed : t'.named parents path = t.named parents path) : Resolved parents path t t'' := by
  rw [Resolved, ← hnamed]
  exact h

/-- A path that names something already is left as it is. -/
theorem resolved_of_locate (parents : Bool) (h : t.locate path ≠ none) :
    Resolved parents path t t := by
  obtain ⟨l, hl⟩ := Option.ne_none_iff_exists'.mp h
  refine ⟨l, hl, .inl ?_⟩
  cases parents with
  | false => exact hl
  | true => exact RemoteTree.destination_of_locate hl

end Steps

section Calls

variable {t : RemoteTree} {path : String} {parents : Bool} {α : Type}

/-- All runs from a tree, by how many calls they make: those that succeed end in `Q`, those
that fail in `R`. -/
abbrev EndsIn (n : Nat) (Q : α → RemoteTree → Prop) (R : RemoteTree → Prop) (p : Transfer α)
    (t : RemoteTree) : Prop :=
  ∀ log, Ensures treeHost (fun _ _ => True)
    (fun value log' t' => log'.length ≤ log.length + n ∧ Q value t')
    (fun _ log' t' => log'.length ≤ log.length + n ∧ R t') p log t

theorem EndsIn.bind {β : Type} {n m : Nat} {Q : α → RemoteTree → Prop}
    {P : β → RemoteTree → Prop} {R : RemoteTree → Prop} {p : Transfer α} {f : α → Transfer β}
    (hp : EndsIn n Q R p t) (hf : ∀ value t', Q value t' → EndsIn m P R (f value) t') :
    EndsIn (n + m) P R (p >>= f) t := by
  intro log
  refine ((hp log).mono (fun _ _ _ h => h) fun _ _ _ h => ⟨by omega, h.2⟩).bind ?_
  intro value log' t' ⟨hlog, hQ⟩
  refine (hf value t' hQ log').mono (fun _ _ _ h => ⟨by omega, h.2⟩) fun _ _ _ h => ⟨by omega, h.2⟩

theorem EndsIn.mono {n m : Nat} {Q Q' : α → RemoteTree → Prop} {R R' : RemoteTree → Prop}
    {p : Transfer α} (hp : EndsIn n Q R p t) (hn : n ≤ m)
    (hQ : ∀ value t', Q value t' → Q' value t') (hR : ∀ t', R t' → R' t') :
    EndsIn m Q' R' p t :=
  fun log => (hp log).mono (fun _ _ _ h => ⟨by omega, hQ _ _ h.2⟩)
    fun _ _ _ h => ⟨by omega, hR _ h.2⟩

theorem tryStat_endsIn {R : RemoteTree → Prop} (path : String) (t : RemoteTree) :
    EndsIn 1 (fun metadata t' => t' = t ∧ (metadata = none ↔ t.locate path = none)) R
      (tryStat path) t := by
  intro log reply t' ⟨ht, hreply⟩
  refine ⟨trivial, ?_⟩
  subst ht
  split at hreply
  · rename_i l hl
    obtain ⟨metadata, rfl⟩ := hreply
    exact ⟨by simp, rfl, by simp [hl]⟩
  · rename_i hnone
    obtain ⟨text, rfl⟩ := hreply
    exact ⟨by simp, rfl, by simp [hnone]⟩

theorem applyMode_endsIn {R : RemoteTree → Prop} (mode : Option Nat)
    (h : t.locate path ≠ none) : EndsIn 1 (fun _ t' => t' = t) R (applyMode path mode) t := by
  cases mode with
  | none => exact fun log => ⟨by omega, rfl⟩
  | some mode =>
      intro log reply t' ⟨ht, hreply⟩
      obtain rfl := hreply h
      exact ⟨trivial, by simp, ht⟩

/-- The last directory. It fails only where the path leads nowhere. -/
theorem createDir_endsIn
    (hmissing : parents = false → t.locate path = none)
    (hparent : parents = true → ∀ parent, parentOf path = some parent → t.locate parent ≠ none) :
    EndsIn 2 (fun _ t' => Made parents path t t' ∧ Resolved parents path t t')
      (fun t' => t' = t ∧ t.named parents path = none) (createDir path) t := by
  have hretry : ∀ error, t.create (route path) = none →
      EndsIn 1 (fun _ t' => Made parents path t t' ∧ Resolved parents path t t')
        (fun t' => t' = t ∧ t.named parents path = none)
        (tryStat path >>= fun metadata =>
          if metadata.isNone then .fail (sftpError error path) else pure ()) t := by
    intro error hfailed
    have hnamed : t.locate path = t.named parents path := by
      cases parents with
      | false => rfl
      | true => exact RemoteTree.locate_of_create_none hfailed (hparent rfl)
    refine (tryStat_endsIn path t).bind (m := 0) fun metadata t' ht => ?_
    obtain ⟨rfl, hlocate⟩ := ht
    intro log
    cases metadata with
    | none => exact ⟨by omega, rfl, hnamed.symm.trans (hlocate.mp rfl)⟩
    | some metadata =>
        have hfound : t'.locate path ≠ none := fun hl => by cases hlocate.mpr hl
        exact ⟨by omega, .refl _ _ _, resolved_of_locate parents hfound⟩
  intro log reply t' hanswer
  refine ⟨trivial, ?_⟩
  cases hcreate : t.create (route path) with
  | some made =>
      simp only [treeHost, hcreate] at hanswer
      obtain ⟨rfl, rfl⟩ := hanswer
      exact ⟨by simp, made_of_create hcreate hmissing⟩
  | none =>
      simp only [treeHost, hcreate] at hanswer
      obtain ⟨⟨error, rfl⟩, rfl⟩ := hanswer
      refine (hretry error hcreate _).mono (fun _ _ _ h => ⟨?_, h.2⟩) fun _ _ _ h => ⟨?_, h.2⟩
      · have hcount := h.1
        rw [List.length_append, List.length_singleton] at hcount
        omega
      · have hcount := h.1
        rw [List.length_append, List.length_singleton] at hcount
        omega

theorem makeDir_endsIn (path : String) (parents : Bool) (mode : Option Nat) (t : RemoteTree) :
    EndsIn (4 * (path.length + 1))
      (fun _ t' => Made parents path t t' ∧ Resolved parents path t t')
      (fun t' => Made parents path t t' ∧ t.named parents path = none)
      (makeDir path parents mode) t := by
  induction path, parents, mode using makeDir.induct generalizing t with
  | _ path parents mode ih =>
      -- `t'` is the tree once the parents are made.
      have hcreate : ∀ t', Made parents path t t' →
          t'.named parents path = t.named parents path →
          (parents = false → t'.locate path = none) →
          (parents = true → ∀ parent, parentOf path = some parent → t'.locate parent ≠ none) →
          EndsIn 3 (fun _ t' => Made parents path t t' ∧ Resolved parents path t t')
            (fun t' => Made parents path t t' ∧ t.named parents path = none)
            (createDir path >>= fun _ => applyMode path mode) t' := by
        intro t' hmade hnamed hmissing hparent
        refine EndsIn.bind (n := 2) (m := 1) ((createDir_endsIn hmissing hparent).mono le_rfl
          (fun _ _ h => h) ?_) ?_
        · intro t'' hfailed
          obtain ⟨rfl, hnone⟩ := hfailed
          exact ⟨hmade, hnamed.symm.trans hnone⟩
        · intro _ t'' hcreated
          obtain ⟨hmade', hresolved⟩ := hcreated
          have hfound : t''.locate path ≠ none := by
            obtain ⟨l, hl, -⟩ := hresolved
            rw [hl]
            exact Option.some_ne_none l
          refine (applyMode_endsIn mode hfound).mono le_rfl (fun _ last hlast => ?_) fun _ h => h
          subst hlast
          exact ⟨hmade.trans hmade', hresolved.of_named hnamed⟩
      have halone : t.locate path = none →
          (parents = true → ∀ parent, parentOf path = some parent → parent = "/") →
          EndsIn 3 (fun _ t' => Made parents path t t' ∧ Resolved parents path t t')
            (fun t' => Made parents path t t' ∧ t.named parents path = none)
            (createDir path >>= fun _ => applyMode path mode) t := by
        intro hmissing hroot
        refine hcreate t (.refl _ _ _) rfl (fun _ => hmissing) fun hparents parent hparent => ?_
        rw [hroot hparents parent hparent, RemoteTree.locate_root]
        exact Option.some_ne_none _
      rw [makeDir]
      refine EndsIn.mono ((tryStat_endsIn path t).bind (m := 4 * path.length + 3)
        fun metadata t' ht => ?_) (by omega) (fun _ _ h => h) fun _ h => h
      obtain ⟨rfl, hlocate⟩ := ht
      cases metadata with
      | some metadata =>
          have hfound : t'.locate path ≠ none := fun hl => by cases hlocate.mpr hl
          exact fun _ => ⟨by omega, .refl _ _ _, resolved_of_locate parents hfound⟩
      | none =>
          have hmissing := hlocate.mp rfl
          simp only
          split
          · rename_i parent hparent
            have hshorter := parentOf_length hparent
            split
            · rename_i hrecurse
              simp only [Bool.and_eq_true, bne_iff_ne, ne_eq] at hrecurse
              obtain ⟨⟨rfl, hroot⟩, -⟩ := hrecurse
              have habove := above_parentOf hparent hroot
              refine EndsIn.mono (EndsIn.bind (m := 3) (EndsIn.mono (ih parent hparent t') le_rfl
                (fun _ _ h => h) ?_) fun _ t'' h => ?_) (by omega) (fun _ _ h => h) fun _ h => h
              · intro t'' hfailed
                obtain ⟨hmade, hnone⟩ := hfailed
                exact ⟨hmade.of_parent habove, RemoteTree.destination_parentOf hparent hnone⟩
              · obtain ⟨hmade, l, hl, -⟩ := h
                refine hcreate t'' (hmade.of_parent habove)
                  (RemoteTree.destination_grows hmade.grows path)
                  (fun hparents => by cases hparents) ?_
                intro _ other hother
                obtain rfl : parent = other := Option.some.inj (hparent.symm.trans hother)
                rw [hl]
                exact Option.some_ne_none l
            · rename_i hstay
              refine (halone hmissing ?_).mono (by omega) (fun _ _ h => h) fun _ h => h
              intro hparents other hother
              obtain rfl : parent = other := Option.some.inj (hparent.symm.trans hother)
              by_contra hroot
              simp [hparents, hroot, (route_parentOf hparent).1] at hstay
          · rename_i hparent
            refine (halone hmissing ?_).mono (by omega) (fun _ _ h => h) fun _ h => h
            intro _ other hother
            rw [hparent] at hother
            cases hother

end Calls

/-- A directory is delivered: every call ends, a success leaves a directory at the path, what
was there stays as it was, and what is new is a directory at a path within the requested
one. -/
structure DeliversDirectory (t : RemoteTree) (path : String) (parents : Bool)
    (mode : Option Nat) : Prop where
  ends : ∃ log result t', Runs treeHost t (makeDir path parents mode) log result t'
  bounded : ∀ {log result t'}, Runs treeHost t (makeDir path parents mode) log result t' →
    log.length ≤ 4 * (path.length + 1)
  directory : ∀ {log t'}, Runs treeHost t (makeDir path parents mode) log (.ok ()) t' →
    ∃ l, t'.locate path = some l ∧ t'.entry l = some .directory
  keeps : ∀ {log result t'}, Runs treeHost t (makeDir path parents mode) log result t' →
    ∀ l node, t.entry l = some node → t'.entry l = some node
  creates : ∀ {log result t'}, Runs treeHost t (makeDir path parents mode) log result t' →
    ∀ l, t.entry l = none → t'.entry l ≠ none → t'.entry l = some .directory ∧
      ∃ q, Within parents path q ∧ t'.locate q = some l

section Delivery

variable {t t' : RemoteTree} {path : String} {parents : Bool} {mode : Option Nat}
  {log : List (Event HostOp HostOp.Reply RemoteTree)} {result : Except String Unit}

theorem treeHost_answers (t : RemoteTree) (op : HostOp) :
    ∃ reply t', treeHost t op reply t' := by
  cases op with
  | stat path =>
      cases hl : t.locate path with
      | none => exact ⟨.error (.status .noSuchFile ""), t, rfl, by simp [hl]⟩
      | some l => exact ⟨.ok ⟨none⟩, t, rfl, by simp [hl]⟩
  | createDir path =>
      cases hcreate : t.create (route path) with
      | none => exact ⟨.error (.other ""), t, by simp [treeHost, hcreate]⟩
      | some made => exact ⟨.ok (), made, by simp [treeHost, hcreate]⟩
  | setMode path mode => exact ⟨.ok (), t, rfl, fun _ => rfl⟩
  | sha256 path => exact ⟨none, t, rfl⟩
  | openLocal _ | createLocal _ | writeLocal _ _ | flushLocal _ | removeLocal _
  | renameLocal _ _ => exact ⟨.error ⟨.other, ""⟩, t, rfl⟩
  | connection | sftpChannel | exec _ _ => exact ⟨.error (.new "" ""), t, rfl⟩
  | _ => exact ⟨.error (.other ""), t, rfl⟩

theorem makeDir_runs (h : Runs treeHost t (makeDir path parents mode) log result t') :
    log.length ≤ 4 * (path.length + 1) ∧ Made parents path t t' ∧
      (result = .ok () → Resolved parents path t t') ∧
      (result ≠ .ok () → t.named parents path = none) := by
  obtain ⟨-, hok, herror⟩ := (makeDir_endsIn path parents mode t []).sound h
  cases result with
  | ok value =>
      obtain ⟨hcount, hmade, hresolved⟩ := hok () rfl
      exact ⟨by simpa using hcount, hmade, fun _ => hresolved, fun h => absurd rfl h⟩
  | error error =>
      obtain ⟨hcount, hmade, hnone⟩ := herror error rfl
      exact ⟨by simpa using hcount, hmade, nofun, fun _ => hnone⟩

/-- A directory is delivered unless the path names a regular file, whether at once or when
the missing directories on the way are made. -/
theorem make_dir_delivers_iff (t : RemoteTree) (path : String) (parents : Bool)
    (mode : Option Nat) :
    DeliversDirectory t path parents mode ↔
      ∀ l content, t.named parents path = some l → t.entry l ≠ some (.file content) := by
  constructor
  · intro h l content hnamed hfile
    obtain ⟨log, result, t', hruns⟩ := h.ends
    obtain ⟨-, hmade, hresolved, hfailed⟩ := makeDir_runs hruns
    by_cases hok : result = .ok ()
    · subst hok
      obtain ⟨l', hl', hdirectory⟩ := h.directory hruns
      obtain ⟨last, hlast, hcase⟩ := hresolved rfl
      obtain rfl : l' = last := Option.some.inj (hl'.symm.trans hlast)
      rcases hcase with hsame | ⟨hnone, -⟩
      · obtain rfl : l = l' := Option.some.inj (hnamed.symm.trans hsame)
        rw [hmade.grows.keeps l _ hfile] at hdirectory
        cases hdirectory
      · rw [hnamed] at hnone
        cases hnone
    · rw [hfailed hok] at hnamed
      cases hnamed
  · intro h
    refine ⟨exists_runs treeHost_answers _ t, fun hruns => (makeDir_runs hruns).1, ?_, ?_, ?_⟩
    · intro log t' hruns
      obtain ⟨-, hmade, hresolved, -⟩ := makeDir_runs hruns
      obtain ⟨l, hl, hcase⟩ := hresolved rfl
      refine ⟨l, hl, ?_⟩
      rcases hcase with hnamed | ⟨-, hdirectory⟩
      · cases hentry : t'.entry l with
        | none =>
            exact absurd hentry (FileTree.lookup_mem (RemoteTree.locate_eq_some.mp hl).2)
        | some node =>
            cases node with
            | directory => rfl
            | file content =>
                exact absurd ((hmade.grows.file_iff content).mp hentry) (h l content hnamed)
      · exact hdirectory
    · intro log result t' hruns
      exact (makeDir_runs hruns).2.1.grows.keeps
    · intro log result t' hruns l hnone hsome
      have hmade := (makeDir_runs hruns).2.1
      exact ⟨hmade.grows.adds l hnone hsome, hmade.within l hnone hsome⟩

end Delivery

/-- One regular file in the root. -/
def rootFile : RemoteTree where
  entry l := if l = [] then some .directory else if l = [['f']] then some (.file [1]) else none
  home := []
  root_directory := rfl
  home_directory := rfl
  nested := by
    intro name d h
    by_cases hd : d = []
    · rw [hd]
      rfl
    · simp [hd] at h

/-- The file is there, so nothing is created, and the call succeeds. -/
theorem regular_file_passes_for_directory :
    (∃ log, Runs treeHost rootFile (makeDir "/f" true none) log (.ok ()) rootFile) ∧
      rootFile.locate "/f" = some [['f']] ∧ rootFile.entry [['f']] = some (.file [1]) ∧
      ¬ DeliversDirectory rootFile "/f" true none := by
  have hlocate : rootFile.locate "/f" = some [['f']] := by decide
  have hstat : treeHost rootFile (.stat "/f") (.ok ⟨some 1⟩) rootFile := by
    refine ⟨rfl, ?_⟩
    simp only [hlocate]
    exact ⟨_, rfl⟩
  have hruns : Runs treeHost rootFile (makeDir "/f" true none)
      [⟨.stat "/f", .ok ⟨some 1⟩, rootFile⟩] (.ok ()) rootFile := by
    rw [makeDir]
    exact .ask hstat .done
  refine ⟨⟨_, hruns⟩, hlocate, rfl, fun h => ?_⟩
  obtain ⟨l, hl, hdirectory⟩ := h.directory hruns
  obtain rfl : [['f']] = l := Option.some.inj (hlocate.symm.trans hl)
  cases hdirectory

end AiSsh
