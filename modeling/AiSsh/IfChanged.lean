import AiSsh.Append

/-!
`if_changed` against a plain write, on a host where nothing fails and whose hash tool tells
the digest of a file or is not there. The slow path leaves the data at the destination under
the requested mode, by either of its two ways. The fast path compares contents only: it
leaves an equal file as it is, mode and all, and reports the requested mode.
-/

namespace AiSsh

open Library Program

/-- A host on which every call succeeds. A digest query is answered with the file's digest, by
a tool that escapes whatever names it likes, or finds no tool. -/
def hashedHost (sha : Sha256) (cut : Cut) : Env HostOp HostOp.Reply Hosts
  | s, .exec (.sha256 path useSudo) stdin, reply, s' => s' = s ∧
      ((∃ escapes, reply =
          .ok ((honestServer sha escapes cut .correct).exec s stdin (.sha256 path useSudo)).1) ∨
        ∃ output, reply = .ok output ∧ output.exit ≠ some 0)
  | s, op, reply, s' => (reply, s') = (honestServer sha (fun _ => false) cut .correct).answer s op

/-- All runs of a program from a state: those that succeed end in `Q`, those that fail in
`R`. -/
abbrev Ends (sha : Sha256) (cut : Cut) {ε α : Type} (Q : α → Hosts → Prop) (R : Hosts → Prop)
    (p : Program HostOp HostOp.Reply ε α) (s : Hosts) : Prop :=
  ∀ log, Ensures (hashedHost sha cut) (fun _ _ => True) (fun value _ t => Q value t)
    (fun _ _ t => R t) p log s

/-- The data are at the destination, under the requested mode. -/
def Placed (path : String) (data : Bytes) (mode : Option Nat) (s : Hosts) : Prop :=
  ∃ actual, s.remote path = some (.file data actual) ∧ ∀ m, mode = some m → actual = some m

theorem file_of_bytes {s : Hosts} {path : String} {data : Bytes}
    (h : s.bytes path = some data) :
    ∃ current, s.remote path = some (.file data current) := by
  rw [Hosts.bytes] at h
  cases hentry : s.remote path with
  | none => simp [hentry] at h
  | some entry =>
      cases entry with
      | directory => simp [hentry, Entry.content] at h
      | file content current =>
          simp only [hentry, Option.bind_some, Entry.content, Option.some.injEq] at h
          exact ⟨current, by rw [h]⟩

section Ends

variable {sha : Sha256} {cut : Cut} {s : Hosts} {path : String} {ε α β : Type}

theorem Ends.bind {Q : α → Hosts → Prop} {P : β → Hosts → Prop} {R : Hosts → Prop}
    {p : Program HostOp HostOp.Reply ε α} {f : α → Program HostOp HostOp.Reply ε β}
    (hp : Ends sha cut Q R p s) (hf : ∀ value t, Q value t → Ends sha cut P R (f value) t) :
    Ends sha cut P R (p >>= f) s :=
  fun log => (hp log).bind fun value log t hQ => hf value t hQ log

theorem Ends.mono {Q Q' : α → Hosts → Prop} {R R' : Hosts → Prop}
    {p : Program HostOp HostOp.Reply ε α} (hp : Ends sha cut Q R p s)
    (hQ : ∀ value t, Q value t → Q' value t) (hR : ∀ t, R t → R' t) : Ends sha cut Q' R' p s :=
  fun log => (hp log).mono (fun value _ t => hQ value t) fun _ _ t => hR t

theorem Ends.weaken {Q : α → Hosts → Prop} {R : Hosts → Prop}
    {p : Program HostOp HostOp.Reply ε α} (hp : Ends sha cut Q (fun _ => False) p s) :
    Ends sha cut Q R p s :=
  hp.mono (fun _ _ hQ => hQ) fun _ hfailed => hfailed.elim

/-- A program that does not fail does not need its handler. -/
theorem Ends.handle {ε' : Type} {Q : α → Hosts → Prop} {R : Hosts → Prop}
    {p : Program HostOp HostOp.Reply ε α} {f : ε → Program HostOp HostOp.Reply ε' α}
    (hp : Ends sha cut Q (fun _ => False) p s) : Ends sha cut Q R (p.handle f) s :=
  fun log => (hp log).handle fun _ _ _ hfailed => hfailed.elim

/-- What a digest query makes of its reply. -/
theorem queried {output : ExecOutput} {Q : Option String → Hosts → Prop} {R : Hosts → Prop}
    {log : List (Event HostOp HostOp.Reply Hosts)}
    (h : Q (if output.exit = some 0 then output.stdout.bind parseDigest else none) s) :
    Ensures (hashedHost sha cut) (fun _ _ => True) (fun answer _ t => Q answer t)
      (fun (_ : ε) _ t => R t)
      ((checkExit "helper command" output >>= fun output =>
        (pure (output.bind parseDigest) : FileCall _)).handle fun _ => .done none) log s := by
  rw [checkExit]
  split
  · rename_i hexit
    rw [if_pos hexit] at h
    exact h
  · rename_i hexit
    rw [if_neg hexit] at h
    exact h

/-- A digest query does not fail and tells the file's digest if anything. -/
theorem query_ends (useSudo : Bool) {R : Hosts → Prop} :
    Ends sha cut
      (fun answer t => t = s ∧ ∀ digest, answer = some digest →
        ∃ content, s.bytes path = some content ∧ digest = sha.hex content)
      R (remoteSha256 path useSudo : Program HostOp HostOp.Reply ε (Option String)) s := by
  intro log reply t hanswer
  obtain ⟨ht, hreply⟩ := hanswer
  refine ⟨trivial, ?_⟩
  subst ht
  rcases hreply with ⟨escapes, htold⟩ | ⟨output, habsent, hexit⟩
  · subst htold
    refine queried ⟨rfl, ?_⟩
    cases hbytes : t.bytes path with
    | none => simp [Server.exec, hbytes]
    | some content =>
        simp only [Server.exec, hbytes, if_true, honestServer, Option.bind_some,
          parseDigest_digestLine]
        intro digest hdigest
        split at hdigest
        · cases hdigest
        · exact ⟨content, rfl, (Option.some.inj hdigest).symm⟩
  · subst habsent
    refine queried ⟨rfl, ?_⟩
    rw [if_neg hexit]
    intro digest hdigest
    cases hdigest

theorem tryStat_ends :
    Ends sha cut (fun metadata t => t = s ∧ (metadata = none ↔ s.remote path = none))
      (fun _ => False) (tryStat path) s := by
  intro log reply t hanswer
  refine ⟨trivial, ?_⟩
  cases hentry : s.remote path with
  | none =>
      simp only [hashedHost, Server.answer, honestServer, hentry, Bool.false_eq_true, if_false,
        Prod.mk.injEq] at hanswer
      obtain ⟨rfl, rfl⟩ := hanswer
      exact ⟨rfl, by simp⟩
  | some entry =>
      simp only [hashedHost, Server.answer, honestServer, hentry, Bool.false_eq_true, if_false,
        Prod.mk.injEq] at hanswer
      obtain ⟨rfl, rfl⟩ := hanswer
      exact ⟨rfl, by simp⟩

theorem applyMode_ends {content : Bytes} {old mode : Option Nat} (path : String)
    (h : s.remote path = some (.file content old)) :
    Ends sha cut (fun _ t => Placed path content mode t) (fun _ => False)
      (applyMode path mode) s := by
  cases mode with
  | none => exact fun _ => ⟨old, h, nofun⟩
  | some mode =>
      intro log reply t hanswer
      cases hanswer
      refine ⟨trivial, some mode, ?_, fun m hm => hm⟩
      simp [Hosts.setModeOf, h]

/-- The staged file becomes the destination. -/
theorem promote_ends {staged remote : String} (hne : staged ≠ remote) {data : Bytes}
    {mode : Option Nat} (h : Placed staged data mode s) :
    Ends sha cut (fun _ t => Placed remote data mode t) (fun _ => False)
      (promote staged remote) s := by
  obtain ⟨actual, hstaged, hmode⟩ := h
  have hrename : ∀ t : Hosts, t.remote staged = some (.file data actual) →
      Ends sha cut (fun _ t => Placed remote data mode t) (fun _ => False)
        (.ask (.renameRemote staged remote) (sftpReply remote)) t := by
    intro t ht log reply t' hanswer
    cases hanswer
    refine ⟨trivial, actual, ?_, hmode⟩
    rw [Hosts.setRemote_of_ne hne.symm, Hosts.setRemote_self, ht]
  refine tryStat_ends.bind fun metadata t ht => ?_
  obtain ⟨rfl, -⟩ := ht
  cases metadata with
  | none => exact hrename t hstaged
  | some metadata =>
      refine Ends.bind (Q := fun _ t => t.remote staged = some (.file data actual)) ?_
        fun _ t ht => hrename t ht
      intro log reply t' hanswer
      cases hanswer
      refine ⟨trivial, ?_⟩
      show (t.setRemote remote none).remote staged = _
      rw [Hosts.setRemote_of_ne hne, hstaged]

/-- The staged file's digest is that of the data, where it is told. -/
theorem confirm_ends {staged : String} {data : Bytes} (h : s.bytes staged = some data) :
    Ends sha cut (fun _ t => t = s) (fun _ => False)
      (confirm staged (sha.hex data) (some execRemoteHash)) s := by
  refine (query_ends false).bind fun answer t ht => ?_
  obtain ⟨rfl, hanswer⟩ := ht
  cases answer with
  | none => exact fun _ => rfl
  | some actual =>
      obtain ⟨content, hcontent, hdigest⟩ := hanswer actual rfl
      obtain rfl : data = content := Option.some.inj (h.symm.trans hcontent)
      simp only [if_pos hdigest]
      exact fun _ => rfl

theorem finishStaged_ends {staged remote : String} (hne : staged ≠ remote) {data : Bytes}
    (mode : Option Nat) (h : s.bytes staged = some data) :
    Ends sha cut (fun _ t => Placed remote data mode t) (fun _ => False)
      (finishStaged staged remote (sha.hex data) data.length mode (some execRemoteHash)) s := by
  have hstored : ∀ t : Hosts, t.bytes staged = some data →
      (Server.store t staged ((t.bytes staged).getD [])).bytes staged = some data := by
    intro t ht
    rw [Server.bytes_store, ht]
    rfl
  refine Ends.bind (Q := fun _ t => t.bytes staged = some data) (Ends.handle ?_) fun _ t ht => ?_
  · intro log reply t hanswer
    cases hanswer
    exact ⟨trivial, hstored s h⟩
  refine Ends.bind (Q := fun _ t => t.bytes staged = some data) (Ends.handle ?_) fun _ t ht => ?_
  · intro log reply t' hanswer
    cases hanswer
    exact ⟨trivial, hstored t ht⟩
  refine (confirm_ends ht).bind fun verified t' ht' => ?_
  subst ht'
  obtain ⟨old, hentry⟩ := file_of_bytes ht
  refine (Ends.handle (applyMode_ends staged hentry)).bind fun _ t ht => ?_
  exact (promote_ends hne ht).bind fun _ t ht _ => ht

/-- The slow path over SFTP. -/
theorem writeStaged_ends (id : StageId) (remote : String) (data : Bytes) (mode : Option Nat) :
    Ends sha cut (fun _ t => Placed remote data mode t) (fun _ => False)
      (writeStaged sha.hex id remote data mode (some execRemoteHash)) s := by
  refine Ends.bind (Q := fun _ t => t.bytes (stagedPath id remote) = some []) ?_ fun _ t ht => ?_
  · intro log reply t hanswer
    cases hanswer
    refine ⟨trivial, ?_⟩
    show (s.setRemote (stagedPath id remote) _).bytes _ = _
    rw [Hosts.bytes, Hosts.setRemote_self]
    rfl
  · refine Ends.bind (Q := fun _ t => t.bytes (stagedPath id remote) = some data) ?_
      fun _ t ht => finishStaged_ends (stagedPath_ne id remote) mode ht
    refine Ends.handle fun log reply t' hanswer => ?_
    cases hanswer
    refine ⟨trivial, ?_⟩
    show (Server.store t (stagedPath id remote) _).bytes _ = _
    rw [Server.bytes_store, ht]
    rfl

/-- Creating a directory and its parents leaves every longer path alone. -/
theorem makeDir_ends (path : String) (parents : Bool) (mode : Option Nat) (s : Hosts) :
    Ends sha cut (fun _ t => ∀ other, path.length < other.length →
      t.remote other = s.remote other) (fun _ => False) (makeDir path parents mode) s := by
  induction path, parents, mode using makeDir.induct generalizing s with
  | _ path parents mode ih =>
      have hcreate : ∀ t : Hosts, (∀ other, path.length < other.length →
            t.remote other = s.remote other) →
          Ends sha cut (fun _ t => ∀ other, path.length < other.length →
            t.remote other = s.remote other) (fun _ => False)
            (createDir path >>= fun _ => applyMode path mode) t := by
        intro t ht log reply t' hanswer
        cases hanswer
        have hmade : ∀ other, path.length < other.length →
            (t.setRemote path (some .directory)).remote other = s.remote other := by
          intro other hother
          rw [Hosts.setRemote_of_ne, ht other hother]
          rintro rfl
          exact Nat.lt_irrefl _ hother
        refine ⟨trivial, ?_⟩
        cases mode with
        | none => exact hmade
        | some mode =>
            intro reply t' hanswer
            cases hanswer
            refine ⟨trivial, ?_⟩
            have hkept : (t.setRemote path (some .directory)).setModeOf path mode =
                t.setRemote path (some .directory) := by simp [Hosts.setModeOf]
            show ∀ other, path.length < other.length →
              ((t.setRemote path (some .directory)).setModeOf path mode).remote other = _
            rw [hkept]
            exact hmade
      rw [makeDir]
      refine tryStat_ends.bind fun metadata t ht => ?_
      obtain ⟨rfl, -⟩ := ht
      cases metadata with
      | some metadata => exact fun _ _ _ => rfl
      | none =>
          simp only
          split
          · rename_i parent hparent
            split
            · refine (ih parent hparent t).bind fun _ t' ht' => hcreate t' fun other hother => ?_
              exact ht' other ((parentOf_length hparent).trans hother)
            · exact hcreate t fun _ _ => rfl
          · exact hcreate t fun _ _ => rfl

theorem makeParent_ends {make : String → FileCall Unit} (createDirs : Bool)
    (hmake : ∀ parent, parentOf path = some parent →
      Ends sha cut (fun _ t => t.remote path = s.remote path) (fun _ => False) (make parent) s) :
    Ends sha cut (fun _ t => t.remote path = s.remote path) (fun _ => False)
      (makeParent path createDirs make) s := by
  rw [makeParent]
  split
  · split
    · rename_i parent hparent
      exact hmake parent hparent
    · exact fun _ => rfl
  · exact fun _ => rfl

theorem sudoMakeDir_ends {parent : String} (hparent : parentOf path = some parent) :
    Ends sha cut (fun _ t => t.remote path = s.remote path) (fun _ => False)
      (sudoMakeDir parent) s := by
  intro log reply t hanswer
  cases hanswer
  refine ⟨trivial, ?_⟩
  have hne : path ≠ parent := by
    rintro rfl
    exact Nat.lt_irrefl _ (parentOf_length hparent)
  show (if s.remote parent = none then s.setRemote parent (some .directory) else s).remote path = _
  split
  · exact Hosts.setRemote_of_ne hne _
  · rfl

theorem sudoWrite_ends (data : Bytes) :
    Ends sha cut (fun _ t => ∃ old, t.remote path = some (.file data old)) (fun _ => False)
      (sudoWrite path data false) s := by
  intro log reply t hanswer
  cases hanswer
  refine ⟨trivial, s.modeOf path, ?_⟩
  exact Hosts.setRemote_self _ _ _

theorem sudoApplyMode_ends {data : Bytes} {old : Option Nat} (mode : Option Nat)
    (h : s.remote path = some (.file data old)) :
    Ends sha cut (fun _ t => Placed path data mode t) (fun _ => False)
      (sudoApplyMode path mode) s := by
  cases mode with
  | none => exact fun _ => ⟨old, h, nofun⟩
  | some mode =>
      refine Ends.handle fun log reply t hanswer => ?_
      cases hanswer
      refine ⟨trivial, some mode, ?_, fun m hm => hm⟩
      show (s.setModeOf path mode).remote path = _
      simp [Hosts.setModeOf, h]

/-- The privileged way. Without a hash tool it fails once the data are in place. -/
theorem fileWriteSudo_ends (data : Bytes) (createDirs : Bool) (mode : Option Nat) :
    Ends sha cut (fun outcome t => Placed path data mode t ∧ outcome.mode = mode)
      (Placed path data mode) (fileWriteSudo sha.hex path data false createDirs mode) s := by
  refine (makeParent_ends createDirs fun parent hparent =>
    sudoMakeDir_ends hparent).weaken.bind fun _ t _ => ?_
  refine (sudoWrite_ends data).weaken.bind fun _ t ht => ?_
  obtain ⟨old, hentry⟩ := ht
  refine (sudoApplyMode_ends mode hentry).weaken.bind fun _ t ht => ?_
  refine (query_ends true).bind fun answer t' ht' => ?_
  obtain ⟨rfl, -⟩ := ht'
  split
  · exact fun _ => ⟨ht, rfl⟩
  · exact fun _ => ht

theorem fileWriteSftp_ends (id : StageId) (data : Bytes) (createDirs : Bool)
    (mode : Option Nat) :
    Ends sha cut (fun outcome t => Placed path data mode t ∧ outcome.mode = mode)
      (fun _ => False) (fileWriteSftp sha.hex id path data false createDirs mode) s := by
  rw [fileWriteSftp]
  refine Ends.bind (Q := fun _ t => t = s) ?_ fun _ t ht => ?_
  · intro log reply t hanswer
    cases hanswer
    exact ⟨trivial, rfl⟩
  refine Ends.bind (Q := fun _ t' => t' = t) ?_ fun _ t' ht' => ?_
  · intro log reply t' hanswer
    cases hanswer
    exact ⟨trivial, rfl⟩
  refine (makeParent_ends createDirs fun parent hparent => ?_).bind fun _ t'' _ => ?_
  · refine Ends.handle ((makeDir_ends parent true none t').mono (fun _ last hlast => ?_)
      fun _ hfailed => hfailed)
    exact hlast path (parentOf_length hparent)
  · refine Ends.bind (Q := fun content _ => content = data) (fun _ => rfl)
      fun content last hdata => ?_
    subst hdata
    refine (Ends.handle (writeStaged_ends id path content mode)).bind fun outcome last hlast => ?_
    exact fun _ => ⟨hlast, rfl⟩

theorem connection_ends :
    Ends sha cut (fun _ t => t = s) (fun _ => False)
      (.ask .connection .ofExcept : FileCall Unit) s := by
  intro log reply t hanswer
  cases hanswer
  exact ⟨trivial, rfl⟩

/-- A write ends with the data in place, or has found a file of that digest. -/
theorem fileWrite_ends (id : StageId) (data : Bytes) (createDirs : Bool) (mode : Option Nat)
    (useSudo ifChanged : Bool) :
    Ends sha cut
      (fun outcome t => (Placed path data mode t ∨ ifChanged = true ∧ t = s ∧
        ∃ content, s.bytes path = some content ∧ sha.hex content = sha.hex data) ∧
        outcome.mode = mode)
      (Placed path data mode)
      (fileWrite sha.hex id path data false createDirs mode useSudo ifChanged) s := by
  have hslow : ∀ found : Prop, Ends sha cut
      (fun outcome t => (Placed path data mode t ∨ ifChanged = true ∧ t = s ∧ found) ∧
        outcome.mode = mode)
      (Placed path data mode)
      (if useSudo then fileWriteSudo sha.hex path data false createDirs mode
        else fileWriteSftp sha.hex id path data false createDirs mode) s := by
    intro found
    cases useSudo with
    | true =>
        exact (fileWriteSudo_ends data createDirs mode).mono
          (fun _ _ h => ⟨.inl h.1, h.2⟩) fun _ h => h
    | false =>
        exact (fileWriteSftp_ends id data createDirs mode).mono
          (fun _ _ h => ⟨.inl h.1, h.2⟩) fun _ h => h.elim
  rw [fileWrite]
  refine connection_ends.weaken.bind fun _ t ht => ?_
  subst ht
  cases ifChanged with
  | false => exact fun log => hslow _ log
  | true =>
      refine (query_ends useSudo).bind fun answer t' ht' => ?_
      obtain ⟨rfl, hanswer⟩ := ht'
      by_cases hsame : answer = some (sha.hex data)
      · obtain ⟨content, hcontent, hdigest⟩ := hanswer _ hsame
        beta_reduce
        rw [if_pos hsame]
        exact fun _ => ⟨.inr ⟨rfl, rfl, content, hcontent, hdigest.symm⟩, rfl⟩
      · beta_reduce
        rw [if_neg hsame]
        exact hslow _

end Ends

/-- The mode that is reported is the mode the file has. -/
def ReportsMode (path : String) (result : Except ErrorPayload FileOutcome) (s : Hosts) : Prop :=
  ∀ outcome m, result = .ok outcome → outcome.mode = some m → s.modeOf path = some m

/-- With and without `if_changed` a write ends with the same content and, when a mode is
requested, with the same mode, and reports a mode the file has. -/
def OnlyOptimises (sha : Sha256) (cut : Cut) (id : StageId) (path : String) (data : Bytes)
    (createDirs : Bool) (mode : Option Nat) (useSudo : Bool) (s : Hosts) : Prop :=
  ∀ {log log' result result' t t'},
    Runs (hashedHost sha cut) s
      (fileWrite sha.hex id path data false createDirs mode useSudo true) log result t →
    Runs (hashedHost sha cut) s
      (fileWrite sha.hex id path data false createDirs mode useSudo false) log' result' t' →
    t.bytes path = t'.bytes path ∧ (mode.isSome → t.modeOf path = t'.modeOf path) ∧
      ReportsMode path result t ∧ ReportsMode path result' t'

section Placed

variable {sha : Sha256} {cut : Cut} {id : StageId} {path : String} {data : Bytes}
  {createDirs : Bool} {mode : Option Nat} {useSudo ifChanged : Bool} {s t : Hosts}

theorem Placed.bytes (h : Placed path data mode s) : s.bytes path = some data := by
  obtain ⟨actual, hentry, -⟩ := h
  rw [Hosts.bytes, hentry]
  rfl

theorem Placed.modeOf (h : Placed path data mode s) {m : Nat} (hm : mode = some m) :
    s.modeOf path = some m := by
  obtain ⟨actual, hentry, hmode⟩ := h
  rw [Hosts.modeOf, hentry, hmode m hm]

/-- Where an equal file has the requested mode already, every run of a write places the data
and reports the requested mode. -/
theorem placed_of_runs
    (hdistinct : ∀ content, s.bytes path = some content → ¬ Collide sha.hex content data)
    (hmode : ∀ m current, mode = some m → s.remote path = some (.file data current) →
      current = some m) {log : List (Event HostOp HostOp.Reply Hosts)}
    {result : Except ErrorPayload FileOutcome}
    (hrun : Runs (hashedHost sha cut) s
      (fileWrite sha.hex id path data false createDirs mode useSudo ifChanged) log result t) :
    Placed path data mode t ∧ ∀ outcome, result = .ok outcome → outcome.mode = mode := by
  obtain ⟨-, hok, herror⟩ := (fileWrite_ends id data createDirs mode useSudo ifChanged []).sound
    hrun
  cases result with
  | error error => exact ⟨herror error rfl, nofun⟩
  | ok outcome =>
      obtain ⟨hplaced, houtcome⟩ := hok outcome rfl
      refine ⟨?_, fun _ hsame => by cases hsame; exact houtcome⟩
      rcases hplaced with hplaced | ⟨-, rfl, content, hcontent, hdigest⟩
      · exact hplaced
      · have hsame : content = data := by
          by_contra hne
          exact hdistinct content hcontent ⟨hne, hdigest⟩
        subst hsame
        obtain ⟨current, hentry⟩ := file_of_bytes hcontent
        exact ⟨current, hentry, fun m hm => hmode m current hm hentry⟩

end Placed

/-- The host with its hash tool at hand. -/
theorem hashedHost_answer (sha : Sha256) (cut : Cut) (s : Hosts) (op : HostOp) :
    hashedHost sha cut s op ((honestServer sha (fun _ => false) cut .correct).answer s op).1
      ((honestServer sha (fun _ => false) cut .correct).answer s op).2 := by
  cases op with
  | exec command stdin =>
      cases command with
      | sha256 path useSudo =>
          refine ⟨?_, .inl ⟨_, rfl⟩⟩
          simp only [Server.answer, Server.exec]
          split <;> rfl
      | tee _ _ | makeDir _ | chmod _ _ => rfl
  | _ => rfl

/-- The fast path leaves the host as it is. -/
theorem fileWrite_fast {sha : Sha256} {cut : Cut} {id : StageId} {path : String} {data : Bytes}
    {createDirs : Bool} {mode : Option Nat} {useSudo : Bool} {s : Hosts}
    (h : s.bytes path = some data) :
    (fileWrite sha.hex id path data false createDirs mode useSudo true).run
      (honestServer sha (fun _ => false) cut .correct).answer s =
        (.ok ⟨path, data.length, some (sha.hex data), true, false, mode, none⟩, s) := by
  have hconnection : (.ask .connection .ofExcept : FileCall Unit).run
      (honestServer sha (fun _ => false) cut .correct).answer s = (.ok (), s) := rfl
  have hquery := remoteSha256_run sha (fun _ => false) cut .correct (ε := ErrorPayload) h useSudo
  rw [if_neg (by simp)] at hquery
  rw [fileWrite, run_bind_ok hconnection]
  simp only [Bool.not_false, Bool.and_self, if_true]
  rw [run_bind_ok hquery, if_pos rfl]
  rfl

/-- The option changes nothing but the work, except where the file has the data and another
mode than the requested one. -/
theorem if_changed_only_optimises_iff (sha : Sha256) (cut : Cut) (id : StageId) (path : String)
    (data : Bytes) (createDirs : Bool) (mode : Option Nat) (useSudo : Bool) (s : Hosts)
    (hdistinct : ∀ content, s.bytes path = some content → ¬ Collide sha.hex content data) :
    OnlyOptimises sha cut id path data createDirs mode useSudo s ↔
      ∀ m current, mode = some m → s.remote path = some (.file data current) →
        current = some m := by
  constructor
  · intro h m current hm hentry
    have hbytes : s.bytes path = some data := by
      rw [Hosts.bytes, hentry]
      rfl
    have hruns := fun ifChanged => runs_of_handler (hashedHost_answer sha cut)
      (fileWrite sha.hex id path data false createDirs mode useSudo ifChanged) s
    have hreported := (h (hruns true) (hruns false)).2.2.1
    rw [fileWrite_fast hbytes] at hreported
    have hmode := hreported _ m rfl hm
    rwa [Hosts.modeOf, hentry] at hmode
  · intro hmode log log' result result' t t' hrun hrun'
    obtain ⟨hplaced, hresult⟩ := placed_of_runs hdistinct hmode hrun
    obtain ⟨hplaced', hresult'⟩ := placed_of_runs hdistinct hmode hrun'
    refine ⟨hplaced.bytes.trans hplaced'.bytes.symm, fun hsome => ?_, ?_, ?_⟩
    · obtain ⟨m, hm⟩ := Option.isSome_iff_exists.mp hsome
      rw [hplaced.modeOf hm, hplaced'.modeOf hm]
    · intro outcome m hok houtcome
      exact hplaced.modeOf ((hresult outcome hok).symm.trans houtcome)
    · intro outcome m hok houtcome
      exact hplaced'.modeOf ((hresult' outcome hok).symm.trans houtcome)

/-- One file under a mode. -/
def modedFile (content : Bytes) (mode : Nat) : Hosts where
  remote path := if path = "/f" then some (.file content (some mode)) else none
  here _ := none

theorem if_changed_only_optimises_iff_sameMode :
    OnlyOptimises fileSha .bytewise ⟨1, 2, 3⟩ "/f" [1] false (some 420) false
        (modedFile [1] 420) ↔
      ∀ m current, some 420 = some m →
        (modedFile [1] 420).remote "/f" = some (.file [1] current) → current = some m := by
  refine if_changed_only_optimises_iff fileSha .bytewise ⟨1, 2, 3⟩ "/f" [1] false (some 420) false
    (modedFile [1] 420) ?_
  intro content hcontent hcollide
  exact hcollide.1 (Option.some.inj hcontent).symm

/-- A private file is to become readable: its content is equal, so nothing is done, and the
answer reports the mode that was asked for. -/
theorem equal_content_keeps_mode :
    (∃ log outcome s', Runs (hashedHost fileSha .bytewise) (modedFile [1] 384)
        (fileWrite fileSha.hex ⟨1, 2, 3⟩ "/f" [1] false false (some 420) false true) log
        (.ok outcome) s' ∧ outcome.mode = some 420 ∧ s'.modeOf "/f" = some 384) ∧
      ∀ log result s', Runs (hashedHost fileSha .bytewise) (modedFile [1] 384)
        (fileWrite fileSha.hex ⟨1, 2, 3⟩ "/f" [1] false false (some 420) false false) log
        result s' → s'.modeOf "/f" = some 420 := by
  constructor
  · have hrun := runs_of_handler (hashedHost_answer fileSha .bytewise)
      (fileWrite fileSha.hex ⟨1, 2, 3⟩ "/f" [1] false false (some 420) false true)
      (modedFile [1] 384)
    rw [fileWrite_fast rfl] at hrun
    exact ⟨_, _, _, hrun, rfl, rfl⟩
  · intro log result s' hrun
    obtain ⟨-, hok, herror⟩ := (fileWrite_ends ⟨1, 2, 3⟩ [1] false (some 420) false false
      []).sound hrun
    cases result with
    | error error => exact (herror error rfl).modeOf rfl
    | ok outcome =>
        rcases (hok outcome rfl).1 with hplaced | ⟨hfast, -⟩
        · exact hplaced.modeOf rfl
        · cases hfast

end AiSsh
