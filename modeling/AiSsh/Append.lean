import AiSsh.FileWrite
import Mathlib.Data.List.TakeDrop

/-!
Appending to a file on a server that does what it is asked. Each operation of a write
has one lemma that says what it answers there and what the file holds afterwards; the
two branches of an append are put together from these.
-/

namespace AiSsh

open Library Program

def isHexDigit (c : Char) : Bool :=
  (48 ≤ c.toNat && c.toNat ≤ 57) || (97 ≤ c.toNat && c.toNat ≤ 102)

/-- SHA-256 in lower-case hexadecimal, as far as the code relies on it. -/
structure Sha256 where
  hex : Bytes → String
  size : ∀ data, (hex data).utf8ByteSize = 64
  lower : ∀ data, (hex data).toList.all isHexDigit

/-- What a server may answer to the size query on an open file. -/
inductive SizeReply
  | correct
  | omitted
  | failed
  deriving DecidableEq, Repr

def SizeReply.fstat : SizeReply → Bytes → Except SftpError Metadata
  | .correct, content => .ok ⟨some content.length⟩
  | .omitted, _ => .ok ⟨none⟩
  | .failed, _ => .error Server.sftpFailure

/-- The size that is read out of the reply. -/
def SizeReply.reported : SizeReply → Bytes → Nat
  | .correct, content => content.length
  | _, _ => 0

/-- A server with a hash tool on which everything succeeds but the size query. -/
def honestServer (sha : Sha256) (escapes : Char → Bool) (cut : Cut) (reply : SizeReply) :
    Server where
  hexDigest := sha.hex
  escapes := escapes
  cut := cut
  fails _ := false
  fstat := reply.fstat

theorem toLower_of_isHexDigit {c : Char} (h : isHexDigit c = true) : c.toLower = c := by
  simp only [isHexDigit, Bool.or_eq_true, Bool.and_eq_true, decide_eq_true_eq] at h
  have hupper : ¬ (c.val ≥ 'A'.val ∧ c.val ≤ 'Z'.val) := by
    rw [ge_iff_le, UInt32.le_iff_toNat_le, UInt32.le_iff_toNat_le]
    change ¬ (65 ≤ c.toNat ∧ c.toNat ≤ 90)
    omega
  exact dif_neg hupper

theorem not_isWhitespace_of_isHexDigit {c : Char} (h : isHexDigit c = true) :
    isWhitespace c = false := by
  simp only [isHexDigit, Bool.or_eq_true, Bool.and_eq_true, decide_eq_true_eq] at h
  simp [isWhitespace]
  omega

theorem firstWord_append {word : List Char} (hword : word ≠ [])
    (hplain : ∀ c ∈ word, isWhitespace c = false) (rest : List Char) :
    firstWord (.ofList (word ++ ' ' :: rest)) = some (.ofList word) := by
  have hspace : isWhitespace ' ' = true := rfl
  have hdrop : (word ++ ' ' :: rest).dropWhile isWhitespace = word ++ ' ' :: rest := by
    cases word with
    | nil => exact absurd rfl hword
    | cons c word => simp [hplain c List.mem_cons_self]
  have htake : (word ++ ' ' :: rest).takeWhile (fun c => !isWhitespace c) = word := by
    rw [List.takeWhile_append_of_pos (by simpa using hplain)]
    simp [hspace]
  simp only [firstWord, String.toList_ofList, hdrop, htake]

theorem Sha256.hex_ne_nil (sha : Sha256) (data : Bytes) : (sha.hex data).toList ≠ [] := by
  intro h
  have hsize := sha.size data
  rw [String.toList_eq_nil_iff.mp h] at hsize
  cases hsize

/-- A plain name's line, read back. -/
theorem parseDigest_line (sha : Sha256) (data : Bytes) (path : String) :
    parseDigest (sha.hex data ++ "  " ++ path ++ "\n") = some (sha.hex data) := by
  have hdigit := List.all_eq_true.mp (sha.lower data)
  have hline : sha.hex data ++ "  " ++ path ++ "\n" =
      .ofList ((sha.hex data).toList ++ ' ' :: (' ' :: path.toList ++ ['\n'])) := by
    apply String.toList_injective
    simp
  have hlower : toAsciiLowercase (sha.hex data) = sha.hex data := by
    rw [toAsciiLowercase, List.map_congr_left fun c hc => toLower_of_isHexDigit (hdigit c hc),
      List.map_id', String.ofList_toList]
  rw [parseDigest, hline, firstWord_append (sha.hex_ne_nil data) fun c hc =>
    not_isWhitespace_of_isHexDigit (hdigit c hc)]
  simp [sha.size, hlower]

/-- The digest is found unless a backslash stands before it. -/
theorem parseDigest_digestLine (sha : Sha256) (escapes : Char → Bool) (data : Bytes)
    (path : String) :
    parseDigest (digestLine escapes (sha.hex data) path) =
      if path.toList.any escapes then none else some (sha.hex data) := by
  have hdigit := List.all_eq_true.mp (sha.lower data)
  rw [digestLine]
  split
  · let name := path.toList.flatMap fun c => if escapes c then escapedChar c else [c]
    let word := '\\' :: (sha.hex data).toList
    have hline : "\\" ++ sha.hex data ++ "  " ++ .ofList name ++ "\n" =
        .ofList (word ++ ' ' :: (' ' :: name ++ ['\n'])) := by
      apply String.toList_injective
      simp [word]
    have hplain : ∀ c ∈ word, isWhitespace c = false := by
      intro c hc
      rcases List.mem_cons.mp hc with rfl | hc
      · rfl
      · exact not_isWhitespace_of_isHexDigit (hdigit c hc)
    have hword : String.ofList word = "\\" ++ sha.hex data := by
      apply String.toList_injective
      simp [word]
    have hsize : (String.ofList word).utf8ByteSize = 65 := by
      rw [hword, String.utf8ByteSize_append, sha.size]
      rfl
    rw [parseDigest, hline, firstWord_append (List.cons_ne_nil _ _) hplain, Option.filter_some,
      hsize]
    rfl
  · exact parseDigest_line sha data path

theorem readToEnd_chunks (limit : Nat) (chunks : List Bytes) :
    readToEnd limit (chunks.map .ok) = .ok (chunks.flatten.take limit) := by
  induction chunks generalizing limit with
  | nil => cases limit <;> simp [readToEnd]
  | cons chunk chunks ih =>
      cases limit with
      | zero => simp [readToEnd]
      | succ limit =>
          simp only [List.map_cons, readToEnd, ih, List.flatten_cons, List.take_append]
          rfl

section Honest

variable (sha : Sha256) (escapes : Char → Bool) (cut : Cut) (reply : SizeReply) {s : Hosts}
  {path : String}

theorem exec_run (s : Hosts) (command : RemoteCommand) (stdin : Bytes) :
    (.ask (.exec command stdin) .ofExcept : FileCall ExecOutput).run
      (honestServer sha escapes cut reply).answer s =
      (.ok ((honestServer sha escapes cut reply).exec s stdin command).1,
        ((honestServer sha escapes cut reply).exec s stdin command).2) := rfl

theorem remoteSha256_run {ε : Type} {content : Bytes} (h : s.bytes path = some content)
    (useSudo : Bool) :
    (remoteSha256 path useSudo : Program HostOp HostOp.Reply ε (Option String)).run
      (honestServer sha escapes cut reply).answer s =
      (.ok (if path.toList.any escapes then none else some (sha.hex content)), s) := by
  let line := digestLine escapes (sha.hex content) path
  have hexec : (honestServer sha escapes cut reply).exec s [] (.sha256 path useSudo) =
      (⟨some line, "", some 0⟩, s) := by
    simp [Server.exec, h, honestServer, line]
  have hhelper : (execHelper (.sha256 path useSudo)).run
      (honestServer sha escapes cut reply).answer s = (.ok (some line), s) := by
    rw [execHelper, run_bind_ok (exec_run ..), hexec]
    rfl
  rw [remoteSha256, run_handle_ok]
  rw [run_bind_ok hhelper, Option.bind_some, parseDigest_digestLine]
  rfl

theorem readCapped_run {existing : Bytes} (h : s.bytes path = some existing) (limit : Nat) :
    (readCapped path limit).run (honestServer sha escapes cut reply).answer s =
      (.ok (existing.take limit, reply.reported existing,
        reply.reported existing > (existing.take limit).length), s) := by
  have hopen : (.ask (.openRemote path) (sftpReply path) : Transfer _).run
      (honestServer sha escapes cut reply).answer s = (.ok (cut.reads SftpError existing), s) := by
    simp [Server.answer, h, honestServer, sftpReply, Except.mapError]
  have hread : readToEnd limit (cut.reads SftpError existing) = .ok (existing.take limit) := by
    rw [Cut.reads, readToEnd_chunks, cut.flatten]
  have hsize : ((reply.fstat existing).map Metadata.len).toOption.getD 0 =
      reply.reported existing := by
    cases reply <;> rfl
  rw [readCapped, run_bind_ok hopen]
  simp only [run_bind, run_ask, Server.answer, run_done, run_ofExcept, sftpReply, hread, h,
    Option.getD_some, hsize, honestServer]
  simp [Except.mapError]

theorem confirm_run {content : Bytes} (h : s.bytes path = some content) :
    (confirm path (sha.hex content) (some execRemoteHash)).run
      (honestServer sha escapes cut reply).answer s = (.ok (!path.toList.any escapes), s) := by
  have hhash := remoteSha256_run sha escapes cut reply (ε := String) h false
  rw [confirm, execRemoteHash, run_bind_ok hhash]
  cases path.toList.any escapes with
  | true => rfl
  | false => simp

theorem applyMode_run (s : Hosts) (path : String) (mode : Option Nat) :
    ∃ s', (applyMode path mode).run (honestServer sha escapes cut reply).answer s = (.ok (), s') ∧
      s'.bytes = s.bytes := by
  cases mode with
  | none => exact ⟨s, rfl, rfl⟩
  | some mode => exact ⟨s.setModeOf path mode, rfl, funext fun other => s.bytes_setModeOf ..⟩

theorem tryStat_run (s : Hosts) (path : String) :
    (tryStat path).run (honestServer sha escapes cut reply).answer s =
      (.ok ((s.remote path).map fun entry => ⟨entry.content.map List.length⟩), s) := by
  cases h : s.remote path <;> simp [tryStat, Server.answer, honestServer, h]

theorem promote_run {staged remote : String} (hne : staged ≠ remote) (s : Hosts) :
    ∃ s', (promote staged remote).run (honestServer sha escapes cut reply).answer s = (.ok (), s') ∧
      s'.bytes remote = s.bytes staged := by
  have hmoved (t : Hosts) :
      ((t.setRemote remote (t.remote staged)).setRemote staged none).bytes remote =
        t.bytes staged := by
    rw [Hosts.bytes, Hosts.setRemote_of_ne hne.symm, Hosts.setRemote_self, Hosts.bytes]
  rw [promote, run_bind_ok (tryStat_run ..)]
  cases s.remote remote with
  | none => exact ⟨_, rfl, hmoved s⟩
  | some entry =>
      have hkept : (s.setRemote remote none).bytes staged = s.bytes staged := by
        rw [Hosts.bytes, Hosts.setRemote_of_ne hne, Hosts.bytes]
      exact ⟨_, rfl, (hmoved _).trans hkept⟩

theorem orDiscard_run {α : Type} {staged : String} {p : Transfer α} {s s' : Hosts} {value : α}
    {handler : Handler HostOp HostOp.Reply Hosts} (h : p.run handler s = (.ok value, s')) :
    (orDiscard staged p).run handler s = (.ok value, s') :=
  run_handle_ok h _

theorem finishStaged_run {staged remote : String} (hne : staged ≠ remote) {content : Bytes}
    (h : s.bytes staged = some content) (mode : Option Nat) :
    ∃ s',
      (finishStaged staged remote (sha.hex content) content.length mode (some execRemoteHash)).run
          (honestServer sha escapes cut reply).answer s =
        (.ok ⟨content.length, sha.hex content, !staged.toList.any escapes, true⟩, s') ∧
      s'.bytes remote = some content := by
  let stored := Server.store (Server.store s staged content) staged content
  have hstored : stored.bytes staged = some content := Server.bytes_store ..
  obtain ⟨moded, hmode, hmoded⟩ := applyMode_run sha escapes cut reply stored staged mode
  obtain ⟨last, hlast, hbytes⟩ := promote_run sha escapes cut reply hne moded
  refine ⟨last, ?_, by rw [hbytes, hmoded, hstored]⟩
  have hflush : (orDiscard staged (.ask (.flushRemote staged) (sftpReply staged))).run
      (honestServer sha escapes cut reply).answer s = (.ok (), Server.store s staged content) := by
    refine orDiscard_run ?_
    simp [Server.answer, Server.call, honestServer, h, sftpReply, Except.mapError]
  have hclose : (orDiscard staged (.ask (.closeRemote staged) (sftpReply staged))).run
      (honestServer sha escapes cut reply).answer (Server.store s staged content) =
        (.ok (), stored) := by
    refine orDiscard_run ?_
    simp [Server.answer, Server.call, honestServer, sftpReply, Except.mapError,
      Server.bytes_store, stored]
  rw [finishStaged, run_bind_ok hflush, run_bind_ok hclose,
    run_bind_ok (confirm_run sha escapes cut reply hstored), run_bind_ok (orDiscard_run hmode),
    run_bind_ok hlast]
  rfl

theorem writeStaged_run (id : StageId) (remote : String) (data : Bytes) (mode : Option Nat)
    (s : Hosts) :
    ∃ s', (writeStaged sha.hex id remote data mode (some execRemoteHash)).run
          (honestServer sha escapes cut reply).answer s =
        (.ok ⟨data.length, sha.hex data, !(stagedPath id remote).toList.any escapes, true⟩, s') ∧
      s'.bytes remote = some data := by
  let staged := stagedPath id remote
  let created := s.setRemote staged (some (.file [] none))
  have hcreated : created.bytes staged = some [] := by
    simp [created, Hosts.bytes, Entry.content]
  obtain ⟨last, hlast, hbytes⟩ := finishStaged_run sha escapes cut reply
    (stagedPath_ne id remote) (Server.bytes_store created staged data) mode
  refine ⟨last, ?_, hbytes⟩
  have hcreate : (.ask (.createRemote staged) (sftpReply staged) : Transfer Unit).run
      (honestServer sha escapes cut reply).answer s = (.ok (), created) := rfl
  have hwrite : (orDiscard staged (.ask (.writeRemote staged data) (sftpReply staged))).run
      (honestServer sha escapes cut reply).answer created =
        (.ok (), Server.store created staged data) := by
    refine orDiscard_run ?_
    simp [Server.answer, Server.call, honestServer, sftpReply, Except.mapError, hcreated]
  rw [writeStaged, run_bind_ok hcreate, run_bind_ok hwrite, hlast]

/-- Creating a directory and its parents leaves every longer path alone. -/
theorem makeDir_run (path : String) (parents : Bool) (mode : Option Nat) (s : Hosts) :
    ∃ s', (makeDir path parents mode).run (honestServer sha escapes cut reply).answer s =
        (.ok (), s') ∧
      ∀ other, path.length < other.length → s'.bytes other = s.bytes other := by
  induction path, parents, mode using makeDir.induct generalizing s with
  | _ path parents mode ih =>
      rw [makeDir, run_bind_ok (tryStat_run ..)]
      cases s.remote path with
      | some entry => exact ⟨s, rfl, fun _ _ => rfl⟩
      | none =>
          have hcreate (t : Hosts) : ∃ s',
              (createDir path >>= fun _ => applyMode path mode).run
                (honestServer sha escapes cut reply).answer t = (.ok (), s') ∧
              ∀ other, path.length < other.length → s'.bytes other = t.bytes other := by
            obtain ⟨moded, hmode, hmoded⟩ := applyMode_run sha escapes cut reply
              (t.setRemote path (some .directory)) path mode
            refine ⟨moded, hmode, fun other hlonger => ?_⟩
            rw [hmoded, Hosts.bytes, Hosts.setRemote_of_ne, Hosts.bytes]
            rintro rfl
            exact Nat.lt_irrefl _ hlonger
          simp only [Option.map_none]
          split
          · rename_i parent hparent
            split
            · obtain ⟨mid, hmid, hkept⟩ := ih parent hparent s
              obtain ⟨last, hlast, hlonger⟩ := hcreate mid
              refine ⟨last, ?_, ?_⟩
              · rw [run_bind_ok hmid, hlast]
              · intro other hother
                rw [hlonger other hother, hkept other ((parentOf_length hparent).trans hother)]
            · exact hcreate s
          · exact hcreate s

theorem sudoMakeDir_run {parent : String} (hparent : parentOf path = some parent) (s : Hosts) :
    ∃ s', (sudoMakeDir parent).run (honestServer sha escapes cut reply).answer s = (.ok (), s') ∧
      s'.bytes path = s.bytes path := by
  refine ⟨_, rfl, ?_⟩
  have hne : path ≠ parent := by
    rintro rfl
    exact Nat.lt_irrefl _ (parentOf_length hparent)
  change (if s.remote parent = none then s.setRemote parent (some .directory) else s).bytes path = _
  split
  · rw [Hosts.bytes, Hosts.setRemote_of_ne hne, Hosts.bytes]
  · rfl

theorem makeParent_run (make : String → FileCall Unit) (createDirs : Bool) (s : Hosts)
    (hmake : ∀ parent, parentOf path = some parent →
      ∃ s', (make parent).run (honestServer sha escapes cut reply).answer s = (.ok (), s') ∧
        s'.bytes path = s.bytes path) :
    ∃ s', (makeParent path createDirs make).run (honestServer sha escapes cut reply).answer s =
        (.ok (), s') ∧
      s'.bytes path = s.bytes path := by
  rw [makeParent]
  split
  · split
    · rename_i parent hparent
      exact hmake parent hparent
    · exact ⟨s, rfl, rfl⟩
  · exact ⟨s, rfl, rfl⟩

theorem sudoApplyMode_run (path : String) (mode : Option Nat) (s : Hosts) :
    ∃ s', (sudoApplyMode path mode).run (honestServer sha escapes cut reply).answer s =
        (.ok (), s') ∧
      s'.bytes = s.bytes := by
  cases mode with
  | none => exact ⟨s, rfl, rfl⟩
  | some mode => exact ⟨s.setModeOf path mode, rfl, funext fun other => s.bytes_setModeOf ..⟩

/-- A privileged append has put the bytes in place, whatever it answers. -/
theorem fileWriteSudo_run {existing : Bytes} (h : s.bytes path = some existing) (data : Bytes)
    (createDirs : Bool) (mode : Option Nat) :
    ∃ s',
      (fileWriteSudo sha.hex path data true createDirs mode).run
          (honestServer sha escapes cut reply).answer s =
        (if path.toList.any escapes = false ∧ sha.hex (existing ++ data) = sha.hex data then
          .ok ⟨path, data.length, some (sha.hex data), true, true, mode, none⟩
        else
          .error (.new "TRANSFER_VERIFY_FAILED"
            (path ++ " does not match the bytes that were sent")), s') ∧
      s'.bytes path = some (existing ++ data) := by
  obtain ⟨made, hmake, hmade⟩ := makeParent_run sha escapes cut reply sudoMakeDir createDirs s
    fun parent hparent => sudoMakeDir_run sha escapes cut reply hparent s
  rw [h] at hmade
  have hwrite : (sudoWrite path data true).run (honestServer sha escapes cut reply).answer made =
      (.ok (), Server.store made path (existing ++ data)) := by
    rw [sudoWrite, run_bind_ok (exec_run ..)]
    simp [Server.exec, hmade, checkExit]
  obtain ⟨last, hmode, hlast⟩ := sudoApplyMode_run sha escapes cut reply path mode
    (Server.store made path (existing ++ data))
  have hbytes : last.bytes path = some (existing ++ data) := by
    rw [hlast, Server.bytes_store]
  have hhash := remoteSha256_run sha escapes cut reply (ε := ErrorPayload) hbytes true
  refine ⟨last, ?_, hbytes⟩
  rw [fileWriteSudo, run_bind_ok hmake, run_bind_ok hwrite, run_bind_ok hmode, run_bind_ok hhash]
  cases path.toList.any escapes with
  | true => rfl
  | false =>
      simp only [Bool.false_eq_true, if_false, true_and, Option.some.injEq]
      split
      · rfl
      · rfl

theorem combined_run {existing : Bytes} (h : s.bytes path = some existing) (data : Bytes) :
    (combined path data).run (honestServer sha escapes cut reply).answer s =
      (if reply.reported existing > (existing.take appendReadLimit).length then
        .error (.new "INVALID_ARGUMENT" (path ++ " is " ++ toString (reply.reported existing) ++
          " bytes, above the " ++ toString appendReadLimit ++
          " byte in-place append limit; upload the full replacement instead"))
      else
        .ok (existing.take appendReadLimit ++ data), s) := by
  have hread := run_handle_ok (readCapped_run sha escapes cut reply h appendReadLimit)
    fun error => (.fail (classifyError error) : FileCall _)
  rw [combined, mapError, run_bind_ok hread]
  simp only
  split
  · rfl
  · rfl

/-- An append over SFTP rewrites the file with what it has read of it, unless the
reported size is larger. -/
theorem fileWriteSftp_run {existing : Bytes} (h : s.bytes path = some existing) (id : StageId)
    (data : Bytes) (createDirs : Bool) (mode : Option Nat) :
    ∃ result s',
      (fileWriteSftp sha.hex id path data true createDirs mode).run
        (honestServer sha escapes cut reply).answer s = (result, s') ∧
      if reply.reported existing > (existing.take appendReadLimit).length then
        (∃ error, result = .error error) ∧ s'.bytes path = some existing
      else
        (∃ outcome, result = .ok outcome) ∧
          s'.bytes path = some (existing.take appendReadLimit ++ data) := by
  obtain ⟨made, hmake, hmade⟩ := makeParent_run sha escapes cut reply
    (fun parent => (makeDir parent true none).mapError classifyError) createDirs s
    fun parent hparent => by
      obtain ⟨t, hmake, hkept⟩ := makeDir_run sha escapes cut reply parent true none s
      exact ⟨t, run_handle_ok hmake _, hkept path (parentOf_length hparent)⟩
  rw [h] at hmade
  have hcombined := combined_run sha escapes cut reply hmade data
  have hconnection : (.ask .connection .ofExcept : FileCall Unit).run
      (honestServer sha escapes cut reply).answer s = (.ok (), s) := rfl
  have hchannel : (.ask .sftpChannel .ofExcept : FileCall Unit).run
      (honestServer sha escapes cut reply).answer s = (.ok (), s) := rfl
  rw [fileWriteSftp, run_bind_ok hconnection, run_bind_ok hchannel, run_bind_ok hmake]
  simp only [if_true]
  split at hcombined
  · rename_i hlarge
    refine ⟨_, made, by rw [run_bind, hcombined], ?_⟩
    rw [if_pos hlarge]
    exact ⟨⟨_, rfl⟩, hmade⟩
  · rename_i hfits
    obtain ⟨last, hwrite, hlast⟩ := writeStaged_run sha escapes cut reply id path
      (existing.take appendReadLimit ++ data) mode made
    rw [run_bind_ok hcombined, mapError, run_bind_ok (run_handle_ok hwrite _)]
    refine ⟨_, last, rfl, ?_⟩
    rw [if_neg hfits]
    exact ⟨⟨_, rfl⟩, hlast⟩

end Honest

/-- What an append promises: on success the data is at the end of the file, on failure
the file is as before. -/
def Appends (path : String) (existing data : Bytes) :
    Except ErrorPayload FileOutcome × Hosts → Prop
  | (.ok _, s) => s.bytes path = some (existing ++ data)
  | (.error _, s) => s.bytes path = some existing

/-- Two contents of one digest. -/
def Collide (hexDigest : Bytes → String) (a b : Bytes) : Prop :=
  a ≠ b ∧ hexDigest a = hexDigest b

/-- What the two branches of an append do, seen from `fileWrite`. -/
theorem fileWrite_append (hexDigest : Bytes → String) (server : Server) (id : StageId)
    (path : String) (data : Bytes) (createDirs : Bool) (mode : Option Nat)
    (useSudo ifChanged : Bool) (s : Hosts) :
    (fileWrite hexDigest id path data true createDirs mode useSudo ifChanged).run
        server.answer s =
      if useSudo then (fileWriteSudo hexDigest path data true createDirs mode).run server.answer s
      else (fileWriteSftp hexDigest id path data true createDirs mode).run server.answer s := by
  have hconnection : (.ask .connection .ofExcept : FileCall Unit).run server.answer s =
      (.ok (), s) := rfl
  rw [fileWrite, run_bind_ok hconnection]
  simp only [Bool.not_true, Bool.and_false, Bool.false_eq_true, if_false, pure_bind,
    reduceCtorEq]
  split
  · rfl
  · rfl

theorem sudo_append_exact_iff (sha : Sha256) (escapes : Char → Bool) (cut : Cut)
    (reply : SizeReply) (path : String) (existing data : Bytes) (createDirs : Bool)
    (mode : Option Nat) (start : Hosts) (h : start.bytes path = some existing) :
    Appends path existing data ((fileWriteSudo sha.hex path data true createDirs mode).run
        (honestServer sha escapes cut reply).answer start) ↔
      data = [] ∨ path.toList.any escapes = false ∧
        (existing = [] ∨ Collide sha.hex (existing ++ data) data) := by
  obtain ⟨last, hrun, hbytes⟩ := fileWriteSudo_run sha escapes cut reply h data createDirs mode
  rw [hrun]
  split
  · rename_i hdigest
    refine iff_of_true hbytes (.inr ⟨hdigest.1, ?_⟩)
    by_cases hnil : existing = []
    · exact .inl hnil
    · exact .inr ⟨by simpa using hnil, hdigest.2⟩
  · rename_i hdigest
    change last.bytes path = some existing ↔ _
    rw [hbytes, Option.some.injEq, List.append_right_eq_self]
    constructor
    · exact .inl
    · rintro (hnil | ⟨hplain, rfl | hcollide⟩)
      · exact hnil
      · exact absurd ⟨hplain, rfl⟩ hdigest
      · exact absurd ⟨hplain, hcollide.2⟩ hdigest

theorem sftp_append_exact_iff (sha : Sha256) (escapes : Char → Bool) (cut : Cut)
    (reply : SizeReply) (id : StageId) (path : String) (existing data : Bytes)
    (createDirs : Bool) (mode : Option Nat) (start : Hosts) (h : start.bytes path = some existing) :
    Appends path existing data ((fileWriteSftp sha.hex id path data true createDirs mode).run
        (honestServer sha escapes cut reply).answer start) ↔
      existing.length ≤ appendReadLimit ∨ reply = .correct := by
  obtain ⟨result, last, hrun, hresult⟩ :=
    fileWriteSftp_run sha escapes cut reply h id data createDirs mode
  rw [hrun]
  have hlength := existing.length_take (i := appendReadLimit)
  split at hresult
  · rename_i hlarge
    obtain ⟨⟨error, rfl⟩, hbytes⟩ := hresult
    refine iff_of_true hbytes (.inr ?_)
    cases reply with
    | correct => rfl
    | omitted => exact absurd hlarge (Nat.not_lt_zero _)
    | failed => exact absurd hlarge (Nat.not_lt_zero _)
  · rename_i hfits
    obtain ⟨⟨outcome, rfl⟩, hbytes⟩ := hresult
    change last.bytes path = some (existing ++ data) ↔ _
    rw [hbytes, Option.some.injEq, List.append_cancel_right_eq, List.take_eq_self_iff]
    constructor
    · exact .inl
    · rintro (hle | rfl)
      · exact hle
      · change ¬ existing.length > _ at hfits
        omega

/-- Exactly when an append has put the data at the end of the file if it says so, and
has left the file alone otherwise: over SFTP when the file is not larger than what is
read of it or the server reports its size, with `sudo` when there is nothing to append or
the digest of the data is that of the whole file and is told, the hash tool escaping no
character of the path. -/
theorem append_exact_iff (sha : Sha256) (escapes : Char → Bool) (cut : Cut) (reply : SizeReply)
    (id : StageId) (path : String) (existing data : Bytes) (createDirs : Bool)
    (mode : Option Nat) (useSudo ifChanged : Bool) (start : Hosts)
    (h : start.bytes path = some existing) :
    Appends path existing data
        ((fileWrite sha.hex id path data true createDirs mode useSudo ifChanged).run
          (honestServer sha escapes cut reply).answer start) ↔
      if useSudo then
        data = [] ∨ path.toList.any escapes = false ∧
          (existing = [] ∨ Collide sha.hex (existing ++ data) data)
      else
        existing.length ≤ appendReadLimit ∨ reply = .correct := by
  rw [fileWrite_append]
  split
  · exact sudo_append_exact_iff sha escapes cut reply path existing data createDirs mode start h
  · exact sftp_append_exact_iff sha escapes cut reply id path existing data createDirs mode start h

/-- SHA-256 of the byte strings of 1 and 2 up to their concatenation. -/
def fileDigest : Bytes → String
  | [] => "e3b0c44298fc1c149afbf4c8996fb92427ae41e4649b934ca495991b7852b855"
  | [1] => "4bf5122f344554c53bde2ebb8cd2b7e3d1600ad631c385a5d7cce23c7785459a"
  | [2] => "dbc1b4c900ffe48d575b5da5c638040125f65db0fe3e24494b76ea986457d986"
  | [1, 2] => "a12871fee210fb8619291eaea194581cbd2531e4b23759d225f6806923f63222"
  | _ => "0000000000000000000000000000000000000000000000000000000000000000"

/-- A literal is its list of characters as it stands. -/
theorem all_ofList {p : Char → Bool} {text : List Char} (h : text.all p = true) :
    (String.ofList text).toList.all p = true := by
  rw [String.toList_ofList]
  exact h

def fileSha : Sha256 where
  hex := fileDigest
  size := by
    intro data
    simp only [fileDigest]
    split <;> rfl
  lower := by
    intro data
    simp only [fileDigest]
    split <;> exact all_ofList (by decide)

/-- The characters that `sha256sum` escapes. -/
def sha256sumEscapes (c : Char) : Bool := c == '\\' || c == '\n' || c == '\r'

def oneFile (content : Bytes) : Hosts where
  remote path := if path = "/f" then some (.file content none) else none
  here _ := none

/-- A small file over SFTP, and an empty one with `sudo`. -/
theorem append_exact_iff_small :
    Appends "/f" [1] [2] ((fileWrite fileSha.hex ⟨1, 2, 3⟩ "/f" [2] true true none false false).run
      (honestServer fileSha sha256sumEscapes .bytewise .omitted).answer (oneFile [1])) ∧
    Appends "/f" [] [2] ((fileWrite fileSha.hex ⟨1, 2, 3⟩ "/f" [2] true true none true false).run
      (honestServer fileSha sha256sumEscapes .bytewise .failed).answer (oneFile [])) := by
  constructor
  · exact (append_exact_iff fileSha sha256sumEscapes .bytewise .omitted ⟨1, 2, 3⟩ "/f" [1] [2] true
      none false false (oneFile [1]) (by decide)).mpr (.inl (by decide))
  · exact (append_exact_iff fileSha sha256sumEscapes .bytewise .failed ⟨1, 2, 3⟩ "/f" [] [2] true
      none true false (oneFile []) (by decide)).mpr (.inr ⟨by decide, .inl rfl⟩)

/-- With `sudo` the byte 2 is appended to a file of the byte 1 and the answer is that the
write failed. -/
theorem sudo_append_fails_after_writing :
    ∃ error last, (fileWrite fileSha.hex ⟨1, 2, 3⟩ "/f" [2] true true none true false).run
        (honestServer fileSha sha256sumEscapes .bytewise .correct).answer (oneFile [1]) =
          (.error error, last) ∧
      error.code = "TRANSFER_VERIFY_FAILED" ∧ last.bytes "/f" = some [1, 2] := by
  have hfile : (oneFile [1]).bytes "/f" = some [1] := rfl
  have hdigest : fileSha.hex ([1] ++ [2]) ≠ fileSha.hex [2] := by decide
  obtain ⟨last, hrun, hbytes⟩ := fileWriteSudo_run fileSha sha256sumEscapes .bytewise .correct
    hfile [2] true none
  rw [if_neg fun h => hdigest h.2] at hrun
  exact ⟨_, last, (fileWrite_append ..).trans hrun, rfl, hbytes⟩

end AiSsh
