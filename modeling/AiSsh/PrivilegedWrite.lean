import AiSsh.Append

/-!
A privileged write, seen from its destination. `tee` truncates the destination when it
opens it and then writes what it receives in order, in pieces of any size; it may stop
after any piece, and any answer may be missing. A run keeps what `tee` has done: nothing
until it opens the file, then the pieces it has written.
-/

namespace AiSsh

open Library Program

/-- The pieces `tee` has written, once it has opened the destination. -/
abbrev Written : Type := Option (List Bytes)

abbrev PrivilegedLog : Type := List (Event HostOp HostOp.Reply Written)

/-- The commands that leave the destination's content alone and tell nothing of it. -/
def RemoteCommand.preparatory : RemoteCommand → Bool
  | .makeDir _ | .chmod _ _ => true
  | .sha256 _ _ | .tee _ _ => false

/-- The content of a destination that held `before`. -/
def Written.content (before : Option Bytes) : Written → Option Bytes
  | none => before
  | some pieces => some pieces.flatten

def Succeeded : Except ErrorPayload ExecOutput → Prop
  | .ok output => output.exit = some 0
  | .error _ => False

/-- A host on which any call may fail. `tee` exits with zero when it has written all it
was sent. -/
def privilegedHost : Env HostOp HostOp.Reply Written
  | written, .exec (.tee _ _) stdin, reply, written' =>
      written' = written ∧ ¬Succeeded reply ∨
        ∃ pieces, written' = some pieces ∧ [] ∉ pieces ∧ pieces.flatten <+: stdin ∧
          (Succeeded reply → pieces.flatten = stdin)
  | written, _, _, written' => written' = written

/-- A digest query was answered so. -/
def Answers (digest : String) : Event HostOp HostOp.Reply Written → Prop
  | ⟨.exec (.sha256 _ _) _, .ok output, _⟩ =>
      output.exit = some 0 ∧ output.stdout.bind parseDigest = some digest
  | _ => False

def TeeSucceeded : Event HostOp HostOp.Reply Written → Prop
  | ⟨.exec (.tee _ _) _, reply, _⟩ => Succeeded reply
  | _ => False

def WriteSucceeded (log : PrivilegedLog) : Prop := ∃ event ∈ log, TeeSucceeded event

/-- A host without a hashing tool. -/
def NoDigest (log : PrivilegedLog) : Prop := ∀ event ∈ log, ∀ digest, ¬Answers digest event

def Confirmed (digest : String) (log : PrivilegedLog) : Prop := ∃ event ∈ log, Answers digest event

/-- What a staged write promises of its destination: no content on the way but the
previous one and the data, an error only with the previous content in place, and no
error for want of a hashing tool. -/
structure StagedGuarantee (before : Option Bytes) (data : Bytes) (log : PrivilegedLog)
    (result : Except ErrorPayload FileOutcome) (written : Written) : Prop where
  neverMixed : ∀ pieces, written = some pieces → ∀ front, front <+: pieces →
    some front.flatten = before ∨ front.flatten = data
  untouched : ∀ error, result = .error error → written.content before = before
  unverified : WriteSucceeded log → NoDigest log →
    ∃ outcome, result = .ok outcome ∧ outcome.verified = false

/-- `tee` does not open the destination, or it finds no bytes to lose on one side, does
not stop between two pieces, and the write is confirmed or has left an empty file empty
for another reason than a missing tool. -/
def Harmless (before : Option Bytes) (data : Bytes) (digest : String) (log : PrivilegedLog)
    (written : Written) : Prop :=
  written = none ∨ ∃ pieces, written = some pieces ∧ (before = some [] ∨ data = []) ∧
    (pieces = [] ∨ pieces = [data]) ∧
    (Confirmed digest log ∨
      pieces = [] ∧ before = some [] ∧ ¬(WriteSucceeded log ∧ NoDigest log))

/-- A run whose write is not confirmed yet. -/
structure Pending (data : Bytes) (digest : String) (log : PrivilegedLog) (written : Written) :
    Prop where
  unconfirmed : ¬Confirmed digest log
  idle : written = none → ¬WriteSucceeded log
  wrote : ∀ pieces, written = some pieces →
    [] ∉ pieces ∧ pieces.flatten <+: data ∧ (WriteSucceeded log → pieces.flatten = data)

theorem writeSucceeded_concat {log : PrivilegedLog} {event : Event HostOp HostOp.Reply Written} :
    WriteSucceeded (log ++ [event]) ↔ WriteSucceeded log ∨ TeeSucceeded event := by
  simp only [WriteSucceeded, List.mem_append, List.mem_singleton, or_and_right, exists_or,
    exists_eq_left]

theorem confirmed_concat {digest : String} {log : PrivilegedLog}
    {event : Event HostOp HostOp.Reply Written} :
    Confirmed digest (log ++ [event]) ↔ Confirmed digest log ∨ Answers digest event := by
  simp only [Confirmed, List.mem_append, List.mem_singleton, or_and_right, exists_or,
    exists_eq_left]

section Steps

variable {data : Bytes} {digest : String} {log : PrivilegedLog} {written : Written}

/-- A call that neither writes nor confirms. -/
theorem Pending.step (h : Pending data digest log written)
    {event : Event HostOp HostOp.Reply Written} (hafter : event.after = written)
    (hanswers : ¬Answers digest event) (htee : ¬TeeSucceeded event) :
    Pending data digest (log ++ [event]) event.after where
  unconfirmed := by
    rw [confirmed_concat]
    exact not_or.mpr ⟨h.unconfirmed, hanswers⟩
  idle := by
    rw [hafter, writeSucceeded_concat]
    exact fun hnone => not_or.mpr ⟨h.idle hnone, htee⟩
  wrote := by
    rw [hafter, writeSucceeded_concat]
    intro pieces hpieces
    obtain ⟨hnonempty, hfront, hall⟩ := h.wrote pieces hpieces
    exact ⟨hnonempty, hfront, fun hsucceeded => hall (hsucceeded.resolve_right htee)⟩

/-- What a part of the write achieves; when it fails the write is still pending. -/
abbrev Holds {α : Type} (data : Bytes) (digest : String) (Q : α → PrivilegedLog → Written → Prop)
    (p : FileCall α) (log : PrivilegedLog) (written : Written) : Prop :=
  Ensures privilegedHost (fun _ _ => True) Q (fun _ => Pending data digest) p log written

theorem connection_holds (h : Pending data digest log written) :
    Holds data digest (fun _ log written' => Pending data digest log written' ∧ written' = written)
      (.ask .connection .ofExcept) log written := by
  intro reply written' hanswer
  have hstep : Pending data digest (log ++ [⟨.connection, reply, written'⟩]) written' :=
    h.step hanswer id id
  refine ⟨trivial, ?_⟩
  cases reply with
  | ok _ => exact ⟨hstep, hanswer⟩
  | error error => exact hstep

/-- A helper command that is neither a write nor a digest query. -/
theorem execHelper_holds {command : RemoteCommand} (h : Pending data digest log written)
    (hcommand : command.preparatory = true) :
    Holds data digest (fun _ log written' => Pending data digest log written' ∧ written' = written)
      (execHelper command) log written := by
  intro reply written' hanswer
  have hafter : written' = written := by
    cases command with
    | sha256 path useSudo | tee path append => cases hcommand
    | makeDir path | chmod path mode => exact hanswer
  have hstep : Pending data digest (log ++ [⟨.exec command [], reply, written'⟩]) written' := by
    cases command with
    | sha256 path useSudo | tee path append => cases hcommand
    | makeDir path | chmod path mode =>
        exact h.step hafter id id
  refine ⟨trivial, ?_⟩
  cases reply with
  | error error => exact hstep
  | ok output =>
      show Holds data digest _ (checkExit "helper command" output) _ _
      rw [checkExit]
      split
      · exact ⟨hstep, hafter⟩
      · exact hstep

theorem makeParent_holds {path : String} {createDirs : Bool}
    (h : Pending data digest log written) :
    Holds data digest (fun _ log written' => Pending data digest log written' ∧ written' = written)
      (makeParent path createDirs sudoMakeDir) log written := by
  rw [makeParent]
  split
  · split
    · exact (execHelper_holds h rfl).bind fun _ _ _ hmade => hmade
    · exact ⟨h, rfl⟩
  · exact ⟨h, rfl⟩

theorem sudoApplyMode_holds {path : String} {mode : Option Nat}
    (h : Pending data digest log written) :
    Holds data digest (fun _ => Pending data digest) (sudoApplyMode path mode) log written := by
  cases mode with
  | none => exact h
  | some mode =>
      refine Ensures.handle (R := fun _ => Pending data digest) ?_ fun _ _ _ hfailed => hfailed
      exact (execHelper_holds h rfl).bind fun _ _ _ hset => hset.1

/-- The write itself: on success `tee` has written all of the data. -/
theorem sudoWrite_holds {path : String} (h : Pending data digest log none) :
    Holds data digest
      (fun _ log written => Pending data digest log written ∧ WriteSucceeded log)
      (sudoWrite path data false) log none := by
  intro reply written' hanswer
  have hstep : Pending data digest (log ++ [⟨.exec (.tee path false) data, reply, written'⟩])
      written' := by
    have hidle := h.idle rfl
    refine ⟨?_, ?_, ?_⟩
    · rw [confirmed_concat]
      exact not_or.mpr ⟨h.unconfirmed, id⟩
    · rintro rfl
      rw [writeSucceeded_concat]
      refine not_or.mpr ⟨hidle, ?_⟩
      rcases hanswer with ⟨-, hfailed⟩ | ⟨pieces, hpieces, -⟩
      · exact hfailed
      · cases hpieces
    · rintro pieces rfl
      rw [writeSucceeded_concat]
      rcases hanswer with ⟨hnone, -⟩ | ⟨pieces', hpieces, hnonempty, hfront, hall⟩
      · cases hnone
      · cases hpieces
        exact ⟨hnonempty, hfront, fun hsucceeded => hall (hsucceeded.resolve_left hidle)⟩
  refine ⟨trivial, ?_⟩
  cases reply with
  | error error => exact hstep
  | ok output =>
      show Holds data digest _ (checkExit "privileged write" output >>= fun _ => pure ()) _ _
      rw [checkExit]
      split
      · rename_i hexit
        exact ⟨hstep, writeSucceeded_concat.mpr (.inr hexit)⟩
      · exact hstep

/-- What a digest query makes of its reply. -/
def digestOf (reply : Except ErrorPayload ExecOutput) : Option String :=
  match reply with
  | .ok output => if output.exit = some 0 then output.stdout.bind parseDigest else none
  | .error _ => none

theorem answers_iff {path : String} {useSudo : Bool} {stdin : Bytes}
    {reply : Except ErrorPayload ExecOutput} {after : Written} :
    Answers digest ⟨.exec (.sha256 path useSudo) stdin, reply, after⟩ ↔
      digestOf reply = some digest := by
  cases reply with
  | error error => exact iff_of_false id nofun
  | ok output => simp [Answers, digestOf]

/-- A digest query: it is answered by the expected digest, or the write stays pending. -/
theorem remoteSha256_holds {path : String} {useSudo : Bool}
    (h : Pending data digest log written) :
    Holds data digest
      (fun answer log' written' => written' = written ∧
        (WriteSucceeded log' ↔ WriteSucceeded log) ∧
        if answer = some digest then Confirmed digest log'
        else Pending data digest log' written')
      (remoteSha256 path useSudo) log written := by
  intro reply written' hanswer
  let event : Event HostOp HostOp.Reply Written :=
    ⟨.exec (.sha256 path useSudo) [], reply, written'⟩
  have hwrite : WriteSucceeded (log ++ [event]) ↔ WriteSucceeded log := by
    rw [writeSucceeded_concat]
    exact or_iff_left id
  have hfacts : ∀ answer, digestOf reply = answer → written' = written ∧
      (WriteSucceeded (log ++ [event]) ↔ WriteSucceeded log) ∧
      if answer = some digest then Confirmed digest (log ++ [event])
      else Pending data digest (log ++ [event]) written' := by
    intro answer hvalue
    refine ⟨hanswer, hwrite, ?_⟩
    split
    · rename_i hdigest
      exact confirmed_concat.mpr (.inr (answers_iff.mpr (hvalue.trans hdigest)))
    · rename_i hdigest
      refine h.step hanswer (fun hevent => hdigest ?_) id
      exact hvalue.symm.trans (answers_iff.mp hevent)
  refine ⟨trivial, ?_⟩
  cases reply with
  | error error => exact hfacts none rfl
  | ok output =>
      show Holds data digest _ (((checkExit "helper command" output >>= fun output =>
        pure (output.bind parseDigest)) : FileCall _).handle fun _ => .done none) _ _
      rw [checkExit]
      split
      · rename_i hexit
        exact hfacts _ (if_pos hexit)
      · rename_i hexit
        exact hfacts _ (if_neg hexit)

theorem Pending.wrote_all (h : Pending data digest log written) (hwrite : WriteSucceeded log) :
    ∃ pieces, written = some pieces ∧ [] ∉ pieces ∧ pieces.flatten = data := by
  cases written with
  | none => exact absurd hwrite (h.idle rfl)
  | some pieces =>
      obtain ⟨hnonempty, -, hall⟩ := h.wrote pieces rfl
      exact ⟨pieces, rfl, hnonempty, hall hwrite⟩

/-- A write that was confirmed. -/
def Verified (data : Bytes) (digest : String) (log : PrivilegedLog) (written : Written) : Prop :=
  Confirmed digest log ∧ ∃ pieces, written = some pieces ∧ [] ∉ pieces ∧ pieces.flatten = data

/-- A privileged write succeeds only when its digest was confirmed. -/
theorem fileWriteSudo_holds {hexDigest : Bytes → String} {path : String} {createDirs : Bool}
    {mode : Option Nat} (h : Pending data (hexDigest data) log none) :
    Holds data (hexDigest data) (fun _ => Verified data (hexDigest data))
      (fileWriteSudo hexDigest path data false createDirs mode) log none := by
  rw [fileWriteSudo]
  refine (makeParent_holds h).bind ?_
  rintro _ log written ⟨hmade, rfl⟩
  refine (sudoWrite_holds hmade).bind ?_
  rintro _ log written ⟨hsent, event, hevent, htee⟩
  refine ((sudoApplyMode_holds hsent).keeps hevent).bind ?_
  rintro _ log written ⟨hset, hevent⟩
  refine (remoteSha256_holds hset).bind ?_
  rintro answer log' written' ⟨rfl, -, hanswer⟩
  split
  · rename_i hdigest
    rw [if_pos hdigest] at hanswer
    exact ⟨hanswer, hset.wrote_all ⟨event, hevent, htee⟩⟩
  · rename_i hdigest
    rw [if_neg hdigest] at hanswer
    exact hanswer

end Steps

theorem pending_nil {data : Bytes} {digest : String} : Pending data digest [] none where
  unconfirmed := by simp [Confirmed]
  idle := by simp [WriteSucceeded]
  wrote := by simp

/-- The ends of a privileged `file_write`. A success found the data in place already or
has confirmed it. -/
theorem fileWrite_holds {hexDigest : Bytes → String} {id : StageId} {path : String}
    {data : Bytes} {createDirs : Bool} {mode : Option Nat} {ifChanged : Bool} :
    Holds data (hexDigest data)
      (fun _ log written => written = none ∧ ¬WriteSucceeded log ∨
        Verified data (hexDigest data) log written)
      (fileWrite hexDigest id path data false createDirs mode true ifChanged) [] none := by
  rw [fileWrite]
  refine (connection_holds pending_nil).bind ?_
  rintro _ log written ⟨hopen, rfl⟩
  have hwrite : ∀ {log}, Pending data (hexDigest data) log none →
      Holds data (hexDigest data)
        (fun _ log written => written = none ∧ ¬WriteSucceeded log ∨
          Verified data (hexDigest data) log written)
        (fileWriteSudo hexDigest path data false createDirs mode) log none :=
    fun h => (fileWriteSudo_holds h).mono (fun _ _ _ hend => .inr hend) fun _ _ _ hend => hend
  cases ifChanged with
  | false => exact hwrite hopen
  | true =>
      refine (remoteSha256_holds hopen).bind ?_
      rintro answer log' written' ⟨rfl, hsucceeded, hanswer⟩
      by_cases hdigest : answer = some (hexDigest data)
      · simp only [if_pos hdigest]
        exact Or.inl ⟨rfl, fun hdone => hopen.idle rfl (hsucceeded.mp hdone)⟩
      · rw [if_neg hdigest] at hanswer
        simp only [if_neg hdigest]
        exact hwrite hanswer

section Guarantee

variable {before : Option Bytes} {data : Bytes} {digest : String} {log : PrivilegedLog}
  {pieces : List Bytes}

theorem eq_nil_of_flatten (hnonempty : [] ∉ pieces) (hflat : pieces.flatten = []) :
    pieces = [] := by
  cases pieces with
  | nil => rfl
  | cons piece rest =>
      rw [List.flatten_cons, List.append_eq_nil_iff] at hflat
      rw [hflat.1] at hnonempty
      exact absurd List.mem_cons_self hnonempty

/-- Between the truncation and the last piece the destination holds a mixture, unless one
side is empty and there is one piece at most. -/
theorem neverMixed_iff (hnonempty : [] ∉ pieces) (hflat : pieces.flatten = data) :
    (∀ front, front <+: pieces → some front.flatten = before ∨ front.flatten = data) ↔
      (before = some [] ∨ data = []) ∧ (pieces = [] ∨ pieces = [data]) := by
  constructor
  · intro h
    have hempty : before = some [] ∨ data = [] :=
      (h [] List.nil_prefix).imp Eq.symm Eq.symm
    refine ⟨hempty, ?_⟩
    cases pieces with
    | nil => exact .inl rfl
    | cons piece rest =>
        have hpiece : piece ≠ [] := fun heq => hnonempty (heq ▸ List.mem_cons_self)
        have hdata : data ≠ [] := by
          intro heq
          rw [heq, List.flatten_cons, List.append_eq_nil_iff] at hflat
          exact hpiece hflat.1
        have hfirst : piece = data := by
          have := h [piece] ⟨rest, rfl⟩
          rw [hempty.resolve_right hdata, List.flatten_singleton] at this
          exact this.resolve_left fun heq => hpiece (Option.some.inj heq)
        have hrest : rest = [] := by
          refine eq_nil_of_flatten (fun hmem => hnonempty (List.mem_cons_of_mem _ hmem)) ?_
          rw [List.flatten_cons, hfirst] at hflat
          exact List.append_right_eq_self.mp hflat
        exact .inr (by rw [hfirst, hrest])
  · rintro ⟨hempty, hpieces⟩ front hfront
    have hends : front = [] ∨ front = pieces := by
      cases hpieces with
      | inl hpieces =>
          rw [hpieces, List.prefix_nil] at hfront
          exact .inl hfront
      | inr hpieces =>
          rw [hpieces, List.prefix_cons_iff] at hfront
          obtain hfront | ⟨rest, hfront, hrest⟩ := hfront
          · exact .inl hfront
          · exact .inr (by rw [hfront, List.prefix_nil.mp hrest, hpieces])
    cases hends with
    | inl hends =>
        rw [hends]
        exact hempty.imp Eq.symm Eq.symm
    | inr hends => exact .inr (hends ▸ hflat)

theorem not_noDigest_of_confirmed (h : Confirmed digest log) : ¬NoDigest log := by
  obtain ⟨event, hevent, hanswers⟩ := h
  exact fun hnone => hnone event hevent digest hanswers

theorem staged_of_unopened {result : Except ErrorPayload FileOutcome}
    (hidle : ¬WriteSucceeded log) : StagedGuarantee before data log result none where
  neverMixed := by
    intro pieces hpieces
    cases hpieces
  untouched _ _ := rfl
  unverified hwrite := absurd hwrite hidle

/-- A write that succeeded and was confirmed. -/
theorem staged_iff_of_verified {outcome : FileOutcome} {written : Written}
    (h : Verified data digest log written) :
    StagedGuarantee before data log (.ok outcome) written ↔
      Harmless before data digest log written := by
  obtain ⟨hconfirmed, pieces, rfl, hnonempty, hflat⟩ := h
  have hmixed : (∀ front, front <+: pieces → some front.flatten = before ∨
      front.flatten = data) ↔ _ := neverMixed_iff hnonempty hflat
  constructor
  · intro hstaged
    obtain ⟨hempty, hpieces⟩ := hmixed.mp (hstaged.neverMixed pieces rfl)
    exact .inr ⟨pieces, rfl, hempty, hpieces, .inl hconfirmed⟩
  · rintro (hnone | ⟨pieces', hsame, hempty, hpieces, -⟩)
    · cases hnone
    cases hsame
    refine ⟨?_, ?_, ?_⟩
    · rintro pieces' ⟨⟩
      exact hmixed.mpr ⟨hempty, hpieces⟩
    · rintro error ⟨⟩
    · exact fun _ hnone => absurd hnone (not_noDigest_of_confirmed hconfirmed)

/-- A write that failed. -/
theorem staged_iff_of_pending {error : ErrorPayload} {written : Written}
    (h : Pending data digest log written) :
    StagedGuarantee before data log (.error error) written ↔
      Harmless before data digest log written := by
  cases written with
  | none => exact iff_of_true (staged_of_unopened (h.idle rfl)) (.inl rfl)
  | some pieces =>
      obtain ⟨hnonempty, hfront, -⟩ := h.wrote pieces rfl
      constructor
      · intro hstaged
        have hsame : some pieces.flatten = before := hstaged.untouched error rfl
        have hempty : before = some [] ∨ data = [] :=
          (hstaged.neverMixed pieces rfl [] List.nil_prefix).imp Eq.symm Eq.symm
        have hflat : pieces.flatten = [] := by
          cases hempty with
          | inl hempty => exact Option.some.inj (hsame.trans hempty)
          | inr hempty => exact List.prefix_nil.mp (hempty ▸ hfront)
        refine .inr ⟨pieces, rfl, hempty, .inl (eq_nil_of_flatten hnonempty hflat), .inr ?_⟩
        refine ⟨eq_nil_of_flatten hnonempty hflat, by rw [← hsame, hflat], ?_⟩
        rintro ⟨hwrite, hnone⟩
        obtain ⟨outcome, houtcome, -⟩ := hstaged.unverified hwrite hnone
        cases houtcome
      · rintro (hnone | ⟨pieces', hsame, -, -, hconfirmed | ⟨rfl, rfl, hmissing⟩⟩)
        · cases hnone
        · exact absurd hconfirmed h.unconfirmed
        · cases hsame
          refine ⟨?_, fun _ _ => rfl, fun hwrite hnone => absurd ⟨hwrite, hnone⟩ hmissing⟩
          rintro pieces ⟨⟩ front hfront
          rw [List.prefix_nil.mp hfront]
          exact .inl rfl

end Guarantee

/-- Exactly when a privileged write keeps the promise of a staged one, whatever fails on
the way. -/
theorem privileged_write_staged_iff {hexDigest : Bytes → String} {id : StageId} {path : String}
    {before : Option Bytes} {data : Bytes} {createDirs : Bool} {mode : Option Nat}
    {ifChanged : Bool} {events : PrivilegedLog} {result : Except ErrorPayload FileOutcome}
    {written : Written}
    (hrun : Runs privilegedHost none
      (fileWrite hexDigest id path data false createDirs mode true ifChanged) events result
      written) :
    StagedGuarantee before data events result written ↔
      Harmless before data (hexDigest data) events written := by
  obtain ⟨-, hok, herror⟩ := fileWrite_holds.sound hrun
  rw [List.nil_append] at hok herror
  cases result with
  | ok outcome =>
      cases hok outcome rfl with
      | inl hskipped =>
          rw [hskipped.1]
          exact iff_of_true (staged_of_unopened hskipped.2) (.inl rfl)
      | inr hverified => exact staged_iff_of_verified hverified
  | error error => exact staged_iff_of_pending (herror error rfl)

/-- One byte is written to an empty file and confirmed. -/
theorem privileged_write_staged_iff_confirmed :
    ∃ events outcome, Runs privilegedHost none
        (fileWrite fileDigest ⟨1, 2, 3⟩ "/f" [1] false false none true false) events
        (.ok outcome) (some [[1]]) ∧
      StagedGuarantee (some []) [1] events (.ok outcome) (some [[1]]) := by
  let line := fileDigest [1] ++ "  " ++ "/f" ++ "\n"
  let output : ExecOutput := ⟨some line, "", some 0⟩
  have hline : parseDigest line = some (fileDigest [1]) := parseDigest_line fileSha [1] "/f"
  have hconnect : privilegedHost none .connection (.ok ()) none := rfl
  have htee : privilegedHost none (.exec (.tee "/f" false) [1]) (.ok output) (some [[1]]) :=
    .inr ⟨[[1]], rfl, by simp, by simp, fun _ => rfl⟩
  have hquery : privilegedHost (some [[1]]) (.exec (.sha256 "/f" true) []) (.ok output)
      (some [[1]]) := rfl
  have hrun : Runs privilegedHost none
      (fileWrite fileDigest ⟨1, 2, 3⟩ "/f" [1] false false none true false)
      [⟨.connection, .ok (), none⟩, ⟨.exec (.tee "/f" false) [1], .ok output, some [[1]]⟩,
        ⟨.exec (.sha256 "/f" true) [], .ok output, some [[1]]⟩]
      (.ok ⟨"/f", 1, some (fileDigest [1]), true, true, none, none⟩) (some [[1]]) := by
    refine .ask hconnect (.ask htee (.ask hquery ?_))
    show Runs _ _ (if parseDigest line = some (fileDigest [1]) then .done _ else .fail _) _ _ _
    rw [if_pos hline]
    exact .done
  refine ⟨_, _, hrun, (privileged_write_staged_iff hrun).mpr ?_⟩
  refine .inr ⟨[[1]], rfl, .inl rfl, .inr rfl, .inl ?_⟩
  exact ⟨⟨.exec (.sha256 "/f" true) [], .ok output, some [[1]]⟩, by simp, rfl, hline⟩

/-- `tee` truncates a file of the byte 9, writes the first of two bytes and loses its
channel. -/
theorem privileged_write_leaves_prefix :
    ∃ events error, Runs privilegedHost none
        (fileWrite fileDigest ⟨1, 2, 3⟩ "/f" [1, 2] false false none true false) events
        (.error error) (some [[1]]) ∧
      Written.content (some [9]) (some [[1]]) = some [1] := by
  have hconnect : privilegedHost none .connection (.ok ()) none := rfl
  have htee : privilegedHost none (.exec (.tee "/f" false) [1, 2])
      (.error (.new "SSH_ERROR" "channel closed")) (some [[1]]) :=
    .inr ⟨[[1]], rfl, by simp, ⟨[2], rfl⟩, False.elim⟩
  exact ⟨_, _, .ask hconnect (.ask htee .fail), rfl⟩

end AiSsh
