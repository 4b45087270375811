import AiSsh.Transfer

/-!
What a staged transfer does to the files. Until its promotion a transfer touches its
staged file alone; the promotion takes the destination away and puts the finished
staged file in its place. The history of a run tells how far it had come: which bytes
were written, whether the staged file was flushed and closed, and what the verifier
said.
-/

namespace AiSsh

open Library Program

abbrev Log : Type := List (Event HostOp HostOp.Reply Hosts)

/-- A verifier of which nothing is known but that it leaves the files alone. -/
def verifier (given : Bool) : Option RemoteHash :=
  if given then some fun path => .ask (.sha256 path) .done else none

/-- No create, write, flush or close failed here, and no other digest was reported. -/
def Passed (digest : String) : Event HostOp HostOp.Reply Hosts → Prop
  | ⟨.createRemote _, .error _, _⟩ | ⟨.writeRemote _ _, .error _, _⟩
  | ⟨.flushRemote _, .error _, _⟩ | ⟨.closeRemote _, .error _, _⟩ => False
  | ⟨.sha256 _, some actual, _⟩ => actual = digest
  | _ => True

/-- The bytes of the writes that succeeded. -/
def sent (staged : String) : Log → Bytes
  | [] => []
  | ⟨.writeRemote path data, .ok (), _⟩ :: log =>
      if path = staged then data ++ sent staged log else sent staged log
  | _ :: log => sent staged log

/-- `content` is the final content of the staged file: all of `data` was written, the
file was flushed and closed and had these bytes then, and the verifier, if it answered,
saw these bytes and reported `digest`. -/
structure Landed (staged digest : String) (data : Bytes) (log : Log) (content : Bytes) :
    Prop where
  passed : ∀ event ∈ log, Passed digest event
  sent : sent staged log = data
  flushed : ∃ after, ⟨.flushRemote staged, .ok (), after⟩ ∈ log
  closed : ∃ after : Hosts, ⟨.closeRemote staged, .ok (), after⟩ ∈ log ∧
    after.bytes staged = some content
  hashed : ∀ actual, ∀ after : Hosts, ⟨.sha256 staged, some actual, after⟩ ∈ log →
    after.bytes staged = some content

/-- Every attempt to discard the staged file has succeeded. -/
def CleanedUp (staged : String) (log : Log) : Prop :=
  ∀ error after, ⟨.removeRemote staged, .error error, after⟩ ∉ log

theorem sent_append (staged : String) (log more : Log) :
    sent staged (log ++ more) = sent staged log ++ sent staged more := by
  induction log with
  | nil => rfl
  | cons event log ih =>
      obtain ⟨op, reply, after⟩ := event
      cases op with
      | writeRemote path data =>
          cases reply with
          | ok _ =>
              by_cases h : path = staged
              · simp [sent, h, ih]
              · simp [sent, h, ih]
          | error _ => simpa [sent] using ih
      | _ => simpa [sent] using ih

/-- A step that writes nothing to the staged file leaves it landed. -/
theorem Landed.step {staged digest : String} {data content : Bytes} {log : Log}
    (h : Landed staged digest data log content) {e : Event HostOp HostOp.Reply Hosts}
    (hpassed : Passed digest e) (hsent : AiSsh.sent staged [e] = [])
    (hhashed : e.op = .sha256 staged → e.after.bytes staged = some content) :
    Landed staged digest data (log ++ [e]) content where
  passed := by
    intro other hother
    cases List.mem_append.mp hother with
    | inl hother => exact h.passed other hother
    | inr hother => exact List.mem_singleton.mp hother ▸ hpassed
  sent := by rw [sent_append, h.sent, hsent, List.append_nil]
  flushed := by
    obtain ⟨after, hmem⟩ := h.flushed
    exact ⟨after, List.mem_append_left _ hmem⟩
  closed := by
    obtain ⟨after, hmem, hbytes⟩ := h.closed
    exact ⟨after, List.mem_append_left _ hmem, hbytes⟩
  hashed := by
    intro actual after hmem
    cases List.mem_append.mp hmem with
    | inl hmem => exact h.hashed actual after hmem
    | inr hmem =>
        have hevent := List.mem_singleton.mp hmem
        have hbytes := hhashed (congrArg Event.op hevent).symm
        rwa [← hevent] at hbytes

/-- The last step is the rename of the promotion, and it failed. -/
def RenameFailed (staged remote : String) (log : Log) : Prop :=
  ∃ error after, log.getLast? = some ⟨.renameRemote staged remote, .error error, after⟩

def RemoveFailed (remote : String) (log : Log) : Prop :=
  ∃ error after, log.getLast? = some ⟨.removeRemote remote, .error error, after⟩

def CreateFailed (staged : String) (log : Log) : Prop :=
  ∃ error after, log.getLast? = some ⟨.createRemote staged, .error error, after⟩

/-- The swap of the promotion broke: the removal of the destination failed, or the rename
after it. -/
def SwapBroken (staged remote : String) (log : Log) : Prop :=
  RemoveFailed remote log ∨
    (∃ after, ⟨.removeRemote remote, .ok (), after⟩ ∈ log) ∧ RenameFailed staged remote log

/-- The last step was one of the promotion. -/
def Promoting (staged remote : String) (log : Log) : Prop :=
  ∃ event, log.getLast? = some event ∧
    (event.op = .stat remote ∨ event.op = .removeRemote remote ∨
      event.op = .renameRemote staged remote)

/-- What a failed write or upload leaves: everything as it was, the destination too unless
the swap broke or the rename has put the finished staged file there, and no staged file unless
its creation or the promotion failed. -/
structure RemoteSpared (start : Hosts) (remote staged digest : String) (data : Bytes) (log : Log)
    (s : Hosts) : Prop where
  others : ∀ path, path ≠ staged → path ≠ remote → s.remote path = start.remote path
  here : s.here = start.here
  destination : s.remote remote = start.remote remote ∨
    s.remote remote = none ∧ SwapBroken staged remote log ∨
    (∃ content, s.bytes remote = some content ∧ Landed staged digest data log content) ∧
      RenameFailed staged remote log
  staged : CleanedUp staged log → s.remote staged = none ∨
    s.remote staged = start.remote staged ∨ CreateFailed staged log ∨
      Promoting staged remote log

/-- A transfer to `remote` by way of `staged`, as it starts. -/
structure Job where
  start : Hosts
  remote : String
  staged : String
  digest : String
  data : Bytes
  apart : staged ≠ remote

namespace Job

variable {job : Job} {log : Log} {s : Hosts} {α : Type}

/-- Nothing but the staged file has changed. -/
structure Aside (job : Job) (s : Hosts) : Prop where
  remote : ∀ path, path ≠ job.staged → s.remote path = job.start.remote path
  here : s.here = job.start.here

/-- The destination is as before, absent, or the staged file's final content. -/
def Destination (job : Job) (log : Log) (s : Hosts) : Prop :=
  s.remote job.remote = job.start.remote job.remote ∨ s.remote job.remote = none ∨
    ∃ content, s.bytes job.remote = some content ∧
      Landed job.staged job.digest job.data log content

theorem Aside.destination (h : job.Aside s) : job.Destination log s :=
  .inl (h.remote _ job.apart.symm)

theorem Aside.setStaged (h : job.Aside s) (entry : Option Entry) :
    job.Aside (s.setRemote job.staged entry) where
  remote := by
    intro path hpath
    rw [Hosts.setRemote_of_ne hpath]
    exact h.remote path hpath
  here := h.here

abbrev Spared (job : Job) (log : Log) (s : Hosts) : Prop :=
  RemoteSpared job.start job.remote job.staged job.digest job.data log s

theorem Aside.spared (h : job.Aside s)
    (hstaged : CleanedUp job.staged log → s.remote job.staged = none ∨
      s.remote job.staged = job.start.remote job.staged ∨ CreateFailed job.staged log ∨
        Promoting job.staged job.remote log) :
    job.Spared log s where
  others := fun path hstaged _ => h.remote path hstaged
  here := h.here
  destination := .inl (h.remote _ job.apart.symm)
  staged := hstaged

/-- What a part of the transfer achieves; when it fails it spares the destination. -/
abbrev Achieves (job : Job) (Q : α → Log → Hosts → Prop) (p : Transfer α) (log : Log)
    (s : Hosts) : Prop :=
  Ensures hosts job.Destination Q (fun _ => job.Spared) p log s

theorem discard_fails {Q : α → Log → Hosts → Prop} (h : job.Aside s) (error : String) :
    job.Achieves Q (discard job.staged >>= fun _ => .fail error) log s := by
  intro reply s' hanswer
  have haside : job.Aside s' := Tried.holds hanswer h (h.setStaged none)
  cases reply with
  | ok _ =>
      cases hanswer
      have hremoved : (s.setRemote job.staged none).remote job.staged = none :=
        Hosts.setRemote_self ..
      exact ⟨haside.destination, haside.spared fun _ => .inl hremoved⟩
  | error reason =>
      refine ⟨haside.destination, haside.spared fun hclean => ?_⟩
      exact absurd (List.mem_append_right log (List.mem_singleton_self _)) (hclean reason s')

/-- A step on the staged file, with its clean-up. -/
theorem orDiscard_achieves {p : Transfer α} {Q : α → Log → Hosts → Prop}
    (hp : Ensures hosts job.Destination Q (fun _ _ s => job.Aside s) p log s) :
    job.Achieves Q (orDiscard job.staged p) log s :=
  hp.handle fun error _ _ h => discard_fails h error

/-- `bytes` have been written to the staged file. -/
structure Sending (job : Job) (bytes : Bytes) (log : Log) (s : Hosts) : Prop where
  aside : job.Aside s
  passed : ∀ event ∈ log, Passed job.digest event
  sent : sent job.staged log = bytes
  unasked : ∀ actual after, ⟨.sha256 job.staged, some actual, after⟩ ∉ log

theorem Sending.step {bytes m : Bytes} (h : job.Sending bytes log s)
    {e : Event HostOp HostOp.Reply Hosts} (haside : job.Aside e.after)
    (hpassed : Passed job.digest e) (hop : e.op ≠ .sha256 job.staged)
    (hsent : AiSsh.sent job.staged [e] = m) :
    job.Sending (bytes ++ m) (log ++ [e]) e.after where
  aside := haside
  passed := by
    intro other hother
    cases List.mem_append.mp hother with
    | inl hother => exact h.passed other hother
    | inr hother => exact List.mem_singleton.mp hother ▸ hpassed
  sent := by rw [sent_append, h.sent, hsent]
  unasked := by
    intro actual after hmem
    cases List.mem_append.mp hmem with
    | inl hmem => exact h.unasked actual after hmem
    | inr hmem => exact hop (congrArg Event.op (List.mem_singleton.mp hmem)).symm

/-- The staged file is finished and has the bytes `content`. -/
structure Settled (job : Job) (content : Bytes) (log : Log) (s : Hosts) : Prop where
  aside : job.Aside s
  landed : Landed job.staged job.digest job.data log content
  bytes : s.bytes job.staged = some content

theorem Settled.step {content : Bytes} (h : job.Settled content log s)
    {e : Event HostOp HostOp.Reply Hosts} (haside : job.Aside e.after)
    (hbytes : e.after.bytes job.staged = some content)
    (hpassed : Passed job.digest e) (hsent : AiSsh.sent job.staged [e] = []) :
    job.Settled content (log ++ [e]) e.after where
  aside := haside
  landed := h.landed.step hpassed hsent fun _ => hbytes
  bytes := hbytes

theorem Sending.close {content : Bytes} {after : Hosts} (h : job.Sending job.data log s)
    (hflushed : ∃ after, ⟨.flushRemote job.staged, .ok (), after⟩ ∈ log)
    (haside : job.Aside after) (hbytes : after.bytes job.staged = some content) :
    job.Settled content (log ++ [⟨.closeRemote job.staged, .ok (), after⟩]) after := by
  have hstep := h.step (e := ⟨.closeRemote job.staged, .ok (), after⟩) (m := []) haside
    trivial nofun rfl
  obtain ⟨flushed, hmem⟩ := hflushed
  refine ⟨haside, ⟨hstep.passed, ?_, ⟨flushed, List.mem_append_left _ hmem⟩, ?_, ?_⟩, hbytes⟩
  · rw [hstep.sent]
    exact List.append_nil _
  · exact ⟨after, List.mem_append_right _ (List.mem_singleton_self _), hbytes⟩
  · intro actual other hasked
    exact absurd hasked (hstep.unasked actual other)

/-- The destination has the staged file's final content. -/
def Placed (job : Job) (log : Log) (s : Hosts) : Prop :=
  ∃ content, s.bytes job.remote = some content ∧
    Landed job.staged job.digest job.data log content

/-- The verifier has answered with the expected digest. -/
def Answered (job : Job) (log : Log) : Prop :=
  ∃ after, ⟨.sha256 job.staged, some job.digest, after⟩ ∈ log

theorem flush_achieves (h : job.Sending job.data log s) :
    job.Achieves (fun _ log s => job.Sending job.data log s ∧
        ∃ after, ⟨.flushRemote job.staged, .ok (), after⟩ ∈ log)
      (orDiscard job.staged (.ask (.flushRemote job.staged) (sftpReply job.staged))) log s := by
  refine orDiscard_achieves ?_
  rintro reply s' ⟨content, mode, rfl⟩
  have haside := h.aside.setStaged (some (.file content mode))
  cases reply with
  | ok _ =>
      have hstep := h.step (e := ⟨.flushRemote job.staged, .ok (), _⟩) (m := []) haside
        trivial nofun rfl
      rw [List.append_nil] at hstep
      exact ⟨haside.destination, hstep, _, List.mem_append_right _ (List.mem_singleton_self _)⟩
  | error reason => exact ⟨haside.destination, haside⟩

theorem close_achieves (h : job.Sending job.data log s)
    (hflushed : ∃ after, ⟨.flushRemote job.staged, .ok (), after⟩ ∈ log) :
    job.Achieves (fun _ log s => ∃ content, job.Settled content log s)
      (orDiscard job.staged (.ask (.closeRemote job.staged) (sftpReply job.staged))) log s := by
  refine orDiscard_achieves ?_
  rintro reply s' ⟨content, mode, rfl⟩
  have haside := h.aside.setStaged (some (.file content mode))
  cases reply with
  | ok _ =>
      refine ⟨haside.destination, content, h.close hflushed haside ?_⟩
      simp [Hosts.bytes, Entry.content]
  | error reason => exact ⟨haside.destination, haside⟩

theorem confirm_achieves {content : Bytes} (h : job.Settled content log s) (given : Bool) :
    job.Achieves
      (fun verified log s => job.Settled content log s ∧ (verified = true → job.Answered log))
      (confirm job.staged job.digest (verifier given)) log s := by
  cases given with
  | false => exact ⟨h, nofun⟩
  | true =>
      intro reply s' hanswer
      cases hanswer
      refine ⟨h.aside.destination, ?_⟩
      cases reply with
      | none => exact ⟨h.step h.aside h.bytes trivial rfl, nofun⟩
      | some actual =>
          show job.Achieves _ (if actual = job.digest then .done true
            else discard job.staged >>= fun _ => .fail _) _ s
          split
          · rename_i hactual
            subst hactual
            exact ⟨h.step h.aside h.bytes rfl rfl,
              fun _ => ⟨s, List.mem_append_right _ (List.mem_singleton_self _)⟩⟩
          · exact discard_fails h.aside _

theorem Settled.mode {content : Bytes} (h : job.Settled content log s) (mode : Nat) :
    job.Aside (s.setModeOf job.staged mode) ∧
      (s.setModeOf job.staged mode).bytes job.staged = some content := by
  have hbytes := h.bytes
  rw [Hosts.bytes] at hbytes
  rw [Hosts.setModeOf]
  split
  · rename_i bytes old hentry
    rw [hentry] at hbytes
    cases hbytes
    exact ⟨h.aside.setStaged _, by simp [Hosts.bytes, Entry.content]⟩
  · exact ⟨h.aside, h.bytes⟩

theorem applyMode_achieves {content : Bytes} (h : job.Settled content log s)
    (mode : Option Nat) :
    job.Achieves (fun _ log s => job.Settled content log s)
      (orDiscard job.staged (applyMode job.staged mode)) log s := by
  refine orDiscard_achieves ?_
  cases mode with
  | none => exact h
  | some mode =>
      intro reply s' hanswer
      have haside : job.Aside s' := Tried.holds hanswer h.aside (h.mode mode).1
      cases reply with
      | ok _ =>
          cases hanswer
          exact ⟨haside.destination, h.step haside (h.mode mode).2 trivial rfl⟩
      | error reason =>
          exact ⟨haside.destination, haside⟩

/-- The staged file takes the place of the destination, or everything stays. -/
theorem rename_achieves {content : Bytes}
    (hlanded : Landed job.staged job.digest job.data log content)
    (hbytes : s.bytes job.staged = some content)
    (hothers : ∀ path, path ≠ job.staged → path ≠ job.remote →
      s.remote path = job.start.remote path)
    (hhere : s.here = job.start.here)
    (hdestination : s.remote job.remote = job.start.remote job.remote ∨
      s.remote job.remote = none ∧ ∃ after, ⟨.removeRemote job.remote, .ok (), after⟩ ∈ log) :
    job.Achieves (fun _ => job.Placed)
      (.ask (.renameRemote job.staged job.remote) (sftpReply job.remote)) log s := by
  have hplaced (reply : Except SftpError Unit) {s' : Hosts}
      (hmoved : s' = (s.setRemote job.remote (s.remote job.staged)).setRemote job.staged none) :
      job.Placed (log ++ [⟨.renameRemote job.staged job.remote, reply, s'⟩]) s' := by
    refine ⟨content, ?_, hlanded.step (by cases reply <;> trivial) rfl fun hop => by cases hop⟩
    rw [hmoved, Hosts.bytes, Hosts.setRemote_of_ne job.apart.symm, Hosts.setRemote_self]
    exact hbytes
  intro reply s' hanswer
  cases reply with
  | ok _ =>
      have hplaced := hplaced (.ok ()) hanswer
      exact ⟨.inr (.inr hplaced), hplaced⟩
  | error reason =>
      have hfailed : RenameFailed job.staged job.remote
          (log ++ [⟨.renameRemote job.staged job.remote, .error reason, s'⟩]) :=
        ⟨reason, s', List.getLast?_concat⟩
      have hpromoting : Promoting job.staged job.remote
          (log ++ [⟨.renameRemote job.staged job.remote, .error reason, s'⟩]) :=
        ⟨_, List.getLast?_concat, .inr (.inr rfl)⟩
      rcases hanswer with rfl | hmoved
      · refine ⟨hdestination.imp_right fun habsent => .inl habsent.1, hothers, hhere, ?_,
          fun _ => .inr (.inr (.inr hpromoting))⟩
        refine hdestination.imp_right fun habsent => .inl ⟨habsent.1, .inr ⟨?_, hfailed⟩⟩
        obtain ⟨after, hremoved⟩ := habsent.2
        exact ⟨after, List.mem_append_left _ hremoved⟩
      · have hplaced := hplaced (.error reason) hmoved
        refine ⟨.inr (.inr hplaced), fun path hstaged hremote => ?_, ?_,
          .inr (.inr ⟨hplaced, hfailed⟩), fun _ => .inr (.inr (.inr hpromoting))⟩
        · rw [hmoved, Hosts.setRemote_of_ne hstaged, Hosts.setRemote_of_ne hremote]
          exact hothers path hstaged hremote
        · rw [hmoved]
          exact hhere

theorem promote_achieves {content : Bytes} (h : job.Settled content log s) :
    job.Achieves (fun _ => job.Placed) (promote job.staged job.remote) log s := by
  intro reply s' hanswer
  cases hanswer
  refine ⟨h.aside.destination, ?_⟩
  have hstat : job.Settled content (log ++ [⟨.stat job.remote, reply, s⟩]) s :=
    h.step h.aside h.bytes trivial rfl
  have hkept : s.remote job.remote = job.start.remote job.remote :=
    h.aside.remote _ job.apart.symm
  have hrename : job.Achieves (fun _ => job.Placed)
      (.ask (.renameRemote job.staged job.remote) (sftpReply job.remote))
      (log ++ [⟨.stat job.remote, reply, s⟩]) s :=
    rename_achieves hstat.landed h.bytes (fun path hstaged _ => h.aside.remote path hstaged)
      h.aside.here (.inl hkept)
  have hfailed : job.Spared (log ++ [⟨.stat job.remote, reply, s⟩]) s :=
    h.aside.spared fun _ => .inr (.inr (.inr ⟨_, List.getLast?_concat, .inl rfl⟩))
  have hothers : ∀ path, path ≠ job.staged → path ≠ job.remote →
      (s.setRemote job.remote none).remote path = job.start.remote path := by
    intro path hstaged hremote
    rw [Hosts.setRemote_of_ne hremote]
    exact h.aside.remote path hstaged
  have habsent : (s.setRemote job.remote none).remote job.remote = none :=
    Hosts.setRemote_self ..
  cases reply with
  | ok metadata =>
      intro removed after hanswer
      cases removed with
      | ok _ =>
          cases hanswer
          refine ⟨.inr (.inl habsent), rename_achieves (hstat.landed.step trivial rfl nofun)
            ?_ hothers h.aside.here (.inr ⟨habsent, _, List.mem_append_right _
              (List.mem_singleton_self _)⟩)⟩
          rw [Hosts.bytes, Hosts.setRemote_of_ne job.apart]
          exact h.bytes
      | error reason =>
          rcases hanswer with rfl | rfl
          · exact ⟨h.aside.destination, h.aside.spared fun _ =>
              .inr (.inr (.inr ⟨_, List.getLast?_concat, .inr (.inl rfl)⟩))⟩
          · exact ⟨.inr (.inl habsent), hothers, h.aside.here,
              .inr (.inl ⟨habsent, .inl ⟨_, _, List.getLast?_concat⟩⟩),
              fun _ => .inr (.inr (.inr ⟨_, List.getLast?_concat, .inr (.inl rfl)⟩))⟩
  | error reason =>
      cases reason with
      | status code text =>
          cases code with
          | noSuchFile => exact hrename
          | _ => exact hfailed
      | _ => exact hfailed

/-- The common end of both transfers. -/
theorem finishStaged_achieves (h : job.Sending job.data log s) (bytes : Nat)
    (mode : Option Nat) (given : Bool) :
    job.Achieves
      (fun outcome log s => job.Placed log s ∧ (outcome.verified = true → job.Answered log))
      (finishStaged job.staged job.remote job.digest bytes mode (verifier given)) log s := by
  refine (flush_achieves h).bind ?_
  rintro - log s ⟨hsending, hflushed⟩
  refine (close_achieves hsending hflushed).bind ?_
  rintro - log s ⟨content, hsettled⟩
  refine (confirm_achieves hsettled given).bind ?_
  rintro verified log s ⟨hsettled, hverified⟩
  cases verified with
  | false =>
      refine (applyMode_achieves hsettled mode).bind ?_
      rintro - log s hsettled
      refine (promote_achieves hsettled).bind ?_
      rintro - log s hplaced
      exact ⟨hplaced, nofun⟩
  | true =>
      obtain ⟨after, hasked⟩ := hverified rfl
      refine ((applyMode_achieves hsettled mode).keeps hasked).bind ?_
      rintro - log s ⟨hsettled, hasked⟩
      refine ((promote_achieves hsettled).keeps hasked).bind ?_
      rintro - log s ⟨hplaced, hasked⟩
      exact ⟨hplaced, fun _ => ⟨after, hasked⟩⟩

theorem Sending.start (job : Job) : job.Sending [] [] job.start where
  aside := ⟨fun _ _ => rfl, rfl⟩
  passed := nofun
  sent := rfl
  unasked := nofun

theorem create_achieves (h : job.Sending [] log job.start) :
    job.Achieves (fun _ => job.Sending [])
      (.ask (.createRemote job.staged) (sftpReply job.staged)) log job.start := by
  intro reply s' hanswer
  have haside : job.Aside s' := Tried.holds hanswer h.aside (h.aside.setStaged _)
  cases reply with
  | ok _ =>
      cases hanswer
      exact ⟨haside.destination,
        h.step (e := ⟨.createRemote job.staged, .ok (), _⟩) haside trivial nofun rfl⟩
  | error reason =>
      exact ⟨haside.destination, haside.spared fun _ =>
        .inr (.inr (.inl ⟨_, _, List.getLast?_concat⟩))⟩

theorem write_achieves {bytes : Bytes} (h : job.Sending bytes log s) (data : Bytes) :
    job.Achieves (fun _ => job.Sending (bytes ++ data))
      (orDiscard job.staged (.ask (.writeRemote job.staged data) (sftpReply job.staged)))
      log s := by
  refine orDiscard_achieves ?_
  rintro reply s' ⟨content, mode, rfl⟩
  have haside := h.aside.setStaged (some (.file content mode))
  cases reply with
  | ok _ =>
      exact ⟨haside.destination,
        h.step (e := ⟨.writeRemote job.staged data, .ok (), _⟩) haside trivial nofun
          (by simp [AiSsh.sent])⟩
  | error reason => exact ⟨haside.destination, haside⟩

/-- The loop sends what the reads deliver. -/
theorem sendReads_achieves {path : LocalPath} {reads : Reads IoError} {bytes rest : Bytes}
    (h : job.Sending bytes log s) (hdelivers : Delivers transferChunkBytes reads rest) :
    job.Achieves (fun data log s => data = bytes ++ rest ∧ job.Sending data log s)
      (sendReads job.staged path reads bytes) log s := by
  induction reads generalizing bytes rest log s with
  | nil =>
      cases hdelivers
      rw [List.append_nil]
      exact ⟨rfl, h⟩
  | cons read reads ih =>
      cases read with
      | error error => exact discard_fails h.aside _
      | ok chunk =>
          obtain ⟨hne, -, rest, rfl, hdelivers⟩ := hdelivers
          rw [sendReads, if_neg hne]
          refine (write_achieves h chunk).bind ?_
          rintro - log s hsending
          rw [← List.append_assoc]
          exact ih hsending hdelivers

variable (job) in
theorem writeStaged_achieves {hexDigest : Bytes → String} {id : StageId}
    (hstaged : job.staged = stagedPath id job.remote) (hdigest : job.digest = hexDigest job.data)
    (mode : Option Nat) (given : Bool) :
    job.Achieves
      (fun outcome log s => job.Placed log s ∧ (outcome.verified = true → job.Answered log))
      (writeStaged hexDigest id job.remote job.data mode (verifier given)) [] job.start := by
  rw [writeStaged, ← hstaged, ← hdigest]
  refine (create_achieves (Sending.start job)).bind ?_
  rintro - log s hsending
  refine (write_achieves hsending job.data).bind ?_
  rintro - log s hsending
  exact finishStaged_achieves hsending _ mode given

variable (job) in
theorem uploadStaged_achieves {hexDigest : Bytes → String} {id : StageId} {path : LocalPath}
    (hstaged : job.staged = stagedPath id job.remote) (hdigest : job.digest = hexDigest job.data)
    (hdata : job.data = (job.start.here path).getD []) (mode : Option Nat) (given : Bool) :
    job.Achieves
      (fun outcome log s => job.Placed log s ∧ (outcome.verified = true → job.Answered log))
      (uploadStaged hexDigest id path job.remote mode (verifier given)) [] job.start := by
  rw [uploadStaged, ← hstaged]
  intro reply s' hanswer
  cases reply with
  | error error =>
      cases hanswer
      have haside := (Sending.start job).aside
      exact ⟨haside.destination, haside.spared fun _ => .inr (.inl rfl)⟩
  | ok reads =>
      obtain ⟨rfl, content, hcontent, hdelivers⟩ := hanswer
      have hstart := (Sending.start job).step (e := ⟨.openLocal path, .ok reads, job.start⟩)
        (Sending.start job).aside trivial nofun rfl
      refine ⟨hstart.aside.destination, (create_achieves hstart).bind ?_⟩
      rintro - log s hsending
      refine (sendReads_achieves hsending hdelivers).bind ?_
      rintro data log s ⟨hsent, hsending⟩
      have hsource : data = job.data := by
        rw [hsent, List.nil_append, hdata, hcontent, Option.getD_some]
      subst hsource
      rw [← hdigest]
      exact finishStaged_achieves hsending _ mode given

end Job

section Download

variable {start s : Hosts} {path staged : LocalPath} {log : Log} {α : Type}

/-- Every attempt to discard the local staged file has succeeded. -/
def CleanedUpLocal (staged : LocalPath) (log : Log) : Prop :=
  ∀ error after, ⟨.removeLocal staged, .error error, after⟩ ∉ log

/-- Nothing but the local staged file has changed. -/
structure Beside (start : Hosts) (staged : LocalPath) (s : Hosts) : Prop where
  here : ∀ other, other ≠ staged → s.here other = start.here other
  remote : s.remote = start.remote

/-- The last step is the rename onto the destination, and it failed. -/
def RenameLocalFailed (staged path : LocalPath) (log : Log) : Prop :=
  ∃ error after, log.getLast? = some ⟨.renameLocal staged path, .error error, after⟩

def CreateLocalFailed (staged : LocalPath) (log : Log) : Prop :=
  ∃ error after, log.getLast? = some ⟨.createLocal staged, .error error, after⟩

/-- The local staged file was flushed and had these bytes then. -/
def Received (staged : LocalPath) (content : Bytes) (log : Log) : Prop :=
  ∃ after, ⟨.flushLocal staged, .ok (), after⟩ ∈ log ∧ after.here staged = some content

/-- What a failed download leaves: everything as it was, the destination too unless the last
rename failed and has put the finished staged file there, and no staged file unless its creation
or that rename failed. -/
structure DownloadSpared (start : Hosts) (path staged : LocalPath) (log : Log) (s : Hosts) :
    Prop where
  others : ∀ other, other ≠ staged → other ≠ path → s.here other = start.here other
  remote : s.remote = start.remote
  destination : s.here path = start.here path ∨
    (∃ content, s.here path = some content ∧ Received staged content log) ∧
      RenameLocalFailed staged path log
  staged : CleanedUpLocal staged log → s.here staged = none ∨
    s.here staged = start.here staged ∨ CreateLocalFailed staged log ∨
      RenameLocalFailed staged path log

theorem Beside.setStaged (h : Beside start staged s) (content : Option Bytes) :
    Beside start staged (s.setHere staged content) where
  here := by
    intro other hother
    rw [Hosts.setHere_of_ne hother]
    exact h.here other hother
  remote := h.remote

theorem Beside.spared (h : Beside start staged s) (hapart : staged ≠ path)
    (hstaged : CleanedUpLocal staged log → s.here staged = none ∨
      s.here staged = start.here staged ∨ CreateLocalFailed staged log ∨
        RenameLocalFailed staged path log) :
    DownloadSpared start path staged log s where
  others := fun other hother _ => h.here other hother
  remote := h.remote
  destination := .inl (h.here path hapart.symm)
  staged := hstaged

/-- What a part of a download achieves; a download has no invariant but its end. -/
abbrev DownloadAchieves (start : Hosts) (path staged : LocalPath)
    (Q : α → Log → Hosts → Prop) (p : Transfer α) (log : Log) (s : Hosts) : Prop :=
  Ensures hosts (fun _ _ => True) Q (fun _ => DownloadSpared start path staged) p log s

theorem discardLocal_fails {Q : α → Log → Hosts → Prop} (hapart : staged ≠ path)
    (h : Beside start staged s) (error : String) :
    DownloadAchieves start path staged Q (discardLocal staged >>= fun _ => .fail error) log s := by
  intro reply s' hanswer
  have hbeside : Beside start staged s' := Tried.holds hanswer h (h.setStaged none)
  cases reply with
  | ok _ =>
      cases hanswer
      exact ⟨trivial, hbeside.spared hapart fun _ => .inl (Hosts.setHere_self ..)⟩
  | error reason =>
      refine ⟨trivial, hbeside.spared hapart fun hclean => ?_⟩
      exact absurd (List.mem_append_right log (List.mem_singleton_self _)) (hclean reason s')

/-- A step on the local staged file, with its clean-up. -/
theorem orDiscardLocal_achieves {p : Transfer α} {Q : α → Log → Hosts → Prop}
    (hapart : staged ≠ path)
    (hp : Ensures hosts (fun _ _ => True) Q (fun _ _ s => Beside start staged s) p log s) :
    DownloadAchieves start path staged Q (orDiscardLocal staged p) log s :=
  hp.handle fun error _ _ h => discardLocal_fails hapart h error

theorem writeLocal_achieves (hapart : staged ≠ path) (h : Beside start staged s) (data : Bytes) :
    DownloadAchieves start path staged (fun _ _ s => Beside start staged s)
      (orDiscardLocal staged (.ask (.writeLocal staged data) (localReply staged))) log s := by
  refine orDiscardLocal_achieves hapart ?_
  rintro reply s' ⟨content, rfl⟩
  have hbeside := h.setStaged (some content)
  cases reply with
  | ok _ => exact ⟨trivial, hbeside⟩
  | error reason => exact ⟨trivial, hbeside⟩

/-- The local staged file is finished and has the bytes `content`. -/
structure Finished (start : Hosts) (staged : LocalPath) (content : Bytes) (log : Log) (s : Hosts) :
    Prop where
  beside : Beside start staged s
  bytes : s.here staged = some content
  received : Received staged content log

theorem Received.append {content : Bytes} (h : Received staged content log) (more : Log) :
    Received staged content (log ++ more) := by
  obtain ⟨after, hmem, hbytes⟩ := h
  exact ⟨after, List.mem_append_left _ hmem, hbytes⟩

theorem flushLocal_achieves (hapart : staged ≠ path) (h : Beside start staged s) :
    DownloadAchieves start path staged
      (fun _ log s => ∃ content, Finished start staged content log s)
      (orDiscardLocal staged (.ask (.flushLocal staged) (localReply staged))) log s := by
  refine orDiscardLocal_achieves hapart ?_
  rintro reply s' ⟨content, rfl⟩
  have hbeside := h.setStaged (some content)
  have hbytes : (s.setHere staged (some content)).here staged = some content :=
    Hosts.setHere_self ..
  cases reply with
  | ok _ =>
      exact ⟨trivial, content, hbeside, hbytes, _,
        List.mem_append_right _ (List.mem_singleton_self _), hbytes⟩
  | error reason => exact ⟨trivial, hbeside⟩

theorem receiveReads_achieves {remote : String} {reads : Reads SftpError} {bytes : Bytes}
    (hapart : staged ≠ path) (h : Beside start staged s) :
    DownloadAchieves start path staged (fun _ _ s => Beside start staged s)
      (receiveReads remote staged reads bytes) log s := by
  induction reads generalizing bytes log s with
  | nil => exact h
  | cons read reads ih =>
      cases read with
      | error error => exact discardLocal_fails hapart h _
      | ok chunk =>
          rw [receiveReads]
          split
          · exact h
          · exact (writeLocal_achieves hapart h chunk).bind fun _ _ _ hbeside => ih hbeside

theorem confirmDownload_achieves {remote digest : String} {content : Bytes}
    (hapart : staged ≠ path) (h : Finished start staged content log s) (given : Bool) :
    DownloadAchieves start path staged (fun _ log s => Finished start staged content log s)
      (confirmDownload remote staged digest (verifier given)) log s := by
  cases given with
  | false => exact h
  | true =>
      intro reply s' hanswer
      cases hanswer
      refine ⟨trivial, ?_⟩
      have hstep : Finished start staged content (log ++ [⟨.sha256 remote, reply, s⟩]) s :=
        ⟨h.beside, h.bytes, h.received.append _⟩
      cases reply with
      | none => exact hstep
      | some remoteDigest =>
          show DownloadAchieves start path staged _ (if remoteDigest ≠ digest
            then discardLocal staged >>= fun _ => .fail _ else .done true) _ s
          split
          · exact discardLocal_fails hapart h.beside _
          · exact hstep

/-- The local staged file takes the place of the destination, or everything stays. -/
theorem renameLocal_achieves {content : Bytes} (hapart : staged ≠ path)
    (h : Finished start staged content log s) :
    DownloadAchieves start path staged (fun _ _ _ => True)
      (.ask (.renameLocal staged path) (localReply path)) log s := by
  intro reply s' hanswer
  refine ⟨trivial, ?_⟩
  cases reply with
  | ok _ => trivial
  | error reason =>
      have hfailed : RenameLocalFailed staged path
          (log ++ [⟨.renameLocal staged path, .error reason, s'⟩]) :=
        ⟨reason, s', List.getLast?_concat⟩
      rcases hanswer with rfl | rfl
      · exact h.beside.spared hapart fun _ => .inr (.inr (.inr hfailed))
      · refine ⟨fun other hstaged hpath => ?_, h.beside.remote, .inr ⟨⟨content, ?_,
          h.received.append _⟩, hfailed⟩, fun _ => .inr (.inr (.inr hfailed))⟩
        · rw [Hosts.setHere_of_ne hstaged, Hosts.setHere_of_ne hpath]
          exact h.beside.here other hstaged
        · rw [Hosts.setHere_of_ne hapart.symm, Hosts.setHere_self]
          exact h.bytes

theorem downloadStaged_achieves (hexDigest : Bytes → String) (processId : Nat)
    (remote : String) (path : LocalPath) (given : Bool) (start : Hosts) :
    DownloadAchieves start path (localStagedPath processId path) (fun _ _ _ => True)
      (downloadStaged hexDigest processId remote path (verifier given)) [] start := by
  have hapart := localStagedPath_ne processId path
  have hstart : Beside start (localStagedPath processId path) start := ⟨fun _ _ => rfl, rfl⟩
  intro opened s' hanswer
  cases hanswer
  refine ⟨trivial, ?_⟩
  cases opened with
  | error reason => exact hstart.spared hapart fun _ => .inr (.inl rfl)
  | ok reads =>
      intro created s' hanswer
      refine ⟨trivial, ?_⟩
      have hbeside : Beside start (localStagedPath processId path) s' :=
        Tried.holds hanswer hstart (hstart.setStaged (some []))
      cases created with
      | error reason =>
          exact hbeside.spared hapart fun _ => .inr (.inr (.inl ⟨_, _, List.getLast?_concat⟩))
      | ok _ =>
          refine (receiveReads_achieves hapart hbeside).bind ?_
          intro data log s hbeside
          refine (flushLocal_achieves hapart hbeside).bind ?_
          rintro - log s ⟨content, hfinished⟩
          refine (confirmDownload_achieves hapart hfinished given).bind ?_
          intro verified log s hfinished
          exact (renameLocal_achieves hapart hfinished).bind fun _ _ _ _ => trivial

end Download

/-- A transfer that fails, any call failing in any way and with its effect or without it, leaves
every file as it was. The destination of a write or an upload may be gone when the swap of the
promotion broke, and a destination may be the finished staged file when the rename failed. No
staged file stays behind if every clean-up succeeds, unless the step that failed was its creation
or one of the promotion. -/
theorem failed_transfer_spares (hexDigest : Bytes → String) (id : StageId) (processId : Nat)
    (remote : String) (path : LocalPath) (mode : Option Nat) (given : Bool) (start last : Hosts)
    (events : Log) (error : String) :
    (∀ data, Runs hosts start
        (writeStaged hexDigest id remote data mode (verifier given)) events (.error error) last →
      RemoteSpared start remote (stagedPath id remote) (hexDigest data) data events last) ∧
    (Runs hosts start
        (uploadStaged hexDigest id path remote mode (verifier given)) events (.error error) last →
      RemoteSpared start remote (stagedPath id remote) (hexDigest ((start.here path).getD []))
        ((start.here path).getD []) events last) ∧
    (Runs hosts start
        (downloadStaged hexDigest processId remote path (verifier given)) events (.error error)
        last →
      DownloadSpared start path (localStagedPath processId path) events last) := by
  let job (data : Bytes) : Job :=
    ⟨start, remote, stagedPath id remote, hexDigest data, data, stagedPath_ne id remote⟩
  refine ⟨fun data hrun => ?_, fun hrun => ?_, fun hrun => ?_⟩
  · have hachieves := Job.writeStaged_achieves (job data) rfl rfl mode given
    exact (hachieves.sound hrun).2.2 error rfl
  · have hachieves := Job.uploadStaged_achieves (job ((start.here path).getD [])) rfl rfl rfl
      mode given
    exact (hachieves.sound hrun).2.2 error rfl
  · exact ((downloadStaged_achieves hexDigest processId remote path given start).sound
      hrun).2.2 error rfl

/-- SHA-256 of the byte strings 01 and 02. -/
def sampleDigest : Bytes → String
  | [1] => "4bf5122f344554c53bde2ebb8cd2b7e3d1600ad631c385a5d7cce23c7785459a"
  | [2] => "dbc1b4c900ffe48d575b5da5c638040125f65db0fe3e24494b76ea986457d986"
  | _ => ""

def sampleServer (fails : HostOp → Bool) : Server where
  hexDigest := sampleDigest
  escapes _ := false
  cut := .bytewise
  fails := fails
  fstat content := .ok ⟨some content.length⟩

/-- One byte in a remote file `/f` and another in a local file `/g`. -/
def sampleHosts : Hosts where
  remote path := if path = "/f" then some (.file [1] none) else none
  here path := if path = ⟨true, [.normal "g"]⟩ then some [2] else none

/-- The close of a written file fails, and the flush of a downloaded one. -/
theorem failed_transfer_spares_lastBytes :
    (∃ events error last,
      Runs hosts sampleHosts (writeStaged sampleDigest ⟨1, 2, 3⟩ "/f" [2] none none) events
        (.error error) last ∧
      RemoteSpared sampleHosts "/f" (stagedPath ⟨1, 2, 3⟩ "/f") (sampleDigest [2]) [2] events
        last) ∧
    (∃ events error last,
      Runs hosts sampleHosts
        (uploadStaged sampleDigest ⟨1, 2, 3⟩ ⟨true, [.normal "g"]⟩ "/f" none none) events
        (.error error) last ∧
      RemoteSpared sampleHosts "/f" (stagedPath ⟨1, 2, 3⟩ "/f") (sampleDigest [2]) [2] events
        last) ∧
    ∃ events error last,
      Runs hosts sampleHosts (downloadStaged sampleDigest 1 "/f" ⟨true, [.normal "g"]⟩ none)
        events (.error error) last ∧
      DownloadSpared sampleHosts ⟨true, [.normal "g"]⟩
        (localStagedPath 1 ⟨true, [.normal "g"]⟩) events last := by
  let server := sampleServer fun op =>
    match op with
    | .closeRemote _ | .flushLocal _ => true
    | _ => false
  have hwrite := server.runs (s := sampleHosts)
    (p := writeStaged sampleDigest ⟨1, 2, 3⟩ "/f" [2] none none)
    (r := .error "REMOTE_IO_ERROR: /f.aissh-tmp-1-2-3: failure") (by decide)
  have hupload := server.runs (s := sampleHosts)
    (p := uploadStaged sampleDigest ⟨1, 2, 3⟩ ⟨true, [.normal "g"]⟩ "/f" none none)
    (r := .error "REMOTE_IO_ERROR: /f.aissh-tmp-1-2-3: failure") (by decide)
  have hdownload := server.runs (s := sampleHosts)
    (p := downloadStaged sampleDigest 1 "/f" ⟨true, [.normal "g"]⟩ none)
    (r := .error "LOCAL_IO_ERROR: /g.aissh-tmp-1: failure") (by decide)
  have hspares := failed_transfer_spares sampleDigest ⟨1, 2, 3⟩ 1 "/f" ⟨true, [.normal "g"]⟩ none
    false sampleHosts
  exact ⟨⟨_, _, _, hwrite, (hspares _ _ _).1 [2] hwrite⟩,
    ⟨_, _, _, hupload, (hspares _ _ _).2.1 hupload⟩,
    _, _, _, hdownload, (hspares _ _ _).2.2 hdownload⟩

/-- The rename fails after the destination was removed: the destination is gone and the
staged file is left behind, although every clean-up asked for has succeeded. -/
theorem failed_rename_loses_destination :
    ∃ events error last,
      Runs hosts sampleHosts (writeStaged sampleDigest ⟨1, 2, 3⟩ "/f" [2] none none) events
        (.error error) last ∧
      CleanedUp (stagedPath ⟨1, 2, 3⟩ "/f") events ∧
      sampleHosts.bytes "/f" = some [1] ∧ last.remote "/f" = none ∧
      last.bytes (stagedPath ⟨1, 2, 3⟩ "/f") = some [2] := by
  let server := sampleServer fun op =>
    match op with
    | .renameRemote _ _ => true
    | _ => false
  let p := writeStaged sampleDigest ⟨1, 2, 3⟩ "/f" [2] none none
  have hrun := server.runs (s := sampleHosts) (p := p)
    (r := .error "REMOTE_IO_ERROR: /f: failure") (by decide)
  have hops : .removeRemote (stagedPath ⟨1, 2, 3⟩ "/f") ∉
      (p.history server.answer sampleHosts).map Event.op := by decide
  refine ⟨_, _, _, hrun, ?_, by decide, by decide, by decide⟩
  exact fun error after hmem => hops (List.mem_map_of_mem hmem)

/-- Every digest the verifier reported is that of the file it was asked about. -/
def Truthful (hexDigest : Bytes → String) (log : Log) : Prop :=
  ∀ path actual, ∀ after : Hosts, ⟨.sha256 path, some actual, after⟩ ∈ log →
    ∃ content, after.bytes path = some content ∧ actual = hexDigest content

theorem Landed.digest {hexDigest : Bytes → String} {staged digest : String}
    {data content : Bytes} {log : Log} (h : Landed staged digest data log content)
    (htruthful : Truthful hexDigest log) {actual : String} {after : Hosts}
    (hasked : ⟨.sha256 staged, some actual, after⟩ ∈ log) : hexDigest content = digest := by
  obtain ⟨bytes, hbytes, hdigest⟩ := htruthful _ _ _ hasked
  cases (h.hashed _ _ hasked).symm.trans hbytes
  exact hdigest.symm.trans (h.passed _ hasked)

/-- The destination on the way of a transfer of `data`. -/
structure NeverPartial (hexDigest : Bytes → String) (start : Hosts) (remote staged : String)
    (data : Bytes) (events : Log) (result : Except String TransferOutcome) (last : Hosts) :
    Prop where
  states : ∀ before event after, events = before ++ event :: after →
    event.after.remote remote = start.remote remote ∨ event.after.remote remote = none ∨
      ∃ content, event.after.bytes remote = some content ∧
        Landed staged (hexDigest data) data (before ++ [event]) content ∧
        (Truthful hexDigest events →
          (∃ actual seen, ⟨.sha256 staged, some actual, seen⟩ ∈ before ++ [event]) →
          hexDigest content = hexDigest data)
  verified : Truthful hexDigest events →
    (∀ bytes, hexDigest bytes = hexDigest data → bytes = data) →
    ∀ outcome, result = .ok outcome → outcome.verified = true → last.bytes remote = some data

theorem Job.Achieves.neverPartial {job : Job} {hexDigest : Bytes → String}
    {p : Transfer TransferOutcome}
    (h : job.Achieves
      (fun outcome log s => job.Placed log s ∧ (outcome.verified = true → job.Answered log))
      p [] job.start)
    (hdigest : job.digest = hexDigest job.data) {events : Log}
    {result : Except String TransferOutcome} {last : Hosts}
    (hrun : Runs hosts job.start p events result last) :
    NeverPartial hexDigest job.start job.remote job.staged job.data events result last := by
  obtain ⟨hstates, hok, -⟩ := Ensures.sound h hrun
  simp only [List.nil_append] at hstates hok
  constructor
  · intro before event after hsplit
    refine (hstates before event after hsplit).imp_right (Or.imp_right ?_)
    rintro ⟨content, hcontent, hlanded⟩
    rw [hdigest] at hlanded
    refine ⟨content, hcontent, hlanded, ?_⟩
    rintro htruthful ⟨actual, seen, hasked⟩
    refine hlanded.digest (fun path actual after hmem => htruthful path actual after ?_) hasked
    rw [hsplit, List.append_cons]
    exact List.mem_append_left _ hmem
  · intro htruthful hinjective outcome hresult hverified
    obtain ⟨⟨content, hcontent, hlanded⟩, hanswered⟩ := hok outcome hresult
    obtain ⟨after, hasked⟩ := hanswered hverified
    rw [hdigest] at hlanded
    rw [hcontent, hinjective content (hlanded.digest htruthful hasked)]

/-- At every step of a write or an upload, any call failing, stopping part-way or storing
other bytes, the destination is as before, absent, or the finished staged file; and a
verified transfer has put exactly the source there. -/
theorem destination_never_partial (hexDigest : Bytes → String) (id : StageId)
    (remote : String) (path : LocalPath) (mode : Option Nat) (given : Bool)
    (start last : Hosts) (events : Log) (result : Except String TransferOutcome) :
    (∀ data, Runs hosts start
        (writeStaged hexDigest id remote data mode (verifier given)) events result last →
      NeverPartial hexDigest start remote (stagedPath id remote) data events result last) ∧
    (Runs hosts start
        (uploadStaged hexDigest id path remote mode (verifier given)) events result last →
      NeverPartial hexDigest start remote (stagedPath id remote) ((start.here path).getD [])
        events result last) := by
  let job (data : Bytes) : Job :=
    ⟨start, remote, stagedPath id remote, hexDigest data, data, stagedPath_ne id remote⟩
  constructor
  · intro data hrun
    have hachieves := Job.writeStaged_achieves (job data) rfl rfl mode given
    exact Job.Achieves.neverPartial hachieves rfl hrun
  · intro hrun
    have hachieves := Job.uploadStaged_achieves (job ((start.here path).getD [])) rfl rfl rfl
      mode given
    exact Job.Achieves.neverPartial hachieves rfl hrun

/-- A verified write over an existing file, and an upload of a local one. -/
theorem destination_never_partial_verified :
    (∃ events outcome last,
      Runs hosts sampleHosts
        (writeStaged sampleDigest ⟨1, 2, 3⟩ "/f" [2] none (verifier true)) events (.ok outcome)
        last ∧
      outcome.verified = true ∧
      NeverPartial sampleDigest sampleHosts "/f" (stagedPath ⟨1, 2, 3⟩ "/f") [2] events
        (.ok outcome) last) ∧
    ∃ events outcome last,
      Runs hosts sampleHosts
        (uploadStaged sampleDigest ⟨1, 2, 3⟩ ⟨true, [.normal "g"]⟩ "/f" none (verifier true))
        events (.ok outcome) last ∧
      NeverPartial sampleDigest sampleHosts "/f" (stagedPath ⟨1, 2, 3⟩ "/f") [2] events
        (.ok outcome) last := by
  have hwrite := (sampleServer fun _ => false).runs (s := sampleHosts)
    (p := writeStaged sampleDigest ⟨1, 2, 3⟩ "/f" [2] none (verifier true))
    (r := .ok ⟨1, sampleDigest [2], true, true⟩) (by decide)
  have hupload := (sampleServer fun _ => false).runs (s := sampleHosts)
    (p := uploadStaged sampleDigest ⟨1, 2, 3⟩ ⟨true, [.normal "g"]⟩ "/f" none (verifier true))
    (r := .ok ⟨1, sampleDigest [2], true, true⟩) (by decide)
  have hnever := destination_never_partial sampleDigest ⟨1, 2, 3⟩ "/f" ⟨true, [.normal "g"]⟩
    none true sampleHosts
  exact ⟨⟨_, _, _, hwrite, rfl, (hnever _ _ _).1 [2] hwrite⟩,
    _, _, _, hupload, (hnever _ _ _).2 hupload⟩

end AiSsh
