import AiSsh.Library.Machine
import AiSsh.Requests

/-!
One connection of the daemon. A frame is read, dispatched and answered before the next
one is read. The session manager is known by the calls that reach it and by what it
answers to them.
-/

namespace AiSsh

open Library

/-- The methods of the session manager that a connection calls. -/
inductive ManagerCall
  | targets
  | sessions (includeHistory : Bool)
  | create (targetId purpose clientName : String)
  | status (sessionId : String)
  | close (sessionId : String)
  | execStart (sessionId command : String) (cwd : Option String) (env : List (String × String))
      (timeoutSeconds : Option Nat)
  | execBackground (sessionId command : String) (cwd : Option String)
      (env : List (String × String)) (timeoutSeconds : Option Nat)
  | commandPoll (commandId : String) (after maxBytes waitSeconds : Nat)
  | commandCancel (commandId : String)
  | commands (sessionId : Option String) (includeFinished : Bool) (limit : UInt32)
  | shellOpen (sessionId : String) (cols rows : UInt32) (term : String)
  | shellWrite (sessionId : String) (data : Bytes)
  | shellRead (sessionId : String) (after maxBytes waitSeconds : Nat)
  | shellResize (sessionId : String) (cols rows : UInt32)
  | shellClose (sessionId : String)
  | fileStat (sessionId remotePath : String) (hash : Bool)
  | fileRead (sessionId remotePath : String) (maxBytes : Nat) (useSudo : Bool)
  | fileWrite (sessionId remotePath : String) (data : Bytes) (append createDirs : Bool)
      (mode : Option UInt32) (useSudo ifChanged : Bool)
  | fileUpload (sessionId localPath remotePath : String) (createDirs : Bool)
      (mode : Option UInt32) (verify : Bool)
  | fileDownload (sessionId remotePath localPath : String) (overwrite createDirs verify : Bool)
  | fileMkdir (sessionId remotePath : String) (parents : Bool) (mode : Option UInt32)
  | reloadConfig
  deriving DecidableEq, Repr

namespace ManagerCall

def Answer : ManagerCall → Type
  | targets => List TargetSummary
  | sessions _ => Except ErrorPayload (List SessionInfo)
  | create _ _ _ | status _ | shellOpen _ _ _ _ => Except ErrorPayload SessionInfo
  | execStart _ _ _ _ _ | execBackground _ _ _ _ _ => Except ErrorPayload CommandInfo
  | commandPoll _ _ _ _ => Except ErrorPayload PollPage
  | commands _ _ _ => Except ErrorPayload (List CommandSummary)
  | shellRead _ _ _ _ => Except ErrorPayload ShellPage
  | fileStat _ _ _ => Except ErrorPayload FileStatInfo
  | fileRead _ _ _ _ => Except ErrorPayload FileContentInfo
  | fileWrite _ _ _ _ _ _ _ _ | fileUpload _ _ _ _ _ _ | fileDownload _ _ _ _ _ _ =>
      Except ErrorPayload FileOutcome
  | close _ | commandCancel _ | shellWrite _ _ | shellResize _ _ _ | shellClose _
  | fileMkdir _ _ _ _ | reloadConfig => Except ErrorPayload Unit

/-- What the connection makes of the manager's answer. -/
def respond : (call : ManagerCall) → call.Answer → Except ErrorPayload ResponseData
  | targets, (answer : List TargetSummary) => .ok (.targets answer)
  | sessions _, (answer : Except ErrorPayload (List SessionInfo)) => answer.map .sessions
  | create _ _ _, (answer : Except ErrorPayload SessionInfo)
  | status _, (answer : Except ErrorPayload SessionInfo)
  | shellOpen _ _ _ _, (answer : Except ErrorPayload SessionInfo) => answer.map .session
  | execStart _ _ _ _ _, (answer : Except ErrorPayload CommandInfo)
  | execBackground _ _ _ _ _, (answer : Except ErrorPayload CommandInfo) => answer.map .command
  | commandPoll _ after _ _, (answer : Except ErrorPayload PollPage) =>
      answer.map fun page => .events (respondPoll page after)
  | commands _ _ _, (answer : Except ErrorPayload (List CommandSummary)) => answer.map .commands
  | shellRead _ after _ _, (answer : Except ErrorPayload ShellPage) =>
      answer.map fun page => .events (respondShell page after)
  | fileStat _ _ _, (answer : Except ErrorPayload FileStatInfo) => answer.map .fileStat
  | fileRead _ _ _ _, (answer : Except ErrorPayload FileContentInfo) => answer.map .fileContent
  | fileWrite _ _ _ _ _ _ _ _, (answer : Except ErrorPayload FileOutcome)
  | fileUpload _ _ _ _ _ _, (answer : Except ErrorPayload FileOutcome)
  | fileDownload _ _ _ _ _ _, (answer : Except ErrorPayload FileOutcome) =>
      answer.map .fileOutcome
  | close _, (answer : Except ErrorPayload Unit)
  | commandCancel _, (answer : Except ErrorPayload Unit)
  | shellWrite _ _, (answer : Except ErrorPayload Unit)
  | shellResize _ _ _, (answer : Except ErrorPayload Unit)
  | shellClose _, (answer : Except ErrorPayload Unit)
  | fileMkdir _ _ _ _, (answer : Except ErrorPayload Unit)
  | reloadConfig, (answer : Except ErrorPayload Unit) => answer.map fun _ => .ack

end ManagerCall

/-- What the dispatch of one request comes to: the call that reaches the manager, whether
the daemon is to stop, and the answer. -/
structure Dispatch where
  clientName : String
  call : Option ManagerCall
  shutdownRequested : Bool
  result : Except ErrorPayload ResponseData

/-- The manager, for the time of one request. -/
abbrev Manager : Type := (call : ManagerCall) → call.Answer

def Manager.dispatch (manager : Manager) (clientName : String) (call : ManagerCall) : Dispatch :=
  ⟨clientName, some call, false, call.respond (manager call)⟩

def protocolMismatch (requested : UInt16) : ErrorPayload :=
  .new "PROTOCOL_MISMATCH"
    s!"daemon uses protocol {protocolVersion}, client requested {requested}"

def Request.dispatch (manager : Manager) (clientName : String) : Request → Dispatch
  | handshake version name =>
      if version ≠ protocolVersion then
        ⟨clientName, none, false, .error (protocolMismatch version)⟩
      else
        ⟨name, none, false, .ok (.handshake protocolVersion daemonVersion)⟩
  | targetsList => manager.dispatch clientName .targets
  | sessionsList includeHistory => manager.dispatch clientName (.sessions includeHistory)
  | sessionCreate targetId purpose =>
      manager.dispatch clientName (.create targetId purpose clientName)
  | sessionStatus sessionId => manager.dispatch clientName (.status sessionId)
  | sessionClose sessionId => manager.dispatch clientName (.close sessionId)
  | execStart sessionId command cwd env timeoutSeconds =>
      manager.dispatch clientName (.execStart sessionId command cwd env timeoutSeconds)
  | execBackground sessionId command cwd env timeoutSeconds =>
      manager.dispatch clientName (.execBackground sessionId command cwd env timeoutSeconds)
  | commandPoll commandId afterSequence maxBytes waitSeconds =>
      manager.dispatch clientName (.commandPoll commandId afterSequence maxBytes waitSeconds)
  | commandCancel commandId => manager.dispatch clientName (.commandCancel commandId)
  | commandsList sessionId includeFinished limit =>
      manager.dispatch clientName (.commands sessionId includeFinished limit)
  | shellOpen sessionId cols rows term =>
      manager.dispatch clientName (.shellOpen sessionId cols rows term)
  | shellWrite sessionId data => manager.dispatch clientName (.shellWrite sessionId data)
  | shellRead sessionId afterSequence maxBytes waitSeconds =>
      manager.dispatch clientName (.shellRead sessionId afterSequence maxBytes waitSeconds)
  | shellResize sessionId cols rows =>
      manager.dispatch clientName (.shellResize sessionId cols rows)
  | shellClose sessionId => manager.dispatch clientName (.shellClose sessionId)
  | fileStat sessionId remotePath hash =>
      manager.dispatch clientName (.fileStat sessionId remotePath hash)
  | fileRead sessionId remotePath maxBytes useSudo =>
      manager.dispatch clientName (.fileRead sessionId remotePath maxBytes useSudo)
  | fileWrite sessionId remotePath data append createDirs mode useSudo ifChanged =>
      manager.dispatch clientName
        (.fileWrite sessionId remotePath data append createDirs mode useSudo ifChanged)
  | fileUpload sessionId localPath remotePath createDirs mode verify =>
      manager.dispatch clientName
        (.fileUpload sessionId localPath remotePath createDirs mode verify)
  | fileDownload sessionId remotePath localPath overwrite createDirs verify =>
      manager.dispatch clientName
        (.fileDownload sessionId remotePath localPath overwrite createDirs verify)
  | fileMkdir sessionId remotePath parents mode =>
      manager.dispatch clientName (.fileMkdir sessionId remotePath parents mode)
  | reloadConfig => manager.dispatch clientName .reloadConfig
  | daemonShutdown => ⟨clientName, none, true, .ok .ack⟩

/-- A request that has been served: what it reached and how it was answered. The daemon is
told to stop only after the answer is on its way. -/
structure Served where
  request : Request
  call : Option ManagerCall
  shutdown : Bool
  response : Response

/-- The request has reached the manager or stops the daemon. -/
def Served.runs (served : Served) : Bool := served.call.isSome || served.shutdown

/-- A connection: the name its client has given, whether it is still read, and what it
has served. -/
structure Client where
  clientName : String
  isOpen : Bool
  log : List Served

/-- What the connection meets next: a frame, with the manager's answers and whether the
response can be written, the end of the stream, or a frame that cannot be read. -/
inductive ClientStep
  | request (frame : RequestFrame) (manager : Manager) (written : Bool)
  | endOfFile
  | unreadable

namespace Client

def connected : Client := ⟨"unknown", true, []⟩

/-- `serve_client`, one turn of its loop. -/
def step (c : Client) : ClientStep → Option Client
  | .request frame manager written =>
      if c.isOpen then
        let dispatch := frame.request.dispatch manager c.clientName
        some {
          clientName := dispatch.clientName
          isOpen := written && !dispatch.shutdownRequested
          log := c.log ++ [{
            request := frame.request
            call := dispatch.call
            shutdown := written && dispatch.shutdownRequested
            response := ⟨frame.requestId, dispatch.result⟩ }] }
      else none
  | .endOfFile | .unreadable => if c.isOpen then some { c with isOpen := false } else none

def machine : Machine Client ClientStep := ⟨step⟩

end Client

/-- Whether one of the requests was a handshake with the daemon's version. -/
def Greeted (log : List Served) : Prop := ∃ served ∈ log, served.request.matchesProtocol = true

/-- Every request that ran came after a matching handshake. -/
def Guarded (log : List Served) : Prop :=
  ∀ before served after, log = before ++ served :: after → served.request.isHandshake = false →
    served.runs = true → Greeted before

theorem greeted_append {log : List Served} {served : Served} :
    Greeted (log ++ [served]) ↔ Greeted log ∨ served.request.matchesProtocol = true := by
  simp [Greeted, List.mem_append, or_and_right, exists_or]

theorem guarded_append {log : List Served} {served : Served} :
    Guarded (log ++ [served]) ↔ Guarded log ∧
      (served.request.isHandshake = false → served.runs = true → Greeted log) := by
  constructor
  · intro h
    refine ⟨?_, h log served [] rfl⟩
    intro before other after hlog
    exact h before other (after ++ [served]) (by simp [hlog])
  · rintro ⟨hlog, hlast⟩ before other after hsplit
    cases List.eq_nil_or_concat after with
    | inl hnil =>
        subst hnil
        obtain ⟨rfl, hsame⟩ := List.append_inj' hsplit rfl
        cases hsame
        exact hlast
    | inr hlonger =>
        obtain ⟨after, last, rfl⟩ := hlonger
        rw [List.concat_eq_append, ← List.cons_append, ← List.append_assoc] at hsplit
        exact hlog before other after (List.append_inj' hsplit rfl).1

/-- A request other than a handshake runs, unless it is a shutdown whose answer cannot be
written. -/
theorem Request.dispatch_runs (request : Request) (manager : Manager) (clientName : String)
    (written : Bool) : ((request.dispatch manager clientName).call.isSome ||
      (written && (request.dispatch manager clientName).shutdownRequested)) =
        (!request.isHandshake && (written || request != .daemonShutdown)) := by
  cases request with
  | handshake version name =>
      simp only [dispatch, isHandshake]
      split
      · simp
      · simp
  | daemonShutdown => simp [dispatch, isHandshake]
  | _ => simp [dispatch, Manager.dispatch, isHandshake]

namespace ClientStep

def matchesProtocol : ClientStep → Bool
  | request frame _ _ => frame.request.matchesProtocol
  | _ => false

/-- A handshake, or nothing that the daemon acts on: a shutdown that cannot be answered, or
no frame at all. -/
def quiet : ClientStep → Bool
  | request frame _ written =>
      frame.request.isHandshake || frame.request == .daemonShutdown && !written
  | _ => true

theorem quiet_of_matchesProtocol {move : ClientStep} (h : move.matchesProtocol = true) :
    move.quiet = true := by
  cases move with
  | request frame manager written =>
      simp [quiet, Request.isHandshake_of_matchesProtocol h]
  | _ => cases h

end ClientStep

namespace Client

variable {c c' t : Client} {move : ClientStep} {moves : List ClientStep}

/-- What a step adds to the log. -/
theorem step_log (h : c.step move = some c') :
    (Greeted c'.log ↔ Greeted c.log ∨ move.matchesProtocol = true) ∧
      (Guarded c'.log ↔ Guarded c.log ∧ (move.quiet = false → Greeted c.log)) := by
  cases move with
  | request frame manager written =>
      simp only [step] at h
      split at h
      · cases h
        refine ⟨greeted_append, ?_⟩
        rw [guarded_append]
        refine and_congr_right fun _ => ?_
        simp only [Served.runs, Request.dispatch_runs, ClientStep.quiet]
        cases frame.request.isHandshake with
        | true => simp
        | false =>
            cases written with
            | true => simp
            | false => simp [bne]
      · cases h
  | endOfFile | unreadable =>
      simp only [step] at h
      split at h
      · cases h
        simp [ClientStep.matchesProtocol, ClientStep.quiet]
      · cases h

theorem run_guarded (hrun : machine.run c moves = some t) :
    Guarded t.log ↔ Guarded c.log ∧ (Greeted c.log ∨
      (moves.takeWhile fun move => !move.matchesProtocol).all ClientStep.quiet = true) := by
  induction moves generalizing c with
  | nil =>
      cases hrun
      simp
  | cons move moves ih =>
      obtain ⟨c', hstep, hrun⟩ := machine.run_cons_some.mp hrun
      obtain ⟨hgreeted, hguarded⟩ := step_log hstep
      rw [ih hrun, hguarded, hgreeted]
      cases hmatches : move.matchesProtocol with
      | true => simp [hmatches, ClientStep.quiet_of_matchesProtocol hmatches]
      | false =>
          simp only [List.takeWhile_cons, hmatches, Bool.not_false, if_true, List.all_cons,
            Bool.and_eq_true, Bool.false_eq_true, or_false, and_assoc]
          refine and_congr_right fun _ => ?_
          cases move.quiet with
          | true => simp
          | false => simp +contextual

/-- On one connection every request that runs comes after a matching handshake, exactly
when all that the client sends before its first matching handshake is handshakes. -/
theorem serve_client_guarded_iff (hrun : machine.run connected moves = some t) :
    Guarded t.log ↔
      (moves.takeWhile fun move => !move.matchesProtocol).all ClientStep.quiet = true := by
  rw [run_guarded hrun]
  have hstart : Guarded connected.log := by
    intro before served after hlog
    cases before with
    | nil => cases hlog
    | cons _ _ => cases hlog
  have hgreeted : ¬Greeted connected.log := fun ⟨_, h, _⟩ => nomatch h
  simp [hstart, hgreeted]

/-- A manager that knows no session. -/
def noManager : Manager := fun call =>
  match call with
  | .targets => ([] : List TargetSummary)
  | .sessions _ => (.ok [] : Except ErrorPayload (List SessionInfo))
  | .create _ _ _ | .status _ | .shellOpen _ _ _ _ =>
      (.error (.new "SESSION_NOT_FOUND" "none") : Except ErrorPayload SessionInfo)
  | .execStart _ _ _ _ _ | .execBackground _ _ _ _ _ =>
      (.error (.new "SESSION_NOT_FOUND" "none") : Except ErrorPayload CommandInfo)
  | .commandPoll _ _ _ _ =>
      (.error (.new "COMMAND_NOT_FOUND" "none") : Except ErrorPayload PollPage)
  | .commands _ _ _ => (.ok [] : Except ErrorPayload (List CommandSummary))
  | .shellRead _ _ _ _ =>
      (.error (.new "SESSION_NOT_FOUND" "none") : Except ErrorPayload ShellPage)
  | .fileStat _ _ _ =>
      (.error (.new "SESSION_NOT_FOUND" "none") : Except ErrorPayload FileStatInfo)
  | .fileRead _ _ _ _ =>
      (.error (.new "SESSION_NOT_FOUND" "none") : Except ErrorPayload FileContentInfo)
  | .fileWrite _ _ _ _ _ _ _ _ | .fileUpload _ _ _ _ _ _ | .fileDownload _ _ _ _ _ _ =>
      (.error (.new "SESSION_NOT_FOUND" "none") : Except ErrorPayload FileOutcome)
  | .close _ | .commandCancel _ | .shellWrite _ _ | .shellResize _ _ _ | .shellClose _
  | .fileMkdir _ _ _ _ | .reloadConfig =>
      (.error (.new "SESSION_NOT_FOUND" "none") : Except ErrorPayload Unit)

/-- A handshake with `version`, and then a command. -/
def greetAndExec (version : UInt16) : List ClientStep :=
  [.request ⟨1, .handshake version "aissh-mcp"⟩ noManager true,
    .request ⟨2, .execStart "s" "ls" none [] none⟩ noManager true, .endOfFile]

theorem serve_client_guarded_iff_greeted :
    ∃ t, machine.run connected (greetAndExec 3) = some t ∧
      t.log.map Served.call = [none, some (.execStart "s" "ls" none [] none)] ∧
      Guarded t.log := by
  have hrun : ∃ t, machine.run connected (greetAndExec 3) = some t ∧
      t.log.map Served.call = [none, some (.execStart "s" "ls" none [] none)] :=
    ⟨_, rfl, rfl⟩
  obtain ⟨t, hrun, hcalls⟩ := hrun
  exact ⟨t, hrun, hcalls, (serve_client_guarded_iff hrun).mpr (by decide)⟩

/-- A client of another version is refused, and its next request runs all the same. -/
theorem mismatched_client_runs :
    ∃ t, machine.run connected (greetAndExec 2) = some t ∧
      t.log.head?.map (fun served => served.response.result) =
        some (.error (protocolMismatch 2)) ∧
      t.log.map Served.call = [none, some (.execStart "s" "ls" none [] none)] ∧
      ¬Guarded t.log := by
  have hrun : ∃ t, machine.run connected (greetAndExec 2) = some t ∧
      t.log.head?.map (fun served => served.response.result) =
        some (.error (protocolMismatch 2)) ∧
      t.log.map Served.call = [none, some (.execStart "s" "ls" none [] none)] :=
    ⟨_, rfl, rfl, rfl⟩
  obtain ⟨t, hrun, hrefused, hcalls⟩ := hrun
  refine ⟨t, hrun, hrefused, hcalls, fun hguarded => ?_⟩
  cases ((run_guarded hrun).mp hguarded).2 with
  | inl hgreeted =>
      obtain ⟨_, hserved, -⟩ := hgreeted
      cases hserved
  | inr hquiet => exact absurd hquiet (by decide)

end Client
end AiSsh
