import AiSsh.Frames
import AiSsh.Library.Exchange
import AiSsh.ServeClient

/-!
The calls that the MCP server and the desktop application make to the daemon: a connection for
each, a handshake, the request, and the answer, all as frames of bytes. Whatever happens to the
connection, the daemon acts on the request at most once, and the caller is told what the daemon
did or that the exchange broke down.
-/

namespace AiSsh

open Library

namespace Frames

universe u

section

variable {T : Type} (decode : Bytes → Except String T)

/-- `read_frame` on the bytes that have arrived. -/
def arrival (bytes : Bytes) : Arrival T :=
  if bytes.length < 4 then .missing
  else
    let len := ofBigEndian (bytes.take 4)
    if len > maxFrameBytes then .broken
    else if (bytes.drop 4).length < len then .missing
    else
      match decode ((bytes.drop 4).take len) with
      | .error _ => .broken
      | .ok value => .value value ((bytes.drop 4).drop len)

/-- A reader for whom nothing more arrives. -/
theorem readFrame_arrival (source : ByteSource) :
    match arrival decode source.bytes with
    | .missing => readFrame decode source = .error .unexpectedEof
    | .broken => ∃ error, readFrame decode source = .error error
    | .value value rest =>
        ∃ source', readFrame decode source = .ok (value, source') ∧ source'.bytes = rest := by
  have hheader := source.readExact_spec 4
  rw [arrival]
  by_cases hshort : source.bytes.length < 4
  · rw [if_neg (by omega)] at hheader
    simp only [hshort, if_true, readFrame, hheader]
  · rw [if_pos (by omega)] at hheader
    obtain ⟨middle, hread, hmiddle⟩ := hheader
    have hbody := middle.readExact_spec (ofBigEndian (source.bytes.take 4))
    rw [hmiddle] at hbody
    simp only [hshort, if_false, readFrame, hread]
    by_cases hlarge : ofBigEndian (source.bytes.take 4) > maxFrameBytes
    · simp only [hlarge, if_true]
      exact ⟨_, rfl⟩
    · simp only [hlarge, if_false]
      by_cases hcut : (source.bytes.drop 4).length < ofBigEndian (source.bytes.take 4)
      · rw [if_neg (by omega)] at hbody
        simp only [hcut, if_true, hbody]
      · rw [if_pos (by omega)] at hbody
        obtain ⟨last, hlast, hrest⟩ := hbody
        simp only [hcut, if_false, hlast]
        cases decode ((source.bytes.drop 4).take (ofBigEndian (source.bytes.take 4))) with
        | error text => exact ⟨_, rfl⟩
        | ok value => exact ⟨last, rfl, hrest⟩

end

section

variable {T : Type} {encode : T → Except String Bytes} {decode : Bytes → Except String T}

/-- The bytes of a value, where it may be sent. -/
def framed (encode : T → Except String Bytes) (value : T) : Option Bytes :=
  match encode value with
  | .error _ => none
  | .ok body => if body.length > maxFrameBytes then none else some (frame body)

theorem writeFrame_framed (encode : T → Except String Bytes) (out : Bytes) (value : T) :
    match framed encode value with
    | some part => writeFrame encode out value = (.ok (), out ++ part)
    | none => ∃ error, writeFrame encode out value = (.error error, out) := by
  rw [framed]
  cases hbody : encode value with
  | error text =>
      refine ⟨.encode text, ?_⟩
      rw [writeFrame, hbody]
  | ok body =>
      by_cases h : body.length > maxFrameBytes
      · simp only [h, if_true]
        exact ⟨.tooLarge, writeFrame_tooLarge hbody h⟩
      · simp only [h, if_false]
        exact writeFrame_ok hbody (Nat.not_lt.mp h)

theorem framed_some {value : T} {part : Bytes} (h : framed encode value = some part) :
    ∃ body, encode value = .ok body ∧ body.length ≤ maxFrameBytes ∧ part = frame body := by
  rw [framed] at h
  split at h
  · cases h
  · rename_i body hbody
    split at h
    · cases h
    · rename_i hsize
      cases h
      exact ⟨body, hbody, Nat.not_lt.mp hsize, rfl⟩

theorem arrival_frame {body : Bytes} {value : T} (hbody : decode body = .ok value)
    (h : body.length ≤ maxFrameBytes) : arrival decode (frame body) = .value value [] := by
  have hwidth : body.length < 256 ^ 4 := by
    rw [maxFrameBytes] at h
    omega
  have hheader : (frame body).take 4 = bigEndian 4 body.length := by
    rw [frame, List.take_left' (length_bigEndian 4 _)]
  have hrest : (frame body).drop 4 = body := by
    rw [frame, List.drop_left' (length_bigEndian 4 _)]
  have hlength : ¬(frame body).length < 4 := by
    rw [frame, List.length_append, length_bigEndian]
    omega
  simp only [arrival, hlength, if_false, hheader, hrest, ofBigEndian_bigEndian hwidth,
    Nat.not_lt.mpr h, Nat.lt_irrefl, List.take_length, hbody, List.drop_length]

theorem arrival_part {body part lost : Bytes} (h : body.length ≤ maxFrameBytes)
    (hframe : frame body = part ++ lost) (hlost : lost ≠ []) :
    arrival decode part = .missing := by
  have hwidth : body.length < 256 ^ 4 := by
    rw [maxFrameBytes] at h
    omega
  have hpos := List.length_pos_iff.mpr hlost
  have hlength := congrArg List.length hframe
  simp only [frame, List.length_append, length_bigEndian] at hlength
  rw [arrival]
  by_cases hshort : part.length < 4
  · rw [if_pos hshort]
  · have hheader : part.take 4 = bigEndian 4 body.length := by
      have htake := congrArg (List.take 4) hframe
      rw [frame, List.take_left' (length_bigEndian 4 _),
        List.take_append_of_le_length (Nat.not_lt.mp hshort)] at htake
      exact htake.symm
    have hcut : (part.drop 4).length < body.length := by
      rw [List.length_drop]
      omega
    simp only [hshort, if_false, hheader, ofBigEndian_bigEndian hwidth, Nat.not_lt.mpr h, hcut,
      if_true]

/-- What becomes of a value as bytes, and of the bytes as a value. -/
structure Codec (T : Type) where
  encode : T → Except String Bytes
  decode : Bytes → Except String T
  inverse : ∀ value body, encode value = .ok body → decode body = .ok value

/-- Values travel as frames. -/
def Codec.framing {T : Type} (codec : Codec T) : Framing T where
  write := framed codec.encode
  read := arrival codec.decode
  read_nil := rfl
  read_write := fun hwrite => by
    obtain ⟨body, hbody, hsize, rfl⟩ := framed_some hwrite
    exact arrival_frame (codec.inverse _ _ hbody) hsize
  read_part := fun hwrite hlost => by
    obtain ⟨body, -, hsize, hframe⟩ := framed_some hwrite
    exact arrival_part hsize hframe.symm hlost

end

end Frames

namespace Client

/-- What a connection is once it has served a request. -/
def served (c : Client) (manager : Manager) (frame : RequestFrame) (written : Bool) : Client :=
  let dispatch := frame.request.dispatch manager c.clientName
  { clientName := dispatch.clientName
    isOpen := written && !dispatch.shutdownRequested
    log := c.log ++ [{
      request := frame.request
      call := dispatch.call
      shutdown := written && dispatch.shutdownRequested
      response := ⟨frame.requestId, dispatch.result⟩ }] }

theorem step_served {c : Client} (hopen : c.isOpen = true) (manager : Manager)
    (frame : RequestFrame) (written : Bool) :
    c.step (.request frame manager written) = some (c.served manager frame written) := by
  simp only [step, hopen, if_true]
  rfl

/-- `serve_client` as the other end of an exchange. -/
def service : Service Client Manager RequestFrame Response where
  answer c manager frame := ⟨frame.requestId, (frame.request.dispatch manager c.clientName).result⟩
  next c manager frame written := c.served manager frame written
  stays c manager frame := !(frame.request.dispatch manager c.clientName).shutdownRequested

end Client

/-- Whether a call goes on after a response. -/
def Response.accepted (response : Response) : Bool := response.result.isOk

/-- Why a daemon call failed. -/
inductive CallError
  | daemon (payload : ErrorPayload)
  | transport

def handshakeFrame (requestId : Nat) (clientName : String) : RequestFrame :=
  ⟨requestId, .handshake protocolVersion clientName⟩

/-- A connection on which a call is made, with the two numbers that it draws. -/
abbrev DaemonExchange : Type := Exchange Client RequestFrame Response

/-- A handshake, and behind it the request, if there is one. -/
def daemonExchange (handshakeId : Nat) (clientName : String) (asked : Option RequestFrame) :
    DaemonExchange :=
  .start .connected (handshakeFrame handshakeId clientName) asked.toList

def daemonCall (handshakeId requestId : Nat) (clientName : String) (request : Request) :
    DaemonExchange :=
  daemonExchange handshakeId clientName (some ⟨requestId, request⟩)

/-- A call of the desktop application. -/
def AppState.call (handshakeId requestId : Nat) (request : Request) : DaemonExchange :=
  daemonCall handshakeId requestId "AI SSH Menubar" request

/-- The desktop application asks whether the daemon is there. -/
def daemonReady : DaemonExchange := daemonExchange 1 "AI SSH startup probe" none

namespace DaemonExchange

/-- What the caller is told. -/
def told (s : DaemonExchange) : Option (Except CallError ResponseData) :=
  match s.caller with
  | .ended (some response) => some (response.result.mapError .daemon)
  | .ended none => some (.error .transport)
  | _ => none

/-- The calls of the manager that the daemon has made for the connection. -/
def calls (s : DaemonExchange) : List ManagerCall := s.server.log.filterMap Served.call

end DaemonExchange

section

variable {handshakeId : Nat} {clientName : String} {asked : Option RequestFrame}
  {log : List (RequestFrame × Response)} {c : Client}

theorem dispatch_handshake (manager : Manager) (name : String) :
    Request.dispatch manager name (.handshake protocolVersion clientName) =
      ⟨clientName, none, false, .ok (.handshake protocolVersion daemonVersion)⟩ := by
  rw [Request.dispatch, if_neg (not_not_intro rfl)]

/-- The two sides agree on what was served. -/
theorem Client.log_of_reaches (h : service.Reaches .connected log c) :
    log = c.log.map fun served => (⟨served.response.requestId, served.request⟩, served.response) :=
  by
  induction h with
  | start => rfl
  | next manager frame written h ih =>
      rw [ih]
      simp [service, served]

/-- The handshake of a call, as the daemon serves it. -/
def greeting (handshakeId : Nat) (clientName : String) : Served where
  request := .handshake protocolVersion clientName
  call := none
  shutdown := false
  response := ⟨handshakeId, .ok (.handshake protocolVersion daemonVersion)⟩

/-- The request of a call, as the daemon serves it. -/
def fulfilled (clientName : String) (manager : Manager) (written : Bool) (frame : RequestFrame) :
    Served :=
  let dispatch := frame.request.dispatch manager clientName
  { request := frame.request
    call := dispatch.call
    shutdown := written && dispatch.shutdownRequested
    response := ⟨frame.requestId, dispatch.result⟩ }

/-- All that the daemon serves. -/
def servedFor (handshakeId : Nat) (clientName : String) (asked : Option RequestFrame)
    (manager : Manager) (written : Bool) : List Served :=
  greeting handshakeId clientName :: (asked.map (fulfilled clientName manager written)).toList

/-- What the daemon answers to the last of it. -/
def answerFor (clientName : String) (asked : Option RequestFrame) (manager : Manager) :
    Except ErrorPayload ResponseData :=
  match asked with
  | none => .ok (.handshake protocolVersion daemonVersion)
  | some frame => (frame.request.dispatch manager clientName).result

theorem Client.connected_greeted (manager : Manager) (written : Bool) :
    connected.served manager (handshakeFrame handshakeId clientName) written =
      ⟨clientName, written, [greeting handshakeId clientName]⟩ := by
  simp only [served, handshakeFrame, dispatch_handshake, Bool.not_false, Bool.and_true,
    Bool.and_false]
  rfl

/-- The daemon serves the handshake and then the request, and nothing else. -/
theorem Client.served_of_reaches (h : service.Reaches .connected log c)
    (hasked : log.map Prod.fst <+: handshakeFrame handshakeId clientName :: asked.toList) :
    ∃ manager written, c.log <+: servedFor handshakeId clientName asked manager written := by
  cases log with
  | nil =>
      rw [h.nil_inv]
      exact ⟨noManager, true, List.nil_prefix⟩
  | cons first later =>
      obtain ⟨hfirst, hlater⟩ := List.cons_prefix_cons.mp hasked
      cases later with
      | nil =>
          obtain ⟨start, manager, written, hstart, -, rfl⟩ :=
            Service.Reaches.concat_inv [] h
          rw [hstart.nil_inv, hfirst]
          refine ⟨noManager, true, ?_⟩
          simp only [service, connected_greeted]
          exact List.cons_prefix_cons.mpr ⟨rfl, List.nil_prefix⟩
      | cons second rest =>
          cases asked with
          | none => cases List.prefix_nil.mp hlater
          | some frame =>
              obtain ⟨hsecond, hrest⟩ := List.cons_prefix_cons.mp hlater
              have hnil : rest = [] := List.map_eq_nil_iff.mp (List.prefix_nil.mp hrest)
              subst hnil
              obtain ⟨middle, manager, written, hmiddle, -, rfl⟩ :=
                Service.Reaches.concat_inv [first] h
              obtain ⟨start, other, answered, hstart, -, rfl⟩ :=
                Service.Reaches.concat_inv [] hmiddle
              rw [hstart.nil_inv, hfirst, hsecond]
              refine ⟨manager, written, ?_⟩
              simp only [service, connected_greeted]
              exact List.prefix_rfl

theorem prefix_cons_toList {α : Type} {list : List α} {a : α} {b : Option α}
    (h : list <+: a :: b.toList) : list = [] ∨ list = [a] ∨ list = a :: b.toList := by
  cases list with
  | nil => exact .inl rfl
  | cons first rest =>
      obtain ⟨rfl, hrest⟩ := List.cons_prefix_cons.mp h
      cases rest with
      | nil => exact .inr (.inl rfl)
      | cons second rest =>
          cases b with
          | none => cases List.prefix_nil.mp hrest
          | some b =>
              obtain ⟨rfl, hnil⟩ := List.cons_prefix_cons.mp hrest
              rw [List.prefix_nil.mp hnil]
              exact .inr (.inr rfl)

end

section

variable (requests : Frames.Codec RequestFrame) (responses : Frames.Codec Response)

/-- The steps of the caller, the daemon and the connection. -/
def DaemonExchange.machine : Machine DaemonExchange (ExchangeAct Manager) :=
  Exchange.machine requests.framing responses.framing Client.service Response.accepted

/-- An exchange takes a bounded number of steps and is not stuck before the caller is told
something. The daemon serves the handshake, then the request, in the caller's name, and neither
of them twice; and a caller that is told anything but that the exchange broke down is told what
the daemon has answered to the last of these. -/
structure DaemonExchange.Faithful (handshakeId : Nat) (clientName : String)
    (asked : Option RequestFrame) (acts : List (ExchangeAct Manager)) (s : DaemonExchange) :
    Prop where
  bounded : acts.length ≤ 5 + 3 * asked.toList.length
  goesOn : s.told = none → ∀ manager, ∃ act ∈ [.ask, .serve manager, .receive],
    ((DaemonExchange.machine requests responses).step s act).isSome
  served : ∃ manager written,
    s.server.log <+: servedFor handshakeId clientName asked manager written
  truthful : ∀ result, s.told = some result → result = .error .transport ∨
    ∃ manager written, s.server.log = servedFor handshakeId clientName asked manager written ∧
      result = (answerFor clientName asked manager).mapError .daemon

variable {requests responses} {handshakeId : Nat} {clientName : String}
  {asked : Option RequestFrame} {acts : List (ExchangeAct Manager)} {s : DaemonExchange}

/-- As long as the caller has been told nothing, it or the daemon can go on. -/
theorem DaemonExchange.goes_on {all : List RequestFrame}
    (hstage : Exchange.Stage requests.framing responses.framing Response.accepted all s)
    (htold : s.told = none) (manager : Manager) :
    ∃ act ∈ [.ask, .serve manager, .receive],
      ((DaemonExchange.machine requests responses).step s act).isSome := by
  have hopen : s.caller.isEnded = false := by
    rw [told] at htold
    split at htold
    · cases htold
    · cases htold
    · rename_i hnone hsome
      cases hcaller : s.caller with
      | asking _ _ | waiting _ => rfl
      | ended answer =>
          cases answer with
          | none => exact absurd hcaller hsome
          | some response => exact absurd hcaller (hnone response)
  obtain ⟨act, hact, hstep⟩ := hstage.goes_on Client.service hopen manager
  exact ⟨act, by simpa using hact, hstep⟩

theorem daemonExchange_faithful
    (hrun : (DaemonExchange.machine requests responses).run
      (daemonExchange handshakeId clientName asked) acts = some s) :
    DaemonExchange.Faithful requests responses handshakeId clientName asked acts s := by
  have hstage := Exchange.stage_of_run hrun
  have hreaches := Exchange.reaches_of_run hrun
  have hlog := Client.log_of_reaches hreaches
  obtain ⟨manager, written, hserved⟩ := Client.served_of_reaches hreaches hstage.asked_prefix
  refine ⟨?_, DaemonExchange.goes_on hstage, ⟨manager, written, hserved⟩, fun result htold => ?_⟩
  · have hle := Exchange.steps_le (Exchange.Stage.start _ _ _) hrun
    have hweight : Exchange.weight (handshakeFrame handshakeId clientName :: asked.toList)
        (daemonExchange handshakeId clientName asked) = 5 + 3 * asked.toList.length := by
      cases asked with
      | none | some _ => rfl
    exact Nat.le_trans (Nat.le_add_right _ _) (hweight ▸ hle)
  · rw [DaemonExchange.told] at htold
    split at htold
    · rename_i response hcaller
      cases htold
      obtain ⟨before, question, hsplit, hlast⟩ := hstage.last hcaller
      have hresponse : s.log.getLast? = some (question, response) := by
        rw [hsplit, List.getLast?_concat]
      refine .inr ⟨manager, written, ?_⟩
      rcases prefix_cons_toList hserved with hnone | hgreeted | hall
      · rw [hlog, hnone] at hresponse
        cases hresponse
      · rw [hlog, hgreeted] at hresponse
        cases hresponse
        cases asked with
        | none => exact ⟨hgreeted, rfl⟩
        | some frame =>
            -- the daemon refuses no handshake of its own version
            cases hlast with
            | inl hasked =>
                rw [Exchange.asked, hlog, hgreeted] at hasked
                cases hasked
            | inr hrefused => cases hrefused
      · refine ⟨hall, ?_⟩
        rw [hlog, hall] at hresponse
        cases asked with
        | none | some frame =>
            cases hresponse
            rfl
    · cases htold
      exact .inl rfl
    · cases htold

/-- A call asks for its request and the probe for nothing, and both are faithful. -/
theorem daemon_call_faithful (handshakeId requestId : Nat) (clientName : String)
    (request : Request) :
    ((DaemonExchange.machine requests responses).run
        (daemonCall handshakeId requestId clientName request) acts = some s →
      DaemonExchange.Faithful requests responses handshakeId clientName
        (some ⟨requestId, request⟩) acts s) ∧
    ((DaemonExchange.machine requests responses).run daemonReady acts = some s →
      DaemonExchange.Faithful requests responses 1 "AI SSH startup probe" none acts s) :=
  ⟨daemonExchange_faithful, daemonExchange_faithful⟩

/-- Some values and their bytes. -/
def Frames.Codec.ofTable {T : Type} [DecidableEq T] (table : List (T × Bytes))
    (h : (table.map Prod.snd).Nodup) : Frames.Codec T where
  encode value :=
    match table.find? fun entry => entry.1 = value with
    | some entry => .ok entry.2
    | none => .error "unsupported"
  decode bytes :=
    match table.find? fun entry => entry.2 = bytes with
    | some entry => .ok entry.1
    | none => .error "invalid type"
  inverse value body hencode := by
    split at hencode
    · rename_i entry hentry
      cases hencode
      have hvalue : entry.1 = value := by simpa using List.find?_some hentry
      have hmem := List.mem_of_find?_eq_some hentry
      cases hfound : table.find? fun other => other.2 = entry.2 with
      | none => simpa using List.find?_eq_none.mp hfound entry hmem
      | some other =>
          have hbytes : other.2 = entry.2 := by simpa using List.find?_some hfound
          have hsame := List.inj_on_of_nodup_map h (List.mem_of_find?_eq_some hfound) hmem hbytes
          simp only [hsame, hvalue]
    · cases hencode

section Targets

/-- A short text in MessagePack. -/
def fixstr (text : String) : Bytes :=
  UInt8.ofNat (0xa0 + text.utf8ByteSize) :: text.toUTF8.data.toList

/-- A small map in MessagePack, with texts as keys. -/
def fixmap (entries : List (String × Bytes)) : Bytes :=
  UInt8.ofNat (0x80 + entries.length) :: entries.flatMap fun (key, value) => fixstr key ++ value

def requestBytes (requestId : UInt8) (request : List (String × Bytes)) : Bytes :=
  fixmap [("request_id", [requestId]), ("request", fixmap request)]

def handshakeBytes (clientName : String) : Bytes :=
  requestBytes 1 [("method", fixstr "handshake"),
    ("params", fixmap [("protocol_version", [3]), ("client_name", fixstr clientName)])]

def responseBytes (requestId : UInt8) (kind : String) (data : Bytes) : Bytes :=
  fixmap [("request_id", [requestId]), ("Ok", fixmap [("kind", fixstr kind), ("data", data)])]

def greetingBytes : Bytes :=
  responseBytes 1 "handshake"
    (fixmap [("protocol_version", [3]), ("daemon_version", fixstr "0.2.0")])

/-- The empty list of targets. -/
def targetsBytes : Bytes := responseBytes 2 "targets" [0x90]

def targetsRequests : Frames.Codec RequestFrame :=
  .ofTable [(handshakeFrame 1 "aissh-mcp", handshakeBytes "aissh-mcp"),
    (⟨2, .targetsList⟩, requestBytes 2 [("method", fixstr "targets_list")]),
    (handshakeFrame 1 "AI SSH startup probe", handshakeBytes "AI SSH startup probe")] (by decide)

def targetsResponses : Frames.Codec Response where
  encode response :=
    match response with
    | ⟨1, .ok (.handshake 3 "0.2.0")⟩ => .ok greetingBytes
    | ⟨2, .ok (.targets [])⟩ => .ok targetsBytes
    | _ => .error "unsupported"
  decode bytes :=
    if bytes = greetingBytes then .ok ⟨1, .ok (.handshake 3 "0.2.0")⟩
    else if bytes = targetsBytes then .ok ⟨2, .ok (.targets [])⟩
    else .error "invalid type"
  inverse response body hencode := by
    split at hencode
    all_goals
      cases hencode
    all_goals rfl

/-- A question that is answered without trouble. -/
def untroubled : List (ExchangeAct Manager) := [.ask, .serve Client.noManager, .receive]

theorem daemon_call_faithful_targets :
    (∃ s, (DaemonExchange.machine targetsRequests targetsResponses).run
        (daemonCall 1 2 "aissh-mcp" .targetsList) (untroubled ++ untroubled) = some s ∧
      s.told = some (.ok (.targets [])) ∧ s.calls = [.targets] ∧
      DaemonExchange.Faithful targetsRequests targetsResponses 1 "aissh-mcp"
        (some ⟨2, .targetsList⟩) (untroubled ++ untroubled) s) ∧
    ∃ s, (DaemonExchange.machine targetsRequests targetsResponses).run daemonReady untroubled =
        some s ∧
      s.told = some (.ok (.handshake 3 "0.2.0")) ∧ s.calls = [] ∧
      DaemonExchange.Faithful targetsRequests targetsResponses 1 "AI SSH startup probe" none
        untroubled s := by
  constructor
  · obtain ⟨s, hrun, htold, hcalls⟩ : ∃ s,
        (DaemonExchange.machine targetsRequests targetsResponses).run
          (daemonCall 1 2 "aissh-mcp" .targetsList) (untroubled ++ untroubled) = some s ∧
        s.told = some (.ok (.targets [])) ∧ s.calls = [.targets] := ⟨_, rfl, rfl, rfl⟩
    exact ⟨s, hrun, htold, hcalls, (daemon_call_faithful 1 2 "aissh-mcp" .targetsList).1 hrun⟩
  · obtain ⟨s, hrun, htold, hcalls⟩ : ∃ s,
        (DaemonExchange.machine targetsRequests targetsResponses).run daemonReady untroubled =
          some s ∧
        s.told = some (.ok (.handshake 3 "0.2.0")) ∧ s.calls = [] := ⟨_, rfl, rfl, rfl⟩
    exact ⟨s, hrun, htold, hcalls, (daemon_call_faithful 1 2 "aissh-mcp" .targetsList).2 hrun⟩

end Targets

end

end AiSsh
