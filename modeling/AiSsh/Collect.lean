import AiSsh.ExecChannel
import AiSsh.Library.FirstFit

/-!
The output of a helper command. `ExecChannel::collect` drains the channel and keeps at most
`limit` bytes of each of the two streams; a chunk that does not fit in what is left of the limit
is dropped whole, and the chunks that follow are still tried.
-/

namespace AiSsh

open Library

/-- The event that `next` makes of a message, if it does not pass over it. -/
def ChannelMsg.event : ChannelMsg → Option ChannelEvent
  | .data bytes => some (.data bytes)
  | .extendedData bytes _ => some (.extendedData bytes)
  | .exitStatus code => some (.exitStatus code)
  | .eof => some .eof
  | .close => some .close
  | _ => none

/-- What `collect` returns. -/
structure Collected where
  stdout : Bytes
  stderr : Bytes
  exit : Option UInt32
  truncated : Bool
  deriving DecidableEq, Repr

namespace Collected

def empty : Collected := ⟨[], [], none, false⟩

/-- The body of the loop of `collect`. -/
def take (limit : Nat) (c : Collected) : ChannelEvent → Collected
  | .data data =>
      if limit < c.stdout.length + data.length then { c with truncated := true }
      else { c with stdout := c.stdout ++ data }
  | .extendedData data =>
      if limit < c.stderr.length + data.length then { c with truncated := true }
      else { c with stderr := c.stderr ++ data }
  | .exitStatus code => { c with exit := some code }
  | .eof | .close => c

end Collected

namespace ExecChannel

def collectLoop (limit : Nat) (c : Collected) (messages : List ChannelMsg) : Collected :=
  match _h : next messages with
  | none | some (.close, _) => c
  | some (event, rest) => collectLoop limit (c.take limit event) rest
termination_by messages.length
decreasing_by exact next_length _h

def collect (messages : List ChannelMsg) (limit : Nat) : Collected :=
  collectLoop limit .empty messages

/-- The events that come before Close. -/
def received (messages : List ChannelMsg) : List ChannelEvent :=
  (beforeClose messages).filterMap ChannelMsg.event

theorem received_cons {message : ChannelMsg} {messages : List ChannelMsg}
    (hclose : message ≠ .close) :
    received (message :: messages) = message.event.toList ++ received messages := by
  have hfront : beforeClose (message :: messages) = message :: beforeClose messages := by
    simp [beforeClose, hclose]
  rw [received, hfront, List.filterMap_cons]
  cases message.event <;> rfl

theorem collectLoop_eq (limit : Nat) (c : Collected) (messages : List ChannelMsg) :
    collectLoop limit c messages = (received messages).foldl (Collected.take limit) c := by
  induction messages generalizing c with
  | nil =>
      rw [collectLoop]
      rfl
  | cons message messages ih =>
      cases message with
      | close =>
          rw [collectLoop]
          rfl
      | data bytes | extendedData bytes ext | exitStatus code | eof =>
          rw [collectLoop, received_cons (by simp)]
          exact ih _
      | exitSignal name core text lang | xonXoff flag | windowAdjusted size | success
      | failure =>
          rw [received_cons (by simp)]
          have hrest := ih c
          rw [collectLoop] at hrest ⊢
          exact hrest

end ExecChannel

/-- The data of stdout an event brings. -/
def ChannelEvent.stdout : ChannelEvent → Option Bytes
  | .data bytes => some bytes
  | _ => none

def ChannelEvent.stderr : ChannelEvent → Option Bytes
  | .extendedData bytes => some bytes
  | _ => none

def ChannelEvent.status : ChannelEvent → Option UInt32
  | .exitStatus code => some code
  | _ => none

namespace Collected

variable (limit : Nat) (c : Collected) (events : List ChannelEvent)

/-- What the loop keeps of a stream depends on that stream alone. -/
theorem stdout_foldl : (events.foldl (take limit) c).stdout = c.stdout ++
    FirstFit.kept (limit - c.stdout.length) (events.filterMap ChannelEvent.stdout) := by
  refine FirstFit.foldl_kept (fun c event => ?_) c events
  cases event with
  | data bytes =>
      rw [ChannelEvent.stdout, Option.toList_some, FirstFit.append_kept_singleton, take]
      split <;> rfl
  | extendedData bytes =>
      rw [take]
      split <;> exact (List.append_nil _).symm
  | exitStatus code | eof | close => exact (List.append_nil _).symm

theorem stderr_foldl : (events.foldl (take limit) c).stderr = c.stderr ++
    FirstFit.kept (limit - c.stderr.length) (events.filterMap ChannelEvent.stderr) := by
  refine FirstFit.foldl_kept (fun c event => ?_) c events
  cases event with
  | extendedData bytes =>
      rw [ChannelEvent.stderr, Option.toList_some, FirstFit.append_kept_singleton, take]
      split <;> rfl
  | data bytes =>
      rw [take]
      split <;> exact (List.append_nil _).symm
  | exitStatus code | eof | close => exact (List.append_nil _).symm

theorem exit_foldl : (events.foldl (take limit) c).exit =
    (events.filterMap ChannelEvent.status).getLast?.or c.exit := by
  induction events generalizing c with
  | nil => rfl
  | cons event events ih =>
      rw [List.foldl_cons, ih]
      cases event with
      | exitStatus code =>
          cases h : (events.filterMap ChannelEvent.status).getLast? <;>
            simp [ChannelEvent.status, take, List.getLast?_cons, h]
      | data bytes | extendedData bytes =>
          rw [take]
          split <;> rfl
      | eof | close => rfl

/-- The two streams fit, and stay within the limit. -/
structure Within (limit : Nat) (c : Collected) : Prop where
  stdout : c.stdout.length ≤ limit
  stderr : c.stderr.length ≤ limit

variable {limit c}

theorem Within.take (h : c.Within limit) (event : ChannelEvent) :
    (c.take limit event).Within limit := by
  cases event with
  | data bytes =>
      rw [Collected.take]
      split
      · exact ⟨h.stdout, h.stderr⟩
      · refine ⟨?_, h.stderr⟩
        rw [List.length_append]
        omega
  | extendedData bytes =>
      rw [Collected.take]
      split
      · exact ⟨h.stdout, h.stderr⟩
      · refine ⟨h.stdout, ?_⟩
        rw [List.length_append]
        omega
  | exitStatus code | eof | close => exact ⟨h.stdout, h.stderr⟩

theorem truncated_foldl (h : c.Within limit) : (events.foldl (take limit) c).truncated = false ↔
    c.truncated = false ∧
      c.stdout.length + (events.filterMap ChannelEvent.stdout).flatten.length ≤ limit ∧
      c.stderr.length + (events.filterMap ChannelEvent.stderr).flatten.length ≤ limit := by
  induction events generalizing c with
  | nil => exact (and_iff_left ⟨h.stdout, h.stderr⟩).symm
  | cons event events ih =>
      rw [List.foldl_cons, ih (h.take event)]
      cases event with
      | data bytes =>
          simp only [Collected.take, List.filterMap_cons, ChannelEvent.stdout,
            ChannelEvent.stderr, List.flatten_cons, List.length_append]
          split
          · refine iff_of_false (fun h => by cases h.1) fun h => ?_
            have := h.2.1
            omega
          · rw [List.length_append, Nat.add_assoc]
      | extendedData bytes =>
          simp only [Collected.take, List.filterMap_cons, ChannelEvent.stdout,
            ChannelEvent.stderr, List.flatten_cons, List.length_append]
          split
          · refine iff_of_false (fun h => by cases h.1) fun h => ?_
            have := h.2.2
            omega
          · rw [List.length_append, Nat.add_assoc]
      | exitStatus code | eof | close => rfl

end Collected

namespace ExecChannel

/-- The chunks of stdout that come before Close. -/
def stdoutChunks (messages : List ChannelMsg) : List Bytes :=
  (received messages).filterMap ChannelEvent.stdout

def stderrChunks (messages : List ChannelMsg) : List Bytes :=
  (received messages).filterMap ChannelEvent.stderr

/-- The result is the start of what the channel carried. -/
structure Starts (messages : List ChannelMsg) (limit : Nat) (c : Collected) : Prop where
  stdout : c.stdout <+: (stdoutChunks messages).flatten
  stderr : c.stderr <+: (stderrChunks messages).flatten
  within : c.Within limit
  truncated : c.truncated = false ↔
    c.stdout = (stdoutChunks messages).flatten ∧ c.stderr = (stderrChunks messages).flatten
  exit : c.exit = ((received messages).filterMap ChannelEvent.status).getLast?

variable (messages : List ChannelMsg) (limit : Nat)

theorem collect_stdout :
    (collect messages limit).stdout = FirstFit.kept limit (stdoutChunks messages) := by
  rw [collect, collectLoop_eq, Collected.stdout_foldl]
  rfl

theorem collect_stderr :
    (collect messages limit).stderr = FirstFit.kept limit (stderrChunks messages) := by
  rw [collect, collectLoop_eq, Collected.stderr_foldl]
  rfl

theorem collect_exit : (collect messages limit).exit =
    ((received messages).filterMap ChannelEvent.status).getLast? := by
  rw [collect, collectLoop_eq, Collected.exit_foldl]
  exact Option.or_none

theorem collect_within : (collect messages limit).Within limit where
  stdout := collect_stdout messages limit ▸ FirstFit.length_kept_le limit _
  stderr := collect_stderr messages limit ▸ FirstFit.length_kept_le limit _

theorem collect_truncated : (collect messages limit).truncated = false ↔
    (collect messages limit).stdout = (stdoutChunks messages).flatten ∧
      (collect messages limit).stderr = (stderrChunks messages).flatten := by
  rw [collect_stdout, collect_stderr, FirstFit.kept_eq_flatten_iff, FirstFit.kept_eq_flatten_iff,
    collect, collectLoop_eq, Collected.truncated_foldl _ ⟨Nat.zero_le _, Nat.zero_le _⟩]
  simp [Collected.empty, stdoutChunks, stderrChunks]

/-- What is collected is the start of the output exactly if, of each stream, the chunks that
still fit after the first dropped one repeat its bytes. -/
theorem collect_starts_iff : Starts messages limit (collect messages limit) ↔
    FirstFit.Contiguous limit (stdoutChunks messages) ∧
      FirstFit.Contiguous limit (stderrChunks messages) := by
  have hstdout := FirstFit.kept_prefix_iff limit (stdoutChunks messages)
  have hstderr := FirstFit.kept_prefix_iff limit (stderrChunks messages)
  rw [← collect_stdout] at hstdout
  rw [← collect_stderr] at hstderr
  rw [← hstdout, ← hstderr]
  constructor
  · intro h
    exact ⟨h.stdout, h.stderr⟩
  · intro h
    exact ⟨h.1, h.2, collect_within messages limit, collect_truncated messages limit,
      collect_exit messages limit⟩

def threeChunks : List ChannelMsg :=
  [.data [97, 98, 99], .data [100, 101], .data [102], .exitStatus 0, .eof, .close]

/-- The second chunk does not fit, and the third one is put in its place. -/
theorem collect_skips_the_middle :
    collect threeChunks 4 = ⟨[97, 98, 99, 102], [], some 0, true⟩ ∧
      ¬ Starts threeChunks 4 (collect threeChunks 4) := by
  have hcollect : collect threeChunks 4 = ⟨[97, 98, 99, 102], [], some 0, true⟩ := by
    rw [collect, collectLoop_eq]
    decide
  refine ⟨hcollect, fun h => ?_⟩
  rw [hcollect] at h
  exact absurd h.stdout (by decide)

end ExecChannel
end AiSsh
