import AiSsh.Library.Runs
import AiSsh.TextChannel

/-!
Compact output against full output. A chunk tells of a maximal run of events of one stream
that are stored alike; the runs in order are the events.
-/

namespace AiSsh

open Library Library.Json

/-- What the events of a chunk have in common. -/
def DecodedEvent.kind (event : DecodedEvent) : String × Bool := (event.stream, event.persisted)

def Chunk.kind (chunk : Chunk) : String × Bool := (chunk.stream, chunk.persisted)

/-- The chunk of a run. -/
def Chunk.ofRun (run : List DecodedEvent) : Chunk where
  stream := (run.head?.map DecodedEvent.stream).getD ""
  persisted := (run.head?.map DecodedEvent.persisted).getD false
  firstSequence := (run.head?.map DecodedEvent.sequence).getD 0
  lastSequence := (run.getLast?.map DecodedEvent.sequence).getD 0
  count := run.length
  text := String.join (run.map DecodedEvent.text)

/-- The events in maximal runs of one kind. -/
abbrev kindRuns (decoded : List DecodedEvent) : List (List DecodedEvent) :=
  runs DecodedEvent.kind decoded

/-- The text and the stream that an item of the output shows. -/
def shownText (item : Value) : String := (strMember (some item) "text").getD ""

def shownStream (item : Value) : Option String := strMember (some item) "stream"

/-- Compact output has all that full output has. -/
structure KeepsOutput (decoded : List DecodedEvent) : Prop where
  chunks : chunksOf decoded = (kindRuns decoded).map Chunk.ofRun
  carried : (kindRuns decoded).flatten = decoded
  maximal : (chunksOf decoded).IsChain fun chunk next => chunk.kind ≠ next.kind
  texts : String.join ((chunksFrom decoded).map shownText) =
    String.join ((eventsFrom decoded).map shownText)
  streams : ∀ stream,
    String.join (((chunksFrom decoded).filter (shownStream · == some stream)).map shownText) =
      String.join (((eventsFrom decoded).filter (shownStream · == some stream)).map shownText)
  counts : ((chunksOf decoded).map Chunk.count).sum = (eventsFrom decoded).length
  ranges : ∀ chunk ∈ chunksOf decoded, chunk.firstSequence ≤ chunk.lastSequence
  disjoint : (chunksOf decoded).Pairwise fun chunk next => chunk.lastSequence < next.firstSequence
  within : ∀ run ∈ kindRuns decoded, ∀ event ∈ decoded, event ∈ run ↔
    (Chunk.ofRun run).firstSequence ≤ event.sequence ∧
      event.sequence ≤ (Chunk.ofRun run).lastSequence

/-- The chunk of a run is of the kind of its events. -/
theorem Chunk.kind_ofRun {decoded run : List DecodedEvent} (hrun : run ∈ kindRuns decoded)
    {event : DecodedEvent} (hevent : event ∈ run) : (Chunk.ofRun run).kind = event.kind := by
  cases run with
  | nil => cases hevent
  | cons first run => exact key_eq_of_mem_runs hrun List.mem_cons_self hevent

/-- The last chunk grows with its run. -/
theorem Chunk.ofRun_concat {run : List DecodedEvent} (hne : run ≠ []) (event : DecodedEvent) :
    Chunk.ofRun (run ++ [event]) =
      { Chunk.ofRun run with
        text := (Chunk.ofRun run).text ++ event.text
        lastSequence := event.sequence
        count := (Chunk.ofRun run).count + 1 } := by
  simp only [ofRun, List.head?_append_of_ne_nil _ hne, List.getLast?_concat, List.map_append,
    List.map_singleton, String.join_append, String.join_cons, String.join_nil, String.append_empty,
    List.length_append, List.length_singleton, Option.map_some, Option.getD_some]

theorem pushEvent_of_same {chunks : List Chunk} {chunk : Chunk} {event : DecodedEvent}
    (h : chunk.kind = event.kind) :
    pushEvent (chunks ++ [chunk]) event = chunks ++ [{ chunk with
      text := chunk.text ++ event.text
      lastSequence := event.sequence
      count := chunk.count + 1 }] := by
  have hsame : chunk.stream = event.stream ∧ chunk.persisted = event.persisted :=
    Prod.ext_iff.mp h
  simp only [pushEvent, List.getLast?_concat, if_pos hsame, List.dropLast_concat]

theorem pushEvent_of_other {chunks : List Chunk} {event : DecodedEvent}
    (h : ∀ chunk ∈ chunks.getLast?, chunk.kind ≠ event.kind) :
    pushEvent chunks event = chunks ++ [.start event] := by
  cases hlast : chunks.getLast? with
  | none => simp only [pushEvent, hlast]
  | some chunk =>
      have hother : ¬ (chunk.stream = event.stream ∧ chunk.persisted = event.persisted) :=
        fun hsame => h chunk hlast (Prod.ext hsame.1 hsame.2)
      simp only [pushEvent, hlast, if_neg hother]

/-- The chunks are those of the maximal runs. -/
theorem chunksOf_eq_map (decoded : List DecodedEvent) :
    chunksOf decoded = (kindRuns decoded).map Chunk.ofRun := by
  induction decoded using List.reverseRecOn with
  | nil => rfl
  | append_singleton decoded event ih =>
      have hpush : chunksOf (decoded ++ [event]) = pushEvent (chunksOf decoded) event :=
        List.foldl_concat ..
      rw [hpush, ih]
      by_cases hgrow : ∃ run ∈ (kindRuns decoded).getLast?, ∃ first ∈ run, first.kind = event.kind
      · obtain ⟨run, hlast, first, hfirst, hkey⟩ := hgrow
        obtain ⟨front, hruns⟩ := List.getLast?_eq_some_iff.mp hlast
        have hrun : run ∈ kindRuns decoded := List.mem_of_mem_getLast? hlast
        have hnext : kindRuns (decoded ++ [event]) = front ++ [run ++ [event]] :=
          runs_concat_same hruns hfirst hkey
        rw [hnext, hruns, List.map_append, List.map_append, List.map_singleton,
          List.map_singleton, pushEvent_of_same ((Chunk.kind_ofRun hrun hfirst).trans hkey),
          Chunk.ofRun_concat (ne_nil_of_mem_runs hrun)]
      · have hnext : kindRuns (decoded ++ [event]) = kindRuns decoded ++ [[event]] :=
          runs_concat_other fun run hlast first hfirst hkey =>
            hgrow ⟨run, hlast, first, hfirst, hkey⟩
        rw [hnext, List.map_append, List.map_singleton, pushEvent_of_other]
        · simp [Chunk.ofRun, Chunk.start]
        · intro chunk hchunk hkind
          rw [List.getLast?_map, Option.mem_def, Option.map_eq_some_iff] at hchunk
          obtain ⟨run, hlast, rfl⟩ := hchunk
          have hrun := List.mem_of_mem_getLast? hlast
          obtain ⟨first, hfirst⟩ := List.exists_mem_of_ne_nil _ (ne_nil_of_mem_runs hrun)
          exact hgrow ⟨run, hlast, first, hfirst,
            (Chunk.kind_ofRun hrun hfirst).symm.trans hkind⟩

section Shown

variable (decoded : List DecodedEvent)

theorem shownText_chunks :
    (chunksFrom decoded).map shownText = (chunksOf decoded).map Chunk.text := by
  rw [chunksFrom, List.map_map]
  exact List.map_congr_left fun chunk _ => by simp [shownText, chunk_text]

theorem shownText_events :
    (eventsFrom decoded).map shownText = decoded.map DecodedEvent.text := by
  rw [eventsFrom, List.map_map]
  exact List.map_congr_left fun event _ => by simp [shownText, event_text]

/-- The texts of the chunks of some runs are the texts of their events. -/
theorem join_texts (parts : List (List DecodedEvent)) :
    String.join (parts.map fun run => (Chunk.ofRun run).text) =
      String.join (parts.flatten.map DecodedEvent.text) := by
  induction parts with
  | nil => rfl
  | cons run parts ih =>
      rw [List.map_cons, List.flatten_cons, List.map_append, String.join_cons, String.join_append,
        ih, Chunk.ofRun]

/-- The chunks of one stream are those of its runs. -/
theorem streamTexts_chunks (stream : String) :
    ((chunksFrom decoded).filter (shownStream · == some stream)).map shownText =
      ((kindRuns decoded).filter fun run => run.head?.any fun event =>
        event.kind.1 == stream).map fun run => (Chunk.ofRun run).text := by
  rw [chunksFrom, chunksOf_eq_map, List.map_map, List.filter_map, List.map_map]
  have hshown : ∀ run ∈ kindRuns decoded,
      (shownStream (Chunk.ofRun run).value == some stream) =
        run.head?.any fun event => event.kind.1 == stream := by
    intro run hrun
    cases run with
    | nil => exact absurd rfl (ne_nil_of_mem_runs hrun)
    | cons first run =>
        rw [shownStream, chunk_stream]
        rfl
  refine (congrArg _ (List.filter_congr hshown)).trans ?_
  exact List.map_congr_left fun run _ => by simp [shownText, chunk_text]

theorem streamTexts_events (stream : String) :
    ((eventsFrom decoded).filter (shownStream · == some stream)).map shownText =
      (decoded.filter fun event => event.kind.1 == stream).map DecodedEvent.text := by
  rw [eventsFrom, List.filter_map, List.map_map]
  have hshown : ∀ event ∈ decoded,
      (shownStream event.value == some stream) = (event.kind.1 == stream) := by
    intro event _
    rw [shownStream, event_stream]
    rfl
  refine (congrArg _ (List.filter_congr hshown)).trans ?_
  exact List.map_congr_left fun event _ => by simp [shownText, event_text]

end Shown

section Ranges

variable {decoded run : List DecodedEvent}

/-- A run lies between its first and its last sequence. -/
theorem mem_run_range (hsorted : run.Pairwise fun a b => a.sequence < b.sequence)
    {event : DecodedEvent} (hevent : event ∈ run) :
    (Chunk.ofRun run).firstSequence ≤ event.sequence ∧
      event.sequence ≤ (Chunk.ofRun run).lastSequence := by
  constructor
  · cases run with
    | nil => cases hevent
    | cons first run =>
        cases List.mem_cons.mp hevent with
        | inl hsame => exact le_of_eq (congrArg DecodedEvent.sequence hsame.symm)
        | inr hrest => exact Nat.le_of_lt ((List.pairwise_cons.mp hsorted).1 event hrest)
  · rcases List.eq_nil_or_concat' run with rfl | ⟨front, last, rfl⟩
    · cases hevent
    · have hlast : (Chunk.ofRun (front ++ [last])).lastSequence = last.sequence := by
        simp only [Chunk.ofRun, List.getLast?_concat, Option.map_some, Option.getD_some]
      rw [hlast]
      cases List.mem_append.mp hevent with
      | inl hfront =>
          exact Nat.le_of_lt ((List.pairwise_append.mp hsorted).2.2 event hfront last (by simp))
      | inr hsame => exact le_of_eq (congrArg DecodedEvent.sequence (List.mem_singleton.mp hsame))

/-- The ends of a run's range are sequences of its events. -/
theorem exists_ends (hne : run ≠ []) :
    (∃ event ∈ run, event.sequence = (Chunk.ofRun run).firstSequence) ∧
      ∃ event ∈ run, event.sequence = (Chunk.ofRun run).lastSequence := by
  refine ⟨⟨run.head hne, List.head_mem hne, ?_⟩, run.getLast hne, List.getLast_mem hne, ?_⟩
  · simp [Chunk.ofRun, List.head?_eq_some_head hne]
  · simp [Chunk.ofRun, List.getLast?_eq_some_getLast hne]

theorem disjoint_runs (hsorted : decoded.Pairwise fun a b => a.sequence < b.sequence) :
    (kindRuns decoded).Pairwise fun run next =>
      (Chunk.ofRun run).lastSequence < (Chunk.ofRun next).firstSequence := by
  refine (pairwise_runs hsorted).imp_of_mem fun {run next} hrun hnext h => ?_
  obtain ⟨-, last, hlast, hend⟩ := exists_ends (ne_nil_of_mem_runs hrun)
  obtain ⟨⟨first, hfirst, hstart⟩, -⟩ := exists_ends (ne_nil_of_mem_runs hnext)
  rw [← hend, ← hstart]
  exact h last hlast first hfirst

/-- Of two runs one ends before the other starts. -/
def Apart (run other : List DecodedEvent) : Prop :=
  run = other ∨ (Chunk.ofRun run).lastSequence < (Chunk.ofRun other).firstSequence ∨
    (Chunk.ofRun other).lastSequence < (Chunk.ofRun run).firstSequence

theorem apart_of_mem (hsorted : decoded.Pairwise fun a b => a.sequence < b.sequence)
    {other : List DecodedEvent} (hrun : run ∈ kindRuns decoded)
    (hother : other ∈ kindRuns decoded) : Apart run other := by
  have hsymm : Std.Symm Apart := ⟨fun _ _ h => h.imp Eq.symm Or.symm⟩
  have hpairs : (kindRuns decoded).Pairwise Apart :=
    (disjoint_runs hsorted).imp fun h => .inr (.inl h)
  exact hpairs.forall_of_forall (fun _ _ => .inl rfl) hrun hother

theorem mem_run_iff (hsorted : decoded.Pairwise fun a b => a.sequence < b.sequence)
    (hrun : run ∈ kindRuns decoded) {event : DecodedEvent} (hevent : event ∈ decoded) :
    event ∈ run ↔ (Chunk.ofRun run).firstSequence ≤ event.sequence ∧
      event.sequence ≤ (Chunk.ofRun run).lastSequence := by
  have hwithin : ∀ run ∈ kindRuns decoded, run.Pairwise fun a b => a.sequence < b.sequence := by
    rw [← flatten_runs DecodedEvent.kind decoded, List.pairwise_flatten]
      at hsorted
    exact hsorted.1
  refine ⟨mem_run_range (hwithin run hrun), fun h => ?_⟩
  rw [← flatten_runs DecodedEvent.kind decoded] at hevent
  obtain ⟨other, hother, hevent⟩ := List.mem_flatten.mp hevent
  have hrange := mem_run_range (hwithin other hother) hevent
  rcases apart_of_mem hsorted hrun hother with rfl | hbefore | hafter
  · exact hevent
  · omega
  · omega

end Ranges

/-- Compact output keeps the text of every stream, the number of events and their sequences. -/
theorem compact_output_lossless (decoded : List DecodedEvent)
    (hsorted : decoded.Pairwise fun a b => a.sequence < b.sequence) : KeepsOutput decoded where
  chunks := chunksOf_eq_map decoded
  carried := flatten_runs _ _
  maximal := by
    rw [chunksOf_eq_map, List.isChain_map]
    refine isChain_runs.imp_of_mem_imp fun run next hrun hnext h => ?_
    obtain ⟨event, hevent⟩ := List.exists_mem_of_ne_nil _ (ne_nil_of_mem_runs hrun)
    obtain ⟨other, hother⟩ := List.exists_mem_of_ne_nil _ (ne_nil_of_mem_runs hnext)
    rw [Chunk.kind_ofRun hrun hevent, Chunk.kind_ofRun hnext hother]
    exact h event hevent other hother
  texts := by
    rw [shownText_chunks, shownText_events, chunksOf_eq_map, List.map_map]
    exact (join_texts _).trans (by rw [flatten_runs])
  streams stream := by
    rw [streamTexts_chunks, streamTexts_events, join_texts]
    have hevents := flatten_filter_runs DecodedEvent.kind (fun kind => kind.1 == stream) decoded
    rw [hevents]
  counts := by
    have hlength : decoded.length = ((kindRuns decoded).map List.length).sum := by
      rw [← List.length_flatten, flatten_runs]
    rw [chunksOf_eq_map, List.map_map, eventsFrom, List.length_map, hlength]
    rfl
  ranges chunk hchunk := by
    rw [chunksOf_eq_map] at hchunk
    obtain ⟨run, hrun, rfl⟩ := List.mem_map.mp hchunk
    obtain ⟨⟨first, hfirst, hstart⟩, -⟩ := exists_ends (ne_nil_of_mem_runs hrun)
    have hevent : first ∈ decoded := by
      rw [← flatten_runs DecodedEvent.kind decoded]
      exact List.mem_flatten.mpr ⟨run, hrun, hfirst⟩
    exact hstart ▸ ((mem_run_iff hsorted hrun hevent).mp hfirst).2
  disjoint := by
    rw [chunksOf_eq_map, List.pairwise_map]
    exact disjoint_runs hsorted
  within _ hrun _ hevent := mem_run_iff hsorted hrun hevent

/-- Two streams in turn, and an event that was not stored. -/
def interleavedOutput : List DecodedEvent :=
  [⟨"stdout", "a", 1, true, [97]⟩, ⟨"stdout", "b", 3, true, [98]⟩, ⟨"stderr", "e", 4, true, [101]⟩,
    ⟨"stdout", "c", 6, true, [99]⟩, ⟨"stdout", "d", 7, false, [100]⟩]

theorem compact_output_lossless_interleaved :
    interleavedOutput.Pairwise (fun a b => a.sequence < b.sequence) ∧
      KeepsOutput interleavedOutput :=
  ⟨by decide, compact_output_lossless interleavedOutput (by decide)⟩

end AiSsh
