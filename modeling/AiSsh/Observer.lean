import AiSsh.DatabasePages
import AiSsh.Transcript

/-!
The observer of one session. A timer starts an activation of `poll` every 250 ms and waits
for none. An activation asks for the status, and then for page after page behind the shared
cursor `sequence`; each reply takes its time, and the activations switch whenever one of
them waits. The session's events are those its store has recorded.
-/

namespace AiSsh

open Library

/-- The daemon's answer to `session_events` from the recorded events. -/
def sessionEvents (storage : Storage) (sessionId : String) (after : Nat) (now : Now) :
    EventsData :=
  let (events, more) := storage.eventsForSession sessionId after (readLimit 65536)
  respondShell ⟨shellCommands storage sessionId events, events, more,
    shellProgress false now now none⟩ after

/-- Where an activation of `poll` stands. -/
inductive Activation
  | asking
  | requested (after : Nat)
  | answered (after : Nat) (reply : Except String ResponseData)
  | ended

/-- The cursor an activation has asked with. -/
def Activation.after : Activation → Option Nat
  | .requested after | .answered after _ => some after
  | _ => none

/-- The page a reply carries, with the cursor it was asked with. -/
def Activation.page : Activation → Option (Nat × EventsData)
  | .answered after (.ok (.events data)) => some (after, data)
  | _ => none

structure Observer where
  storage : Storage
  active : Bool
  sequence : Nat
  transcript : Transcript
  session : Option SessionInfo
  error : String
  activations : List Activation

/-- The timer fires, a reply to `session_status` arrives, the daemon answers a request for
events, its reply arrives, the view is closed, or the tables of the daemon change. -/
inductive ObserverStep
  | tick
  | status (index : Nat) (reply : Except String ResponseData)
  | serve (index : Nat) (fault : Option String) (now : Now)
  | deliver (index : Nat)
  | close
  | daemon (db : Database) (hunique : db.UniqueSequences)

namespace Observer

def start (storage : Storage) : Observer where
  storage := storage
  active := true
  sequence := 0
  transcript := .empty
  session := none
  error := ""
  activations := []

def place (s : Observer) (index : Nat) (a : Activation) : Observer :=
  { s with activations := s.activations.set index a }

/-- The head of the loop over the pages. -/
def loop (s : Observer) (index : Nat) (more : Bool) : Observer :=
  if s.active && more then s.place index (.requested s.sequence)
  else { s.place index .ended with error := "" }

def fail (s : Observer) (index : Nat) (error : String) : Observer :=
  { s.place index .ended with error }

section Steps

variable (rfc3339 : DateTime → String) (sessionId : String)

def reply (s : Observer) (after : Nat) (fault : Option String) (now : Now) :
    Except String ResponseData :=
  match fault with
  | some error => .error error
  | none =>
      if (s.storage.session sessionId).isNone then .error (sessionNotFound sessionId).display
      else .ok (.events (sessionEvents s.storage sessionId after now))

/-- A page goes to the terminal, and the cursor to its furthest event. -/
def append (s : Observer) (data : EventsData) : Observer :=
  { s with
    transcript := s.transcript.appendTranscript rfc3339 data.commands data.events data.hasMore
    sequence := Reader.furthest TerminalEvent.sequence s.sequence data.events }

def step (s : Observer) : ObserverStep → Option Observer
  | .tick => if s.active then some { s with activations := s.activations ++ [.asking] } else none
  | .status index reply =>
      match s.activations[index]?, reply with
      | some .asking, .ok (.session info) => some ({ s with session := some info }.loop index true)
      | some .asking, .ok _ => some (s.loop index true)
      | some .asking, .error error => some (s.fail index error)
      | _, _ => none
  | .serve index fault now =>
      match s.activations[index]? with
      | some (.requested after) =>
          some (s.place index (.answered after (s.reply sessionId after fault now)))
      | _ => none
  | .deliver index =>
      match s.activations[index]? with
      | some (.answered _ (.ok (.events data))) =>
          some ((s.append rfc3339 data).loop index data.hasMore)
      | some (.answered _ (.ok _)) => some { s.place index .ended with error := "" }
      | some (.answered _ (.error error)) => some (s.fail index error)
      | _ => none
  | .close => some { s with active := false }
  | .daemon db _ => some { s with storage := { s.storage with db } }

def machine : Machine Observer ObserverStep := ⟨step rfc3339 sessionId⟩

end Steps

/-- The sequences the store has recorded for the session. -/
def Recorded (s : Observer) (sessionId : String) (number : Nat) : Prop :=
  ∃ event ∈ s.storage.db.events, event.sessionId = sessionId ∧ event.sequence = number

/-- The page that arrives with a step. -/
def arriving (s : Observer) : ObserverStep → Option (Nat × EventsData)
  | .deliver index => s.activations[index]?.bind Activation.page
  | _ => none

/-- When a page with events arrives, the cursor is where it was when the page was asked
for. -/
def CursorKept (s : Observer) (step : ObserverStep) : Prop :=
  ∀ after data, s.arriving step = some (after, data) → data.events ≠ [] → s.sequence = after

/-- The recorded events of the session stay, and new ones are numbered beyond them. -/
def GrowsInOrder (sessionId : String) (s : Observer) : ObserverStep → Prop
  | .daemon db _ =>
      let s' := { s with storage := { s.storage with db } }
      (∀ number, s.Recorded sessionId number → s'.Recorded sessionId number) ∧
      ∀ number, s'.Recorded sessionId number → ¬ s.Recorded sessionId number →
        ∀ earlier, s.Recorded sessionId earlier → earlier < number
  | _ => True

/-- The events the transcript shows, with the cursor. -/
def reader (s : Observer) : Reader TerminalEvent := ⟨s.sequence, s.transcript.shown⟩

variable {rfc3339 : DateTime → String} {sessionId : String} {s s' : Observer}

section Pages

variable {storage : Storage} {after : Nat} {now : Now}

/-- A page is the front of the recorded events beyond its cursor. -/
theorem sessionEvents_front (now : Now) :
    ∃ rest, storage.eventRows .sessionId sessionId after =
      (sessionEvents storage sessionId after now).events ++ rest := by
  obtain ⟨rest, hrows, -⟩ :=
    storage.events_split .sessionId sessionId after (readLimit 65536)
  exact ⟨rest, hrows⟩

theorem ascending_sessionRows (hunique : storage.db.UniqueSequences) :
    Ascending TerminalEvent.sequence (storage.eventRows .sessionId sessionId after) := by
  refine ascending_sortByKey _ (List.pairwise_map.mpr ((hunique.filter _).imp_of_mem ?_))
  intro a b ha hb hne hsequence
  have hsession {event : TerminalEvent} (he : event ∈ storage.db.events.filter fun event =>
      EventColumn.selects .sessionId sessionId event && decide (after < event.sequence)) :
      event.sessionId = sessionId := by
    simpa [EventColumn.selects] using (Bool.and_eq_true_iff.mp (List.mem_filter.mp he).2).1
  exact hne ⟨(hsession ha).trans (hsession hb).symm, hsequence⟩

theorem ascending_sessionEvents (hunique : storage.db.UniqueSequences) :
    Ascending TerminalEvent.sequence (sessionEvents storage sessionId after now).events := by
  obtain ⟨rest, hrows⟩ := @sessionEvents_front sessionId storage after now
  have hall : Ascending _ (storage.eventRows .sessionId sessionId after) :=
    ascending_sessionRows hunique
  rw [hrows] at hall
  exact ((ascending_append _).mp hall).1

theorem mem_sessionEvents {event : TerminalEvent}
    (h : event ∈ (sessionEvents storage sessionId after now).events) :
    event ∈ storage.db.events ∧ event.sessionId = sessionId ∧ after < event.sequence := by
  obtain ⟨rest, hrows⟩ := @sessionEvents_front sessionId storage after now
  have hmem := hrows ▸ List.mem_append_left rest h
  obtain ⟨hstored, hselects, hafter⟩ := Storage.mem_eventRows.mp hmem
  exact ⟨hstored, by simpa [EventColumn.selects] using hselects, hafter⟩

/-- No recorded event beyond the cursor comes before the first one of the page. -/
theorem head_sessionEvents (hunique : storage.db.UniqueSequences) {first event : TerminalEvent}
    (hfirst : (sessionEvents storage sessionId after now).events.head? = some first)
    (hstored : event ∈ storage.db.events) (hsession : event.sessionId = sessionId)
    (hafter : after < event.sequence) : first.sequence ≤ event.sequence := by
  obtain ⟨rest, hrows⟩ := @sessionEvents_front sessionId storage after now
  have hall : Ascending _ (storage.eventRows .sessionId sessionId after) :=
    ascending_sessionRows hunique
  have hmem : event ∈ storage.eventRows .sessionId sessionId after :=
    Storage.mem_eventRows.mpr ⟨hstored, by simpa [EventColumn.selects] using hsession, hafter⟩
  obtain ⟨page, hpage⟩ := List.head?_eq_some_iff.mp hfirst
  rw [hrows, hpage, List.cons_append] at hall hmem
  cases List.mem_cons.mp hmem with
  | inl hsame => rw [hsame]
  | inr hrest => exact Nat.le_of_lt ((List.pairwise_cons.mp hall).1 event hrest)

end Pages

/-- What an activation other than those before may be: it carries no page, and it asks, if at
all, with the cursor as it stands or as it stood for one of those before. -/
def Follows (s : Observer) (sequence : Nat) (a : Activation) : Prop :=
  a ∈ s.activations ∨ a.page = none ∧ ∀ after, a.after = some after →
    after = sequence ∨ ∃ b ∈ s.activations, b.after = some after

/-- What one step does to the cursor, the transcript and the pages on their way. -/
inductive Does (sessionId : String) (s : Observer) : ObserverStep → Observer → Prop
  | quiet {step : ObserverStep} {s' : Observer} (harriving : s.arriving step = none)
      (hreader : s'.reader = s.reader) (hstorage : s'.storage = s.storage)
      (hactivations : ∀ a ∈ s'.activations, s.Follows s.sequence a) : Does sessionId s step s'
  | serve {index after : Nat} {fault : Option String} {now : Now}
      (hasked : s.activations[index]? = some (.requested after)) :
      Does sessionId s (.serve index fault now)
        (s.place index
          (.answered after (.ok (.events (sessionEvents s.storage sessionId after now)))))
  | deliver {index after : Nat} {data : EventsData} {s' : Observer}
      (harriving : s.activations[index]? = some (.answered after (.ok (.events data))))
      (hreader : s'.reader = s.reader.accept TerminalEvent.sequence data.events)
      (hstorage : s'.storage = s.storage)
      (hactivations : ∀ a ∈ s'.activations, s.Follows s'.sequence a) :
      Does sessionId s (.deliver index) s'
  | daemon {db : Database} (hunique : db.UniqueSequences) :
      Does sessionId s (.daemon db hunique) { s with storage := { s.storage with db } }

theorem follows_place {index sequence : Nat} {a b : Activation}
    (ha : a.page = none) (hafter : ∀ after, a.after = some after → after = sequence ∨
      ∃ b ∈ s.activations, b.after = some after)
    (hb : b ∈ (s.place index a).activations) : s.Follows sequence b := by
  cases List.mem_or_eq_of_mem_set hb with
  | inl hold => exact .inl hold
  | inr hnew => exact .inr (hnew ▸ ⟨ha, hafter⟩)

theorem follows_loop {index sequence : Nat} {more : Bool} {b : Activation}
    (hb : b ∈ (s.loop index more).activations) (hsequence : s.sequence = sequence) :
    s.Follows sequence b := by
  rw [loop] at hb
  split at hb
  · exact follows_place rfl (fun after hafter => .inl (by cases hafter; exact hsequence)) hb
  · exact follows_place rfl (fun after hafter => by cases hafter) hb

@[simp] theorem reader_loop (index : Nat) (more : Bool) :
    (s.loop index more).reader = s.reader := by
  rw [loop]
  split <;> rfl

@[simp] theorem storage_loop (index : Nat) (more : Bool) :
    (s.loop index more).storage = s.storage := by
  rw [loop]
  split <;> rfl

theorem sequence_loop (index : Nat) (more : Bool) :
    (s.loop index more).sequence = s.sequence := congrArg Reader.cursor (reader_loop index more)

theorem does_of_step {step : ObserverStep} (h : Observer.step rfc3339 sessionId s step = some s') :
    Does sessionId s step s' := by
  cases step with
  | tick =>
      simp only [Observer.step] at h
      split at h <;> cases h
      refine .quiet rfl rfl rfl fun a ha => ?_
      cases List.mem_append.mp ha with
      | inl hold => exact .inl hold
      | inr hnew =>
          rw [List.mem_singleton.mp hnew]
          exact .inr ⟨rfl, nofun⟩
  | status index reply =>
      simp only [Observer.step] at h
      split at h
      · rename_i info _
        cases h
        exact .quiet rfl (reader_loop index true) (storage_loop index true)
          fun a ha => (follows_loop ha rfl : Follows { s with session := some info } _ a)
      · cases h
        exact .quiet rfl (reader_loop index true) (storage_loop index true)
          fun a ha => follows_loop ha rfl
      · cases h
        exact .quiet rfl rfl rfl fun a ha => follows_place rfl (fun _ hafter => by cases hafter) ha
      · cases h
  | serve index fault now =>
      simp only [Observer.step] at h
      split at h
      · rename_i after hasked
        cases h
        have hasker : ∃ b ∈ s.activations, b.after = some after :=
          ⟨_, List.mem_of_getElem? hasked, rfl⟩
        have hfailed (error : String) : Does sessionId s (.serve index fault now)
            (s.place index (.answered after (.error error))) := by
          refine .quiet rfl rfl rfl fun a ha => follows_place rfl (fun after' hafter => ?_) ha
          cases hafter
          exact .inr hasker
        simp only [Observer.reply]
        split
        · exact hfailed _
        · split
          · exact hfailed _
          · exact .serve hasked
      · cases h
  | deliver index =>
      simp only [Observer.step] at h
      split at h
      · rename_i after data harriving
        cases h
        refine .deliver harriving ?_ (storage_loop index data.hasMore) fun a ha => ?_
        · rw [reader_loop]
          exact congrArg (Reader.mk _) (Transcript.shown_appendTranscript rfc3339 _ _ _)
        · rw [sequence_loop]
          exact (follows_loop ha rfl : Follows (s.append rfc3339 data) _ a)
      · rename_i after data hne harriving
        cases h
        refine .quiet ?_ rfl rfl
          fun a ha => follows_place rfl (fun _ hafter => by cases hafter) ha
        rw [arriving, harriving]
        cases data with
        | events data => exact absurd rfl (hne data)
        | _ => rfl
      · rename_i after error harriving
        cases h
        refine .quiet ?_ rfl rfl
          fun a ha => follows_place rfl (fun _ hafter => by cases hafter) ha
        rw [arriving, harriving]
        rfl
      · cases h
  | close =>
      cases h
      exact .quiet rfl rfl rfl fun a ha => .inl ha
  | daemon db hunique =>
      cases h
      exact .daemon hunique

/-- Every event is shown at most once, in increasing order. -/
def ShowsOnce (s : Observer) : Prop := Ascending TerminalEvent.sequence s.transcript.shown

/-- A page that arrives starts beyond the cursor. -/
def StartsBeyond (s : Observer) (step : ObserverStep) : Prop :=
  ∀ after data, s.arriving step = some (after, data) →
    ∀ event ∈ data.events.head?, s.sequence < event.sequence

structure Sane (s : Observer) : Prop where
  unique : s.storage.db.UniqueSequences
  abreast : Reader.Abreast TerminalEvent.sequence s.reader
  pages : ∀ a ∈ s.activations, ∀ after data, a.page = some (after, data) →
    Ascending TerminalEvent.sequence data.events ∧ ∀ event ∈ data.events, after < event.sequence

theorem startsBeyond_of_none {step : ObserverStep} (h : s.arriving step = none) :
    s.StartsBeyond step := by
  intro after data harriving
  rw [h] at harriving
  cases harriving

/-- A page on its way was on its way before, unless the step has served it. -/
theorem page_of_follows {sequence after : Nat} {data : EventsData} {a : Activation}
    (h : s.Follows sequence a) (hpage : a.page = some (after, data)) : a ∈ s.activations :=
  h.resolve_right fun hnew => by rw [hnew.1] at hpage; cases hpage

theorem Sane.does (h : s.Sane) {step : ObserverStep} (hdoes : Does sessionId s step s') :
    s'.Sane ∧ (s'.ShowsOnce ↔ s.ShowsOnce ∧ s.StartsBeyond step) := by
  cases hdoes with
  | @quiet _ s' harriving hreader hstorage hactivations =>
      refine ⟨⟨by rw [hstorage]; exact h.unique, by rw [hreader]; exact h.abreast, ?_⟩, ?_⟩
      · intro a ha after data hpage
        exact h.pages a (page_of_follows (hactivations a ha) hpage) after data hpage
      · have hshown : s'.transcript.shown = s.transcript.shown := congrArg Reader.received hreader
        rw [ShowsOnce, hshown]
        exact (and_iff_left (startsBeyond_of_none harriving)).symm
  | @serve index after fault now hasked =>
      refine ⟨⟨h.unique, h.abreast, ?_⟩, (and_iff_left (startsBeyond_of_none rfl)).symm⟩
      intro a ha after' data hpage
      cases List.mem_or_eq_of_mem_set ha with
      | inl hold => exact h.pages a hold after' data hpage
      | inr hnew =>
          subst hnew
          cases hpage
          exact ⟨ascending_sessionEvents h.unique, fun event he => (mem_sessionEvents he).2.2⟩
  | @deliver index after data s' hanswered hreader hstorage hactivations =>
      obtain ⟨hascending, hafter⟩ :=
        h.pages _ (List.mem_of_getElem? hanswered) after data rfl
      have harriving : s.arriving (.deliver index) = some (after, data) := by
        rw [arriving, hanswered]
        rfl
      refine ⟨⟨by rw [hstorage]; exact h.unique, ?_, ?_⟩, ?_⟩
      · rw [hreader]
        exact h.abreast.accept _ data.events
      · intro a ha after' data' hpage
        exact h.pages a (page_of_follows (hactivations a ha) hpage) after' data' hpage
      · have hshown : s'.transcript.shown =
            (s.reader.accept TerminalEvent.sequence data.events).received :=
          congrArg Reader.received hreader
        rw [ShowsOnce, hshown, h.abreast.ascending_accept _ hascending
          fun event he => Nat.lt_of_le_of_lt (Nat.zero_le after) (hafter event he)]
        refine and_congr_right fun _ => ?_
        simp only [StartsBeyond, harriving, Option.some.injEq, Prod.mk.injEq, and_imp]
        constructor
        · intro hbeyond _ _ _ hdata
          exact hdata ▸ hbeyond
        · intro hbeyond
          exact hbeyond after data rfl rfl
  | daemon hunique => exact ⟨⟨hunique, h.abreast, h.pages⟩,
      (and_iff_left (startsBeyond_of_none rfl)).symm⟩

theorem sane_start {storage : Storage} (hunique : storage.db.UniqueSequences) :
    (start storage).Sane where
  unique := hunique
  abreast := Reader.abreast_start _
  pages := by
    intro a ha
    cases ha

/-- A run shows every event once exactly if every page that arrives starts beyond the
cursor. -/
theorem showsOnce_iff_startsBeyond {storage : Storage} {steps : List ObserverStep}
    (hunique : storage.db.UniqueSequences)
    (hrun : (machine rfc3339 sessionId).run (start storage) steps = some s) :
    s.ShowsOnce ↔ (machine rfc3339 sessionId).Meets StartsBeyond (start storage) steps := by
  have hiff := (machine rfc3339 sessionId).meets_iff (I := Sane) (K := fun _ => True)
    (P := ShowsOnce) (C := StartsBeyond) (fun _ _ _ _ h => h)
    (fun _ _ _ h _ hstep => h.does (does_of_step hstep)) (sane_start hunique) hrun trivial
  have hempty : (start storage).ShowsOnce := ascending_nil _
  exact hiff.2.trans (and_iff_right hempty)

/-! When the cursor is kept, a page starts beyond it; and where the recorded events only
grow in order, never otherwise. -/

theorem page_of_arriving {step : ObserverStep} {after : Nat} {data : EventsData}
    (h : s.arriving step = some (after, data)) :
    ∃ a ∈ s.activations, a.page = some (after, data) := by
  cases step with
  | deliver index =>
      obtain ⟨a, hget, hpage⟩ := Option.bind_eq_some_iff.mp h
      exact ⟨a, List.mem_of_getElem? hget, hpage⟩
  | _ => cases h

theorem Sane.startsBeyond (h : s.Sane) {step : ObserverStep} (hkept : s.CursorKept step) :
    s.StartsBeyond step := by
  intro after data harriving first hfirst
  obtain ⟨a, ha, hpage⟩ := page_of_arriving harriving
  have hmem : first ∈ data.events := List.mem_of_mem_head? hfirst
  rw [hkept after data harriving (List.ne_nil_of_mem hmem)]
  exact (h.pages a ha after data hpage).2 first hmem

/-- Where events are recorded in order: the cursor stands on a recorded event, no activation
has asked beyond it, and a page on its way starts at the first recorded event beyond the
cursor it was asked with. -/
structure Orderly (sessionId : String) (s : Observer) : Prop where
  asked : ∀ a ∈ s.activations, ∀ after, a.after = some after → after ≤ s.sequence
  recorded : s.sequence = 0 ∨ s.Recorded sessionId s.sequence
  drawn : ∀ a ∈ s.activations, ∀ after data, a.page = some (after, data) →
    ∀ event ∈ data.events, s.Recorded sessionId event.sequence
  least : ∀ a ∈ s.activations, ∀ after data, a.page = some (after, data) →
    ∀ first ∈ data.events.head?, ∀ number, s.Recorded sessionId number → after < number →
      first.sequence ≤ number

theorem asked_of_follows (h : ∀ a ∈ s.activations, ∀ after, a.after = some after →
    after ≤ s.sequence) {sequence : Nat} (hle : s.sequence ≤ sequence) {a : Activation}
    (ha : s.Follows sequence a) {after : Nat} (hafter : a.after = some after) :
    after ≤ sequence := by
  cases ha with
  | inl hold => exact Nat.le_trans (h a hold after hafter) hle
  | inr hnew =>
      cases hnew.2 after hafter with
      | inl hsame => exact Nat.le_of_eq hsame
      | inr hasker =>
          obtain ⟨b, hb, hbafter⟩ := hasker
          exact Nat.le_trans (h b hb after hbafter) hle

theorem recorded_congr (hstorage : s'.storage = s.storage) (number : Nat) :
    s'.Recorded sessionId number ↔ s.Recorded sessionId number := by
  rw [Recorded, Recorded, hstorage]

theorem Orderly.does (h : s.Orderly sessionId) (hunique : s.storage.db.UniqueSequences)
    {step : ObserverStep} (hgrows : s.GrowsInOrder sessionId step)
    (hdoes : Does sessionId s step s') : s'.Orderly sessionId := by
  cases hdoes with
  | @quiet _ s' harriving hreader hstorage hactivations =>
      have hsequence : s'.sequence = s.sequence := congrArg Reader.cursor hreader
      have hold {a : Activation} (ha : a ∈ s'.activations) {after : Nat} {data : EventsData}
          (hpage : a.page = some (after, data)) : a ∈ s.activations :=
        page_of_follows (hactivations a ha) hpage
      refine ⟨fun a ha after hafter => ?_, ?_, fun a ha after data hpage event he => ?_,
        fun a ha after data hpage first hfirst number hnumber => ?_⟩
      · rw [hsequence]
        exact asked_of_follows h.asked (Nat.le_refl _) (hactivations a ha) hafter
      · rw [hsequence, recorded_congr hstorage]
        exact h.recorded
      · exact (recorded_congr hstorage _).mpr (h.drawn a (hold ha hpage) after data hpage event he)
      · exact h.least a (hold ha hpage) after data hpage first hfirst number
          ((recorded_congr hstorage _).mp hnumber)
  | @serve index after fault now hasked =>
      refine ⟨fun a ha after' hafter => ?_, h.recorded, fun a ha after' data hpage event he => ?_,
        fun a ha after' data hpage first hfirst number hnumber hbeyond => ?_⟩
      · cases List.mem_or_eq_of_mem_set ha with
        | inl hold => exact h.asked a hold after' hafter
        | inr hnew =>
            subst hnew
            cases hafter
            exact h.asked _ (List.mem_of_getElem? hasked) after rfl
      · cases List.mem_or_eq_of_mem_set ha with
        | inl hold => exact h.drawn a hold after' data hpage event he
        | inr hnew =>
            subst hnew
            cases hpage
            obtain ⟨hstored, hsession, -⟩ := mem_sessionEvents he
            exact ⟨event, hstored, hsession, rfl⟩
      · cases List.mem_or_eq_of_mem_set ha with
        | inl hold => exact h.least a hold after' data hpage first hfirst number hnumber hbeyond
        | inr hnew =>
            subst hnew
            cases hpage
            obtain ⟨event, hstored, hsession, rfl⟩ := hnumber
            exact head_sessionEvents hunique hfirst hstored hsession hbeyond
  | @deliver index after data s' hanswered hreader hstorage hactivations =>
      have hsequence : s'.sequence =
          Reader.furthest TerminalEvent.sequence s.sequence data.events :=
        congrArg Reader.cursor hreader
      have hle : s.sequence ≤ s'.sequence := by
        rw [hsequence]
        exact ((Reader.furthest_le _).mp (Nat.le_refl _)).1
      have hold {a : Activation} (ha : a ∈ s'.activations) {after : Nat} {data : EventsData}
          (hpage : a.page = some (after, data)) : a ∈ s.activations :=
        page_of_follows (hactivations a ha) hpage
      refine ⟨fun a ha after hafter => asked_of_follows h.asked hle (hactivations a ha) hafter, ?_,
        fun a ha after data hpage event he => ?_,
        fun a ha after data hpage first hfirst number hnumber => ?_⟩
      · rw [recorded_congr hstorage, hsequence]
        cases Reader.furthest_cases TerminalEvent.sequence s.sequence data.events with
        | inl hsame =>
            rw [hsame]
            exact h.recorded
        | inr hnew =>
            obtain ⟨event, he, hkey⟩ := hnew
            exact .inr (hkey ▸ h.drawn _ (List.mem_of_getElem? hanswered) after data rfl event he)
      · exact (recorded_congr hstorage _).mpr (h.drawn a (hold ha hpage) after data hpage event he)
      · exact h.least a (hold ha hpage) after data hpage first hfirst number
          ((recorded_congr hstorage _).mp hnumber)
  | @daemon db hdb =>
      obtain ⟨hstays, hbeyond⟩ := hgrows
      refine ⟨h.asked, h.recorded.imp_right (hstays _), fun a ha after data hpage event he =>
        hstays _ (h.drawn a ha after data hpage event he),
        fun a ha after data hpage first hfirst number hnumber hafter => ?_⟩
      by_cases hbefore : s.Recorded sessionId number
      · exact h.least a ha after data hpage first hfirst number hbefore hafter
      · have hfirst' := h.drawn a ha after data hpage first (List.mem_of_mem_head? hfirst)
        exact Nat.le_of_lt (hbeyond number hnumber hbefore first.sequence hfirst')

theorem Orderly.cursorKept (h : s.Orderly sessionId) {step : ObserverStep}
    (hbeyond : s.StartsBeyond step) : s.CursorKept step := by
  intro after data harriving hne
  obtain ⟨a, ha, hpage⟩ := page_of_arriving harriving
  obtain ⟨first, rest, hevents⟩ := List.exists_cons_of_ne_nil hne
  have hfirst : first ∈ data.events.head? := by rw [hevents, List.head?_cons]; rfl
  have hcursor := hbeyond after data harriving first hfirst
  have hasked : after ≤ s.sequence := by
    refine h.asked a ha after ?_
    simp only [Activation.page] at hpage
    split at hpage <;> cases hpage
    rfl
  by_contra hmoved
  have hlt : after < s.sequence := Nat.lt_of_le_of_ne hasked (Ne.symm hmoved)
  cases h.recorded with
  | inl hzero => exact absurd hlt (hzero ▸ Nat.not_lt_zero after)
  | inr hrecorded =>
      have hle := h.least a ha after data hpage first hfirst s.sequence hrecorded hlt
      exact Nat.lt_irrefl _ (Nat.lt_of_lt_of_le hcursor hle)

theorem orderly_start (storage : Storage) : (start storage).Orderly sessionId where
  asked := by
    intro a ha
    cases ha
  recorded := .inl rfl
  drawn := by
    intro a ha
    cases ha
  least := by
    intro a ha
    cases ha

/-- A run whose pages find the cursor where it was when they were asked for shows every event
once; and where the recorded events only grow in order, no other run does. -/
theorem events_shown_once_iff {storage : Storage} {steps : List ObserverStep}
    (hunique : storage.db.UniqueSequences)
    (hrun : (machine rfc3339 sessionId).run (start storage) steps = some s) :
    ((machine rfc3339 sessionId).Meets CursorKept (start storage) steps → s.ShowsOnce) ∧
    ((machine rfc3339 sessionId).Meets (GrowsInOrder sessionId) (start storage) steps →
      s.ShowsOnce → (machine rfc3339 sessionId).Meets CursorKept (start storage) steps) := by
  rw [showsOnce_iff_startsBeyond hunique hrun]
  constructor
  · intro hkept
    exact (machine rfc3339 sessionId).meets_of_invariant (I := Sane)
      (fun _ _ _ h _ hstep => (h.does (does_of_step hstep)).1)
      (fun _ _ _ h hkept _ => h.startsBeyond hkept) (sane_start hunique) hkept hrun
  · intro hgrows hbeyond
    exact (machine rfc3339 sessionId).meets_of_invariant
      (I := fun s => s.Sane ∧ s.Orderly sessionId)
      (C := fun s step => s.GrowsInOrder sessionId step ∧ s.StartsBeyond step)
      (fun _ _ _ h hC hstep => ⟨(h.1.does (does_of_step hstep)).1,
        h.2.does h.1.unique hC.1 (does_of_step hstep)⟩)
      (fun _ _ _ h hC _ => h.2.cursorKept hC.2) ⟨sane_start hunique, orderly_start storage⟩
      ((machine rfc3339 sessionId).meets_and.mpr ⟨hgrows, hbeyond⟩) hrun

instance decidableCursorKept (s : Observer) : DecidablePred s.CursorKept := by
  intro step
  rw [CursorKept]
  cases s.arriving step with
  | none => exact isTrue fun _ _ hpage => by cases hpage
  | some page =>
      refine decidable_of_iff (page.2.events ≠ [] → s.sequence = page.1) ⟨?_, ?_⟩
      · intro h after data hpage
        cases hpage
        exact h
      · exact fun h => h page.1 page.2 rfl

/-- A session with one recorded event. -/
def oneRecorded : Storage where
  db :=
    { sessions := [⟨.created "s" "t" "t" "p" "m" ⟨0, 0⟩, 2⟩]
      commands := []
      events := [⟨"s", none, 1, 0, .pty, [111, 107], true⟩] }
  recordingLimitBytes := 1000

theorem oneRecorded_unique : oneRecorded.db.UniqueSequences := List.pairwise_singleton _ _

def aText (_ : DateTime) : String := "1970-01-01T00:00:00Z"

/-- The timer fires again only when the first activation has its page. -/
def patient : List ObserverStep :=
  [.tick, .status 0 (.ok .ack), .serve 0 none ⟨0, 0⟩, .deliver 0,
    .tick, .status 1 (.ok .ack), .serve 1 none ⟨0, 0⟩, .deliver 1]

theorem events_shown_once_patient :
    ∃ s, (machine aText "s").run (start oneRecorded) patient = some s ∧
      s.transcript.shown.map TerminalEvent.sequence = [1] ∧ s.ShowsOnce := by
  have hall : (((machine aText "s").run (start oneRecorded) patient).any fun s =>
      s.transcript.shown.map TerminalEvent.sequence == [1]) = true := by decide
  obtain ⟨s, hrun, hshown⟩ := (Option.any_eq_true _ _).mp hall
  have hshown := eq_of_beq hshown
  have honce := (events_shown_once_iff oneRecorded_unique hrun).1
  exact ⟨s, hrun, hshown, honce (by decide +kernel)⟩

/-- The timer fires again before the first activation has its page. -/
def impatient : List ObserverStep :=
  [.tick, .status 0 (.ok .ack), .tick, .status 1 (.ok .ack), .serve 0 none ⟨0, 0⟩,
    .serve 1 none ⟨0, 0⟩, .deliver 0, .deliver 1]

theorem slow_replies_show_an_event_twice :
    ∃ s, (machine aText "s").run (start oneRecorded) impatient = some s ∧
      s.transcript.shown.map TerminalEvent.sequence = [1, 1] ∧ ¬ s.ShowsOnce := by
  have hall : (((machine aText "s").run (start oneRecorded) impatient).any fun s =>
      s.transcript.shown.map TerminalEvent.sequence == [1, 1]) = true := by decide
  obtain ⟨s, hrun, hshown⟩ := (Option.any_eq_true _ _).mp hall
  have hshown := eq_of_beq hshown
  refine ⟨s, hrun, hshown, fun honce => ?_⟩
  have hmap := ascending_map TerminalEvent.sequence honce
  rw [hshown] at hmap
  exact absurd hmap (by unfold Ascending; decide)

end Observer
end AiSsh
