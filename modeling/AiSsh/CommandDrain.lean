import AiSsh.RecordingAccounts
import AiSsh.SessionPage

/-!
A client that drains the output of a finished command: it polls with the cursor
the previous response handed back until the response says that delivery is
complete. Other commands and a PTY of the session go on recording in between.

The live tail holds what the store rejected, and the store decides by the size of
each event, so a small event may be stored after a large one was rejected. A page
that shows the stored event and leaves the live one behind moves the cursor past
it. `Covered` says of one poll that this does not happen.
-/

namespace AiSsh

open Library

namespace Session

def commandEvents (s : Session) (id : String) : List TerminalEvent :=
  s.history.filter fun event => event.commandId == some id

/-- The command's row is terminal. -/
def Finished (s : Session) (id : String) : Prop :=
  ∃ row, s.storage.db.command id = some row ∧ row.sessionId = s.runtime.sessionId ∧
    row.status ≠ .running

theorem Books.ascending {s : Session} (h : Books s) :
    Ascending TerminalEvent.sequence s.history := by
  have hlt : (s.history.map TerminalEvent.sequence).Pairwise (· < ·) := by
    rw [h.numbers]
    exact List.pairwise_lt_range'
  exact List.pairwise_map.mp hlt

theorem Books.sequence_pos {s : Session} (h : Books s) {event : TerminalEvent}
    (he : event ∈ s.history) : 0 < event.sequence := by
  have hmem := List.mem_map_of_mem (f := TerminalEvent.sequence) he
  rw [h.numbers, List.mem_range'_1] at hmem
  omega

theorem Books.ascending_commandEvents {s : Session} (h : Books s) (id : String) :
    Ascending TerminalEvent.sequence (s.commandEvents id) := h.ascending.filter _ _

theorem mem_commandEvents {s : Session} {id : String} {event : TerminalEvent} :
    event ∈ s.commandEvents id ↔ event ∈ s.history ∧ event.commandId = some id := by
  simp [commandEvents]

/-- A finished command has no task left to record for it. -/
theorem Finished.task {s : Session} {id : String} (hf : Finished s id) (h : Books s) :
    s.task id = none := by
  cases htask : s.task id with
  | none => rfl
  | some task =>
      obtain ⟨row, hrow, -, hstatus⟩ := hf
      obtain ⟨row', hrow', -, hrunning⟩ := h.taskRow task (task_mem htask).1
      rw [(task_mem htask).2, hrow] at hrow'
      cases hrow'
      contradiction

theorem Finished.of_keeps {s s' : Session} {id : String} (hf : Finished s id)
    (hkeeps : s.storage.KeepsCommands s'.storage)
    (hown : s'.runtime.sessionId = s.runtime.sessionId) : Finished s' id := by
  rw [Finished, hown]
  exact hkeeps.row (fun owner status => owner = s.runtime.sessionId ∧ status ≠ .running) hf

theorem Finished.setInfo {s : Session} {id : String} (hf : Finished s id) (info : SessionInfo) :
    Finished (s.setInfo info) id := by
  obtain ⟨row, hrow, hr⟩ := hf
  exact ⟨row, by rw [← hrow]; exact s.storage.upsertSession_command info id, hr⟩

/-- A finished command stays finished and no event of it is recorded any more. -/
theorem Finished.step {s s' : Session} {id : String} (hf : Finished s id) (h : Books s)
    {call : SessionCall} (hstep : s.step call = some s') :
    Finished s' id ∧ s'.commandEvents id = s.commandEvents id := by
  have htask := hf.task h
  cases call with
  | record commandId stream payload now =>
      obtain ⟨hrunning, hresult, rfl⟩ := stepRecord_some hstep
      have hother : commandId ≠ some id := by
        rintro rfl
        obtain ⟨task, hsome⟩ := hrunning id rfl
        exact absurd (htask.symm.trans hsome) nofun
      rcases record_ok rfl hresult with hrejected | ⟨db, hinsert, haccepted⟩
      · rw [hrejected]
        refine ⟨hf.of_keeps (Storage.rejectEvent_keeps _ _) rfl, ?_⟩
        simp [commandEvents, SessionRuntime.nextEvent, hother]
      · rw [haccepted]
        refine ⟨hf.of_keeps (Storage.acceptEvent_keeps hinsert) rfl, ?_⟩
        simp [commandEvents, SessionRuntime.nextEvent, hother]
  | startExec c command background now =>
      obtain ⟨storage, hinsert, rfl⟩ := stepStartExec_some hstep
      obtain ⟨row, hrow, hr⟩ := hf
      have hne : id ≠ c := by
        rintro rfl
        exact absurd ((Storage.insertCommand_ok hinsert).1.symm.trans hrow) nofun
      have hkept : Finished { s with
          storage := storage
          tasks := s.tasks ++ [⟨.started c s.runtime.sessionId command now, background⟩] } id :=
        ⟨row, (Storage.insertCommand_command hinsert id).trans ((if_neg hne).trans hrow), hr⟩
      split
      · exact ⟨hkept, rfl⟩
      · exact ⟨hkept.setInfo _, rfl⟩
  | finishExec c status exit now =>
      obtain ⟨task, hsome, -, outputBytes, rfl⟩ := stepFinishExec_some hstep
      obtain ⟨row, hrow, hr⟩ := hf
      have hne : row.id ≠ task.command.id := by
        rw [Database.command_id hrow, (task_mem hsome).2]
        rintro rfl
        exact absurd (htask.symm.trans hsome) nofun
      have hkept : Finished { s with
          storage := s.storage.updateCommand
            (task.command.finished status exit s.runtime.sequence outputBytes now)
          tasks := s.tasks.filter fun task => task.command.id != c } id := by
        refine ⟨row, ?_, hr⟩
        rw [Storage.updateCommand_command, hrow, Option.map_some]
        exact congrArg some (if_neg hne)
      split
      · exact ⟨hkept, rfl⟩
      · exact ⟨hkept.setInfo _, rfl⟩
  | close now =>
      cases hstep
      exact ⟨hf.setInfo _, rfl⟩

/-- What the tail gave up stays given up. -/
theorem evicted_step {s s' : Session} {call : SessionCall} (hstep : s.step call = some s')
    (h : s.evicted ≠ []) : s'.evicted ≠ [] := by
  cases call with
  | record commandId stream payload now =>
      obtain ⟨-, -, rfl⟩ := stepRecord_some hstep
      simp [h]
  | startExec c command background now =>
      obtain ⟨storage, -, rfl⟩ := stepStartExec_some hstep
      split
      · exact h
      · exact h
  | finishExec c status exit now =>
      obtain ⟨task, -, -, outputBytes, rfl⟩ := stepFinishExec_some hstep
      split
      · exact h
      · exact h
  | close now =>
      cases hstep
      exact h

/-! The two stores, seen from the history. -/

theorem Books.eventRows {s : Session} (h : Books s) {id : String} {row : CommandInfo}
    (hrow : s.storage.db.command id = some row) (hown : row.sessionId = s.runtime.sessionId)
    (after : Nat) :
    s.storage.eventRows .commandId id after =
      (s.commandEvents id).filter fun event =>
        event.persisted && decide (after < event.sequence) := by
  have hrows : (s.storage.db.events.filter fun event =>
        EventColumn.commandId.selects id event && decide (after < event.sequence)) =
      (s.commandEvents id).filter fun event =>
        event.persisted && decide (after < event.sequence) := by
    have hstored : (s.storage.db.events.filter fun event =>
          EventColumn.commandId.selects id event && decide (after < event.sequence)) =
        s.stored.filter fun event =>
          EventColumn.commandId.selects id event && decide (after < event.sequence) := by
      rw [stored, List.filter_filter]
      refine List.filter_congr fun event he => ?_
      by_cases hc : event.commandId = some id
      · simp [EventColumn.selects, hc, h.eventOwner event he id row hc hrow hown]
      · simp [EventColumn.selects, hc]
    rw [hstored, h.stored, commandEvents, List.filter_filter, List.filter_filter]
    refine List.filter_congr fun event _ => ?_
    simp only [EventColumn.selects]
    ac_rfl
  rw [Storage.eventRows, hrows]
  exact sortByKey_of_ascending _ ((h.ascending_commandEvents id).filter _ _)

/-- The live events a poll for the command is after. -/
def liveBeyond (s : Session) (id : String) (after : Nat) : List TerminalEvent :=
  s.runtime.liveEvents.filter (liveSelects after (some id))

theorem Books.mem_liveBeyond {s : Session} (h : Books s) {id : String} {after : Nat}
    {event : TerminalEvent} (he : event ∈ s.liveBeyond id after) :
    event ∈ s.commandEvents id ∧ event.persisted = false ∧ after < event.sequence := by
  obtain ⟨hlive, hafter, hcommand⟩ := mem_liveSelects.mp he
  have hrejected : event ∈ s.history.filter fun event => !event.persisted := by
    rw [h.rejected]
    exact List.mem_append_right _ hlive
  simp only [List.mem_filter, Bool.not_eq_true'] at hrejected
  exact ⟨mem_commandEvents.mpr ⟨hrejected.1, hcommand id rfl⟩, hrejected.2, hafter⟩

theorem Books.liveBeyond_of {s : Session} (h : Books s) (hevicted : s.evicted = []) {id : String}
    {after : Nat} {event : TerminalEvent} (he : event ∈ s.commandEvents id)
    (hpersisted : event.persisted = false) (hafter : after < event.sequence) :
    event ∈ s.liveBeyond id after := by
  obtain ⟨hhistory, hcommand⟩ := mem_commandEvents.mp he
  have hrejected : event ∈ s.history.filter fun event => !event.persisted := by
    simp [hhistory, hpersisted]
  rw [h.rejected, hevicted, List.nil_append] at hrejected
  refine mem_liveSelects.mpr ⟨hrejected, hafter, ?_⟩
  rintro id' hid
  cases hid
  exact hcommand

theorem Books.ascending_liveBeyond {s : Session} (h : Books s) (id : String) (after : Nat) :
    Ascending TerminalEvent.sequence (s.liveBeyond id after) := by
  have hlive : s.runtime.liveEvents.Sublist s.history := by
    have hrejected : s.runtime.liveEvents.Sublist (s.evicted ++ s.runtime.liveEvents) :=
      List.sublist_append_right _ _
    rw [← h.rejected] at hrejected
    exact hrejected.trans List.filter_sublist
  exact (h.ascending.sublist _ hlive).filter _ _

/-! One page of the command. -/

/-- The page a poll of the command shows. -/
def page (s : Session) (id : String) (after limit : Nat) : List TerminalEvent × Bool :=
  appendLive (s.storage.eventsForCommand id after limit).1
    (s.storage.eventsForCommand id after limit).2 s.runtime.liveEvents after limit (some id)

/-- No live event is left behind a stored one: where the database page holds an
event later than a live one, that page is whole and the live event, with those
queued before it, fits into the rest of the budget. -/
def Covered (s : Session) (id : String) (after limit : Nat) : Prop :=
  let stored := s.storage.eventsForCommand id after limit
  ∀ live ∈ s.liveBeyond id after, ∀ event ∈ stored.1, live.sequence < event.sequence →
    stored.2 = false ∧ Within payloadLength limit stored.1 (s.liveBeyond id after) live

section Page

variable {s : Session} {id : String} {row : CommandInfo}

theorem Books.mem_stored (h : Books s) (hrow : s.storage.db.command id = some row)
    (hown : row.sessionId = s.runtime.sessionId) {after limit : Nat} {event : TerminalEvent}
    (he : event ∈ (s.storage.eventsForCommand id after limit).1) :
    event ∈ s.commandEvents id ∧ event.persisted = true ∧ after < event.sequence := by
  have hmem := (s.storage.events_prefix .commandId id after limit).subset he
  rw [h.eventRows hrow hown] at hmem
  simpa using hmem

theorem Books.ascending_stored (h : Books s) (hrow : s.storage.db.command id = some row)
    (hown : row.sessionId = s.runtime.sessionId) (after limit : Nat) :
    Ascending TerminalEvent.sequence (s.storage.eventsForCommand id after limit).1 := by
  have hinitial := s.storage.events_prefix .commandId id after limit
  rw [h.eventRows hrow hown] at hinitial
  exact ((h.ascending_commandEvents id).filter _ _).sublist _ hinitial.sublist

/-- The two parts of a page are different events with different numbers. -/
theorem Books.nodup_parts (h : Books s) (hrow : s.storage.db.command id = some row)
    (hown : row.sessionId = s.runtime.sessionId) (after limit : Nat) :
    (((s.storage.eventsForCommand id after limit).1 ++ s.liveBeyond id after).map
      TerminalEvent.sequence).Nodup := by
  have hnodup : ∀ {events : List TerminalEvent}, Ascending TerminalEvent.sequence events →
      (events.map TerminalEvent.sequence).Nodup := fun hasc =>
    List.pairwise_map.mpr (hasc.imp fun hlt => Nat.ne_of_lt hlt)
  rw [List.map_append]
  refine List.nodup_append.mpr ⟨hnodup (h.ascending_stored hrow hown after limit),
    hnodup (h.ascending_liveBeyond id after), ?_⟩
  intro a ha b hb hab
  obtain ⟨x, hx, rfl⟩ := List.mem_map.mp ha
  obtain ⟨y, hy, rfl⟩ := List.mem_map.mp hb
  obtain ⟨hxe, hxp, -⟩ := h.mem_stored hrow hown hx
  obtain ⟨hye, hyp, -⟩ := h.mem_liveBeyond hy
  have := (h.ascending_commandEvents id).key_inj _ hxe hye hab
  simp [this, hyp] at hxp

theorem Books.mem_page (h : Books s) (hrow : s.storage.db.command id = some row)
    (hown : row.sessionId = s.runtime.sessionId) {after limit : Nat} {event : TerminalEvent} :
    event ∈ (s.page id after limit).1 ↔
      event ∈ (s.storage.eventsForCommand id after limit).1 ∨
        (s.storage.eventsForCommand id after limit).2 = false ∧
          Within payloadLength limit (s.storage.eventsForCommand id after limit).1
            (s.liveBeyond id after) event :=
  mem_appendLive (List.Nodup.of_map _ (h.nodup_parts hrow hown after limit))

theorem Books.sound_page (h : Books s) (hrow : s.storage.db.command id = some row)
    (hown : row.sessionId = s.runtime.sessionId) (after limit : Nat) :
    Sound TerminalEvent.sequence (· ∈ s.commandEvents id) after (s.page id after limit).1 := by
  have hparts : ∀ event ∈ (s.page id after limit).1,
      event ∈ s.commandEvents id ∧ after < event.sequence := by
    intro event he
    rcases (h.mem_page hrow hown).mp he with hstored | ⟨-, hlive⟩
    · have := h.mem_stored hrow hown hstored
      exact ⟨this.1, this.2.2⟩
    · have := h.mem_liveBeyond hlive.mem
      exact ⟨this.1, this.2.2⟩
  exact
    { ascending := ascending_appendLive (h.ascending_stored hrow hown after limit)
        (h.nodup_parts hrow hown after limit)
      beyond := fun event he => (hparts event he).2
      drawn := fun event he => (hparts event he).1 }

/-- A page without more holds every event beyond the cursor. -/
theorem Books.page_whole (h : Books s) (hrow : s.storage.db.command id = some row)
    (hown : row.sessionId = s.runtime.sessionId) (hevicted : s.evicted = []) {after limit : Nat}
    (hmore : (s.page id after limit).2 = false) {event : TerminalEvent}
    (he : event ∈ s.commandEvents id) (hafter : after < event.sequence) :
    event ∈ (s.page id after limit).1 := by
  obtain ⟨hstored, hpage⟩ := appendLive_all hmore
  rw [page, hpage, mem_sortByKey]
  cases hp : event.persisted with
  | false => exact List.mem_append_right _ (h.liveBeyond_of hevicted he hp hafter)
  | true =>
      refine List.mem_append_left _ ?_
      rw [Storage.eventsForCommand, Storage.events_all hstored, h.eventRows hrow hown]
      simp [he, hp, hafter]

theorem Books.gapless_page (h : Books s) (hrow : s.storage.db.command id = some row)
    (hown : row.sessionId = s.runtime.sessionId) (hevicted : s.evicted = [])
    (after limit : Nat) :
    Gapless TerminalEvent.sequence (· ∈ s.commandEvents id) after (s.page id after limit).1 ↔
      s.Covered id after limit := by
  have hsound := h.sound_page hrow hown after limit
  constructor
  · intro hgapless live hlive event hevent hlt
    obtain ⟨he, hp, hafter⟩ := h.mem_liveBeyond hlive
    have hnext : event.sequence ≤ nextCursor TerminalEvent.sequence after _ :=
      le_nextCursor TerminalEvent.sequence hsound.ascending
        ((h.mem_page hrow hown).mpr (.inl hevent))
    cases (h.mem_page hrow hown).mp (hgapless live he hafter (by omega)) with
    | inl hstored =>
        have := (h.mem_stored hrow hown hstored).2.1
        simp [hp] at this
    | inr hfits => exact hfits
  · intro hcovered event he hafter hle
    have hne : (s.page id after limit).1 ≠ [] := by
      intro hnil
      rw [hnil, nextCursor_nil] at hle
      omega
    obtain ⟨last, hlast, hkey⟩ := nextCursor_mem TerminalEvent.sequence after hne
    rw [← hkey] at hle
    cases hp : event.persisted with
    | true =>
        apply (h.mem_page hrow hown).mpr
        obtain ⟨rest, hrows, hflag⟩ := s.storage.events_split .commandId id after limit
        have hmem : event ∈ s.storage.eventRows .commandId id after := by
          rw [h.eventRows hrow hown]
          simp [he, hp, hafter]
        have hasc : Ascending TerminalEvent.sequence
            (s.storage.eventRows .commandId id after) := by
          rw [h.eventRows hrow hown]
          exact (h.ascending_commandEvents id).filter _ _
        rw [hrows] at hmem hasc
        cases List.mem_append.mp hmem with
        | inl hstored => exact .inl hstored
        | inr hrest =>
            -- a row beyond a cut database page is later than everything on the page
            rcases (h.mem_page hrow hown).mp hlast with hstored | ⟨hwhole, -⟩
            · have := ((ascending_append _).mp hasc).2.2 last hstored event hrest
              omega
            · rw [hflag.mp hwhole] at hrest
              contradiction
    | false =>
        have hlive := h.liveBeyond_of hevicted he hp hafter
        apply (h.mem_page hrow hown).mpr
        rcases (h.mem_page hrow hown).mp hlast with hstored | ⟨hmore, hfits⟩
        · have hlt : event.sequence < last.sequence := by
            obtain ⟨hlast', hlastp, -⟩ := h.mem_stored hrow hown hstored
            refine Nat.lt_of_le_of_ne hle fun heq => ?_
            have := (h.ascending_commandEvents id).key_inj _ he hlast' heq
            simp [this, hlastp] at hp
          exact .inr (hcovered event hlive last hstored hlt)
        · exact .inr ⟨hmore, hfits.of_le (h.ascending_liveBeyond id after) hlive hle⟩

end Page

/-! The client. -/

structure Client where
  reader : Reader TerminalEvent
  complete : Bool

def Client.start : Client := ⟨.start, false⟩

/-- One poll: the client asks with its cursor, takes the events and moves on to
the cursor of the response. -/
def poll (id : String) (s : Session) (client : Client) (request : Nat × Now) : Option Client :=
  if client.complete then
    none
  else
    match commandPoll s.storage [s.runtime] id client.reader.cursor request.1 request.2 with
    | .error _ => none
    | .ok response => some
        ⟨⟨response.nextSequence, client.reader.received ++ response.events⟩,
          response.deliveryComplete⟩

/-- The session and the client, in any interleaving of calls and polls. -/
def drain (id : String) : Machine (Session × Client) (SessionCall ⊕ (Nat × Now)) :=
  machine.observed (poll id)

theorem poll_finished {s : Session} {id : String} (hf : Finished s id) {client : Client}
    (hopen : client.complete = false) (request : Nat × Now) :
    poll id s client request =
      some ⟨client.reader.take TerminalEvent.sequence
          (s.page id client.reader.cursor (readLimit request.1)).1,
        !(s.page id client.reader.cursor (readLimit request.1)).2⟩ := by
  obtain ⟨row, hrow, hown, hstatus⟩ := hf
  have hload : loadCommand s.storage id = .ok row := loadCommand_ok.mpr hrow
  have hread (after limit : Nat) : readCommandPage s.storage [s.runtime] id after limit =
      .ok ⟨row, (s.page id after limit).1, (s.page id after limit).2, some s.runtime⟩ := by
    rw [readCommandPage]
    simp only [hload, Bind.bind, Except.bind, readLivePage_own hown]
    rfl
  have hdone (more : Bool) : (row.status != .running && !more) = !more := by simp [hstatus]
  simp only [poll, hopen, commandPoll, hread, Bind.bind, Except.bind]
  simp only [Pure.pure, Except.pure, respondPoll, finishPoll, eventsResponse, Option.any_some,
    hdone]
  rfl

/-- The condition on one move of a drain: a poll is covered. -/
def Covers (id : String) : Session × Client → SessionCall ⊕ (Nat × Now) → Prop
  | _, .inl _ => True
  | (s, client), .inr request => s.Covered id client.reader.cursor (readLimit request.1)

def polls (moves : List (SessionCall ⊕ (Nat × Now))) : Nat := moves.countP Sum.isRight

/-- What holds while the client drains the `events` of a finished command. -/
structure Draining (events : List TerminalEvent) (id : String) (s : Session) (client : Client) :
    Prop where
  books : Books s
  finished : Finished s id
  commandEvents : s.commandEvents id = events
  inOrder : client.reader.InOrder TerminalEvent.sequence (· ∈ events)
  past : client.complete = true → ∀ event ∈ events, event.sequence ≤ client.reader.cursor

section Drain

variable {events : List TerminalEvent} {id : String} {s s' : Session} {client client' : Client}

theorem Draining.call (h : Draining events id s client) {call : SessionCall}
    (hstep : s.step call = some s') : Draining events id s' client := by
  obtain ⟨hfinished, hevents⟩ := h.finished.step h.books hstep
  exact ⟨h.books.step hstep, hfinished, hevents.trans h.commandEvents, h.inOrder, h.past⟩

theorem Draining.open_of_poll {request : Nat × Now}
    (hpoll : poll id s client request = some client') :
    client.complete = false := by
  cases hopen : client.complete with
  | false => rfl
  | true => simp [poll, hopen] at hpoll

theorem Draining.poll (h : Draining events id s client) (hevicted : s.evicted = [])
    {request : Nat × Now} (hpoll : poll id s client request = some client') :
    Draining events id s client' ∧
    (client'.reader.Complete TerminalEvent.sequence (· ∈ events) ↔
      client.reader.Complete TerminalEvent.sequence (· ∈ events) ∧
        Covers id (s, client) (.inr request)) ∧
    client.reader.received.length + 1 ≤
      client'.reader.received.length + client'.complete.toNat := by
  rw [poll_finished h.finished (Draining.open_of_poll hpoll)] at hpoll
  cases hpoll
  obtain ⟨row, hrow, hown, -⟩ := h.finished
  have hsound := h.books.sound_page hrow hown client.reader.cursor (readLimit request.1)
  have hgapless := h.books.gapless_page hrow hown hevicted client.reader.cursor
    (readLimit request.1)
  rw [h.commandEvents] at hsound hgapless
  refine ⟨⟨h.books, h.finished, h.commandEvents, h.inOrder.take _ hsound, ?_⟩, ?_, ?_⟩
  · intro hcomplete event he
    by_cases hbeyond : client.reader.cursor < event.sequence
    · have hshown := h.books.page_whole hrow hown hevicted (by simpa using hcomplete)
        (h.commandEvents ▸ he) hbeyond
      exact le_nextCursor _ hsound.ascending hshown
    · exact Nat.le_trans (Nat.le_of_not_lt hbeyond) (hsound.cursor_le _)
  · rw [Reader.complete_take_iff _ h.inOrder hsound, hgapless]
    rfl
  · cases hmore : (s.page id client.reader.cursor (readLimit request.1)).2 with
    | false => simp [Reader.take]
    | true =>
        have hne : (s.page id client.reader.cursor (readLimit request.1)).1 ≠ [] :=
          appendLive_more_ne_nil Storage.events_more_ne_nil hmore
        have := List.length_pos_of_ne_nil hne
        simp only [Reader.take, List.length_append, Bool.not_true, Bool.toNat_false]
        omega

theorem evicted_back (p : Session × Client) (move : SessionCall ⊕ (Nat × Now))
    (q : Session × Client) (hstep : (drain id).step p move = some q) (hq : q.1.evicted = []) :
    p.1.evicted = [] := by
  obtain ⟨s, client⟩ := p
  cases move with
  | inl call =>
      obtain ⟨m, hcall, rfl⟩ := (machine.observed_inl (Session.poll id)).mp hstep
      by_contra hne
      exact evicted_step hcall hne hq
  | inr request =>
      obtain ⟨c, -, rfl⟩ := (machine.observed_inr (Session.poll id)).mp hstep
      exact hq

theorem Draining.step {p q : Session × Client} (h : Draining events id p.1 p.2)
    {move : SessionCall ⊕ (Nat × Now)} (hevicted : q.1.evicted = [])
    (hstep : (drain id).step p move = some q) :
    Draining events id q.1 q.2 ∧
    (q.2.reader.Complete TerminalEvent.sequence (· ∈ events) ↔
      p.2.reader.Complete TerminalEvent.sequence (· ∈ events) ∧ Covers id p move) ∧
    p.2.reader.received.length + p.2.complete.toNat + polls [move] ≤
      q.2.reader.received.length + q.2.complete.toNat := by
  obtain ⟨s, client⟩ := p
  have hkept := evicted_back _ _ _ hstep hevicted
  cases move with
  | inl call =>
      obtain ⟨m, hcall, rfl⟩ := (machine.observed_inl (Session.poll id)).mp hstep
      exact ⟨h.call hcall, by simp [Covers], by simp [polls]⟩
  | inr request =>
      obtain ⟨c, hpoll, rfl⟩ := (machine.observed_inr (Session.poll id)).mp hstep
      obtain ⟨hnext, hcomplete, hbrings⟩ := h.poll hkept hpoll
      refine ⟨hnext, hcomplete, ?_⟩
      simpa [Draining.open_of_poll hpoll, polls] using hbrings

/-- A drain misses nothing exactly when every poll is covered. -/
theorem Draining.run (h : Draining events id s client)
    {moves : List (SessionCall ⊕ (Nat × Now))}
    (hrun : (drain id).run (s, client) moves = some (s', client')) (hevicted : s'.evicted = []) :
    Draining events id s' client' ∧
    (client'.reader.Complete TerminalEvent.sequence (· ∈ events) ↔
      client.reader.Complete TerminalEvent.sequence (· ∈ events) ∧
        (drain id).Meets (Covers id) (s, client) moves) :=
  (drain id).meets_iff (I := fun p => Draining events id p.1 p.2)
    (P := fun p => p.2.reader.Complete TerminalEvent.sequence (· ∈ events)) evicted_back
    (fun _ _ _ h hevicted hstep => ⟨(h.step hevicted hstep).1, (h.step hevicted hstep).2.1⟩)
    h hrun hevicted

/-- Every poll but the last brings something. -/
theorem Draining.polls_le (h : Draining events id s client)
    {moves : List (SessionCall ⊕ (Nat × Now))}
    (hrun : (drain id).run (s, client) moves = some (s', client')) (hevicted : s'.evicted = []) :
    client.reader.received.length + client.complete.toNat + polls moves ≤
      client'.reader.received.length + client'.complete.toNat := by
  induction moves generalizing s client with
  | nil =>
      cases hrun
      simp [polls]
  | cons move moves ih =>
      obtain ⟨q, hstep, hrest⟩ := (drain id).run_cons_some.mp hrun
      have hkept := (drain id).back evicted_back hrest hevicted
      obtain ⟨hnext, -, hone⟩ := Draining.step h hkept hstep
      have hmany := ih hnext hrest
      have hcount : polls (move :: moves) = polls [move] + polls moves := by
        simp only [polls, List.countP_cons, List.countP_nil]
        omega
      dsimp only at hone
      omega

end Drain

/-- A drain ends: a poll is always answered, all but the last bring an event. It
then holds every event of the command once and in order exactly when each of its
polls was covered. -/
theorem drain_exact_iff_covered {db : Database} {limit : Nat}
    {sessionId targetId targetName purpose clientName : String} {now : Now}
    {calls : List SessionCall} {s s' : Session} {id : String} {row : CommandInfo}
    {moves : List (SessionCall ⊕ (Nat × Now))} {client : Client}
    (hschema : db.Schema) (hnew : db.session sessionId = none)
    (hcalls : machine.run (created ⟨db, limit⟩
      (.created sessionId targetId targetName purpose clientName now) now) calls = some s)
    (hrow : s.storage.command id = some row) (hown : row.sessionId = s.runtime.sessionId)
    (hterminal : row.status ≠ .running)
    (hdrain : (drain id).run (s, .start) moves = some (s', client))
    (hdropped : s'.runtime.liveTailDropped = false) :
    (client.complete = false → ∀ request, (poll id s' client request).isSome) ∧
    polls moves ≤ (s'.commandEvents id).length + 1 ∧
    (client.complete = true →
      (client.reader.received = s'.commandEvents id ↔
        (drain id).Meets (Covers id) (s, .start) moves)) := by
  have hbooks := books_run hschema hnew hcalls
  have hstart : Draining (s.commandEvents id) id s .start :=
    ⟨hbooks, ⟨row, hrow, hown, hterminal⟩, rfl, Reader.inOrder_start _ _, by simp [Client.start]⟩
  have hbooks' : Books s' :=
    machine.observed_invariant (poll id) (I := fun s _ => Books s)
      (fun _ _ _ _ hI hs => hI.step hs) (fun _ _ _ _ hI _ => hI) (p := (s, .start)) hbooks hdrain
  have hevicted : s'.evicted = [] := by
    by_contra hne
    simp [hbooks'.dropped.mpr hne] at hdropped
  obtain ⟨hend, hcomplete⟩ := hstart.run hdrain hevicted
  have hpolls := hstart.polls_le hdrain hevicted
  rw [hend.commandEvents]
  refine ⟨?_, ?_, ?_⟩
  · intro hopen request
    rw [poll_finished hend.finished hopen]
    rfl
  · have hlength := hend.inOrder.length_le
    have hone := Bool.toNat_le client.complete
    simp only [Client.start, Reader.start, List.length_nil, Bool.toNat_false] at hpolls
    omega
  · intro hdone
    have hnothing : Client.start.reader.Complete TerminalEvent.sequence
        (· ∈ s.commandEvents id) := by
      intro event he hle
      have hpos := hbooks.sequence_pos (mem_commandEvents.mp he).1
      simp only [Client.start, Reader.start] at hle
      omega
    rw [Reader.received_eq _ hend.inOrder (hbooks.ascending_commandEvents id) (hend.past hdone),
      hcomplete]
    exact and_iff_right hnothing

/-- A poll is covered wherever every stored event of the command is older than
every rejected one. -/
theorem Books.covered_of_stored_first {s : Session} (h : Books s) {id : String}
    {row : CommandInfo} (hrow : s.storage.db.command id = some row)
    (hown : row.sessionId = s.runtime.sessionId)
    (hfirst : ∀ a ∈ s.commandEvents id, ∀ b ∈ s.commandEvents id,
      a.persisted = true → b.persisted = false → a.sequence < b.sequence)
    (after limit : Nat) : s.Covered id after limit := by
  intro live hlive event hevent hlt
  obtain ⟨hl, hlp, -⟩ := h.mem_liveBeyond hlive
  obtain ⟨he, hep, -⟩ := h.mem_stored hrow hown hevent
  have := hfirst event he live hl hep hlp
  omega

/-- One event is stored, one rejected, and polls for a single byte show both. -/
def rejectedLast : List SessionCall :=
  let now : Now := ⟨0, 0⟩
  [.startExec "c" "ls" false now, .record (some "c") .stdout [1, 2, 3] now,
    .record (some "c") .stderr [4, 5] now, .finishExec "c" .completed (some 0) now]

theorem drain_exact_iff_covered_rejectedLast :
    ∃ s s' client, machine.run
        (created ⟨.empty, 4⟩ (.created "s" "t" "t" "p" "m" ⟨0, 0⟩) ⟨0, 0⟩) rejectedLast = some s ∧
      (drain "c").run (s, .start) [.inr (1, ⟨0, 0⟩), .inr (1, ⟨0, 0⟩)] = some (s', client) ∧
      client.complete = true ∧
      (client.reader.received = s'.commandEvents "c" ↔
        (drain "c").Meets (Covers "c") (s, .start) [.inr (1, ⟨0, 0⟩), .inr (1, ⟨0, 0⟩)]) := by
  have hall : ((machine.run
      (created ⟨.empty, 4⟩ (.created "s" "t" "t" "p" "m" ⟨0, 0⟩) ⟨0, 0⟩) rejectedLast).any fun s =>
      ((s.storage.command "c").any fun row =>
        row.sessionId == s.runtime.sessionId && row.status != .running) &&
      ((drain "c").run (s, .start) [.inr (1, ⟨0, 0⟩), .inr (1, ⟨0, 0⟩)]).any fun q =>
        q.2.complete && !q.1.runtime.liveTailDropped) = true := by decide
  obtain ⟨s, hs, hall⟩ := (Option.any_eq_true _ _).mp hall
  simp only [Bool.and_eq_true, Option.any_eq_true] at hall
  obtain ⟨⟨row, hrow, hown, hterminal⟩, ⟨s', client⟩, hdrain, hcomplete, hdropped⟩ := hall
  exact ⟨s, s', client, hs, hdrain, hcomplete,
    (drain_exact_iff_covered Database.schema_empty rfl hs hrow (by simpa using hown)
      (by simpa using hterminal) hdrain (by simpa using hdropped)).2.2 hcomplete⟩

/-- Two bytes are rejected with one byte of the limit left; the next byte is
stored and overtakes them. -/
def overtaken (payload : Bytes) : List SessionCall :=
  let now : Now := ⟨0, 0⟩
  [.startExec "c" "ls" false now, .record (some "c") .stdout payload now,
    .record (some "c") .stdout [1, 2] now, .record (some "c") .stdout [3] now,
    .finishExec "c" .completed (some 0) now]

theorem overtaken_drain {payload : Bytes} (hpayload : payload.length = 1024 * 1024 - 1) :
    ((machine.run (created (.openWith .empty 1) (.created "s" "t" "t" "p" "m" ⟨0, 0⟩) ⟨0, 0⟩)
        (overtaken payload)).bind fun s =>
      (drain "c").run (s, .start) [.inr (1024 * 1024, ⟨0, 0⟩), .inr (1024 * 1024, ⟨0, 0⟩)]).map
        (fun q => (q.2.complete, q.1.runtime.liveTailDropped,
          q.2.reader.received.map TerminalEvent.sequence,
          (q.1.commandEvents "c").map TerminalEvent.sequence)) =
      some (true, false, [1, 3], [1, 2, 3]) := by
  simp [overtaken, machine, Machine.run, step, stepStartExec, stepRecord, stepFinishExec,
    Storage.insertCommand, created, Storage.openWith, Database.command, Storage.upsertSession,
    Database.session, Database.empty, SessionInfo.created, SessionRuntime.new,
    CommandInfo.started, setInfo, Session.task, AiSsh.record, Storage.appendEvent, saturatingAdd,
    hpayload, SessionInfo.execStarted, Database.updateSession, SessionRow.upsert,
    SessionRuntime.nextEvent, Database.insertEvent, Storage.countEvent, Storage.countCommand,
    Database.updateCommand, SessionRow.count, CommandInfo.count, SessionRuntime.drawSequence,
    SessionRuntime.announce, Storage.rejectEvent, SessionRow.truncate, CommandInfo.truncate,
    SessionRuntime.keepLive, SessionRuntime.overflow, popOverflow, payloadBytes, payloadLength,
    liveTailBytes, CommandInfo.finished, Storage.command, Storage.updateCommand,
    CommandInfo.update, SessionInfo.execFinished, drain, Machine.observed, Session.poll,
    Client.start, Reader.start, commandPoll, readCommandPage, readLivePage, loadCommand, Bind.bind,
    Except.bind, Pure.pure, Except.pure, findRuntime, Storage.eventsForCommand, Storage.events,
    Storage.eventRows, sortByKey, EventColumn.selects, Storage.eventsLoop, Storage.pageEvents,
    readLimit, maxReadBytes, appendLive, liveSelects, appendLiveLoop, respondPoll, finishPoll,
    eventsResponse, commandEvents]

theorem drain_loses_overtaken_event :
    ∃ calls s moves s' client,
      machine.run (created (.openWith .empty 1) (.created "s" "t" "t" "p" "m" ⟨0, 0⟩) ⟨0, 0⟩)
        calls = some s ∧
      (drain "c").run (s, .start) moves = some (s', client) ∧ client.complete = true ∧
      s'.runtime.liveTailDropped = false ∧ client.reader.received ≠ s'.commandEvents "c" := by
  have hdrain := overtaken_drain (List.length_replicate (n := 1024 * 1024 - 1) (a := (0 : UInt8)))
  obtain ⟨⟨s', client⟩, hrun, heq⟩ := Option.map_eq_some_iff.mp hdrain
  obtain ⟨s, hs, hrun⟩ := Option.bind_eq_some_iff.mp hrun
  simp only [Prod.mk.injEq] at heq
  refine ⟨_, s, _, s', client, hs, hrun, heq.1, heq.2.1, ?_⟩
  intro hreceived
  have := heq.2.2.1
  rw [hreceived, heq.2.2.2] at this
  cases this

end Session
end AiSsh
