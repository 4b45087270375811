import AiSsh.IdleReaper

/-!
`reap_idle` over the sessions of the daemon. A run of it deletes what has expired, visits the
sessions that were in the map, one after the other and in any order, and closes those it
finds idle. It does not ask for a session's status. A session that has ended stays in the map
and is idle from then on.
-/

namespace AiSsh

open Library

def SessionStatus.hasEnded : SessionStatus → Bool
  | .closed | .failed => true
  | _ => false

/-- What the end of a session has left in its record. -/
def SessionInfo.ending (info : SessionInfo) : SessionStatus × Option DateTime :=
  (info.status, info.closedAt)

def Cancellable.info (s : Cancellable) : SessionInfo := s.session.shared.runtime.info

/-- The operations that `close` consists of. -/
def Op.isClose : Op → Bool
  | .closeForeground | .closeWriter | .closeBackground | .closeConnection | .closeDisconnect _
  | .closeInfo | .returned _ => true
  | _ => false

def DaemonStep.isCleanup : DaemonStep → Bool
  | .cleanup _ _ => true
  | _ => false

/-- The daemon with its reaper, which is at `session` and has still to visit `left`. -/
structure Reaping where
  daemon : Daemon
  reaper : Reaper
  session : Nat
  left : List Nat

inductive ReapingStep
  | daemon (move : DaemonStep)
  | reapIdle (idleTimeoutSeconds retentionDays : Nat) (now : Now)
  | readActivity (session : Nat) (now : Now)
  | lookForeground
  | lookBackground
  | reaped
  | finished

namespace Reaping

/-- Before the first start over a database. -/
def initial (db : Database) : Reaping := ⟨.initial db, .waiting, 0, []⟩

def current (s : Reaping) : Option Cancellable := s.daemon.sessions[s.session]?

/-- While the daemon serves, `cleanup` is called by the reaper alone. A crash ends both. -/
def stepDaemon (s : Reaping) (move : DaemonStep) : Option Reaping :=
  if s.daemon.stage = .serving ∧ move.isCleanup = true then none
  else
    (s.daemon.step move).map fun d =>
      if d.stage = .serving then { s with daemon := d } else ⟨d, .waiting, 0, []⟩

def step (s : Reaping) : ReapingStep → Option Reaping
  | .daemon move => s.stepDaemon move
  | .reapIdle idleTimeoutSeconds retentionDays now =>
      if s.daemon.stage = .serving ∧ s.reaper = .waiting then
        (s.daemon.step (.cleanup retentionDays now.utc)).map fun d =>
          { s with
            daemon := d
            reaper := .visiting (idleTimeoutSeconds * 1000000000)
            left := List.range d.sessions.length }
      else none
  | .readActivity k now =>
      match s.reaper, s.daemon.sessions[k]? with
      | .visiting idleTimeout, some visited =>
          if k ∈ s.left then
            some { s with
              reaper :=
                if idleTimeout ≤ now.instant - visited.session.shared.runtime.lastActivity then
                  .slot idleTimeout now.instant
                else .visiting idleTimeout
              session := k
              left := s.left.erase k }
          else none
      | _, _ => none
  | .lookForeground =>
      match s.reaper, s.current with
      | .slot idleTimeout readAt, some visited =>
          if visited.session.foregroundFree then
            some { s with
              reaper :=
                if visited.session.shared.runtime.foreground.isNone then
                  .background idleTimeout readAt
                else .visiting idleTimeout }
          else none
      | _, _ => none
  | .lookBackground =>
      match s.reaper, s.current with
      | .background idleTimeout _, some visited =>
          if visited.session.shared.runtime.background.isEmpty then
            (s.daemon.step (.session s.session (.session (.call .close)))).map fun d =>
              { s with daemon := d, reaper := .closing idleTimeout visited.session.ops.length }
          else some { s with reaper := .visiting idleTimeout }
      | _, _ => none
  | .reaped =>
      match s.reaper, s.current with
      | .closing idleTimeout op, some visited =>
          match visited.session.ops[op]? with
          | some (.returned _) => some { s with reaper := .visiting idleTimeout }
          | _ => none
      | _, _ => none
  | .finished =>
      match s.reaper with
      | .visiting _ => if s.left = [] then some { s with reaper := .waiting } else none
      | _ => none

def machine : Machine Reaping ReapingStep := ⟨step⟩

/-- The steps of `reap_idle`, those of the `close` it has called included. -/
def Reaps (s : Reaping) : ReapingStep → Prop
  | .daemon (.session k (.session (.advance i _ _))) =>
      k = s.session ∧ (s.reaper.closes i).isSome = true
  | .daemon _ => False
  | _ => True

/-- The write that ends a close of the reaper finds the session's record open and its row
still stored. -/
def ClosesOpen (s : Reaping) : ReapingStep → Prop
  | .daemon (.session k (.session (.advance i answer _))) =>
      k = s.session → (s.reaper.closes i).isSome = true →
        ∀ visited ∈ s.current, visited.session.ops[i]? = some .closeInfo →
          visited.info.status.hasEnded = false ∧
            (answer = .ok → (s.daemon.storage.db.session visited.info.id).isSome = true)
  | _ => True

instance (s : Reaping) : DecidablePred s.Reaps
  | .daemon (.session k (.session (.advance i _ _))) =>
      inferInstanceAs (Decidable (k = s.session ∧ (s.reaper.closes i).isSome = true))
  | .daemon (.session _ (.session (.call _))) | .daemon (.session _ (.session (.die _)))
  | .daemon (.session _ (.cancel _)) | .daemon (.session _ (.look _)) | .daemon (.start _)
  | .daemon (.interruptUnfinished _) | .daemon (.cleanup _ _) | .daemon .crash
  | .daemon (.create _ _ _) | .daemon (.finaliseUnstored _ _ _ _) | .daemon (.record _ _ _ _ _) =>
      isFalse id
  | .reapIdle _ _ _ | .readActivity _ _ | .lookForeground | .lookBackground | .reaped
  | .finished => isTrue trivial

instance (s : Reaping) : DecidablePred s.ClosesOpen
  | .daemon (.session k (.session (.advance i answer _))) =>
      inferInstanceAs (Decidable (k = s.session → (s.reaper.closes i).isSome = true →
        ∀ visited ∈ s.current, visited.session.ops[i]? = some .closeInfo →
          visited.info.status.hasEnded = false ∧
            (answer = .ok → (s.daemon.storage.db.session visited.info.id).isSome = true)))
  | .daemon (.session _ (.session (.call _))) | .daemon (.session _ (.session (.die _)))
  | .daemon (.session _ (.cancel _)) | .daemon (.session _ (.look _)) | .daemon (.start _)
  | .daemon (.interruptUnfinished _) | .daemon (.cleanup _ _) | .daemon .crash
  | .daemon (.create _ _ _) | .daemon (.finaliseUnstored _ _ _ _) | .daemon (.record _ _ _ _ _)
  | .reapIdle _ _ _ | .readActivity _ _ | .lookForeground | .lookBackground | .reaped
  | .finished => isTrue trivial

end Reaping

/-- A session that has ended keeps its record, in memory and in the store, where its row may
be deleted but no row comes back. -/
structure Daemon.Spared (d d' : Daemon) : Prop where
  memory : ∀ (k : Nat) (s : Cancellable), d.sessions[k]? = some s →
    ∃ s' : Cancellable, d'.sessions[k]? = some s' ∧ s'.info.id = s.info.id ∧
      (s.info.status.hasEnded = true → s'.info.ending = s.info.ending)
  created : d'.sessions.length = d.sessions.length
  stored : ∀ row' ∈ d'.storage.db.sessions, ∃ row ∈ d.storage.db.sessions,
    row.info.id = row'.info.id ∧
      ((∀ s ∈ d.sessions, s.info.id = row.info.id → s.info.status.hasEnded = true) →
        row'.info.ending = row.info.ending)

namespace Reaping

/-- A step of `reap_idle` spares what has ended, and deletes rows by `cleanup` only. -/
def Spares (s : Reaping) (move : ReapingStep) : Prop :=
  s.Reaps move → ∀ t, s.step move = some t → s.daemon.Spared t.daemon ∧
    ∀ row ∈ s.daemon.storage.db.sessions,
      (∀ row' ∈ t.daemon.storage.db.sessions, row'.info.id ≠ row.info.id) →
        ∃ idleTimeoutSeconds retentionDays now,
          move = .reapIdle idleTimeoutSeconds retentionDays now ∧
            row.expired (now.utc - retentionDays * Storage.day) = true

end Reaping

namespace Daemon.Spared

variable {d d' d'' : Daemon}

theorem of_same (hsessions : d'.sessions = d.sessions)
    (hrows : ∀ row ∈ d'.storage.db.sessions, row ∈ d.storage.db.sessions) : d.Spared d' where
  memory := fun _ s hs => ⟨s, hsessions ▸ hs, rfl, fun _ => rfl⟩
  created := congrArg List.length hsessions
  stored := fun row hrow => ⟨row, hrows row hrow, rfl, fun _ => rfl⟩

theorem trans (h : d.Spared d') (h' : d'.Spared d'') : d.Spared d'' where
  memory := by
    intro k s hs
    obtain ⟨s', hs', hid, hkept⟩ := h.memory k s hs
    obtain ⟨s'', hs'', hid', hkept'⟩ := h'.memory k s' hs'
    refine ⟨s'', hs'', hid'.trans hid, fun hended => ?_⟩
    have hsame := hkept hended
    have hstatus : s'.info.status = s.info.status := congrArg Prod.fst hsame
    exact (hkept' (hstatus ▸ hended)).trans hsame
  created := h'.created.trans h.created
  stored := by
    intro row'' hrow''
    obtain ⟨row', hrow', hid', hkept'⟩ := h'.stored row'' hrow''
    obtain ⟨row, hrow, hid, hkept⟩ := h.stored row' hrow'
    refine ⟨row, hrow, hid.trans hid', fun hended => ?_⟩
    refine (hkept' fun s' hs' hsame => ?_).trans (hkept hended)
    obtain ⟨k, hk⟩ := List.mem_iff_getElem?.mp hs'
    have hlt : k < d.sessions.length := by
      rw [← h.created]
      exact (List.getElem?_eq_some_iff.mp hk).1
    obtain ⟨s'', hk'', hid'', hending⟩ := h.memory k d.sessions[k] (List.getElem?_eq_getElem hlt)
    cases hk.symm.trans hk''
    have hold := hended d.sessions[k] (List.getElem_mem hlt)
      (hid''.symm.trans (hsame.trans hid.symm))
    have hstatus : s'.info.status = d.sessions[k].info.status :=
      congrArg Prod.fst (hending hold)
    exact hstatus ▸ hold

end Daemon.Spared

namespace Op

variable {s s' : Shared} {foregroundFree connectionFree : Bool} {answer : Answer} {now : Now}
  {op op' : Op}

theorem Moves.isClose (h : op.Moves s foregroundFree now answer s' op')
    (hclose : op.isClose = true) : op'.isClose = true := by
  cases h with
  | foregroundEmpty | execCancelled | ptyTaken | writerClosed | backgroundCancelled
  | connectionTaken | notConnected | disconnected | closed => rfl
  | _ => cases hclose

theorem Moves.close_quiet (h : op.Moves s foregroundFree now answer s' op')
    (hclose : op.isClose = true) (hinfo : op ≠ .closeInfo) :
    s'.runtime.info = s.runtime.info ∧ s'.storage = s.storage := by
  cases h with
  | foregroundEmpty | execCancelled | ptyTaken | writerClosed | backgroundCancelled
  | connectionTaken | notConnected | disconnected => exact ⟨rfl, rfl⟩
  | closed => exact absurd rfl hinfo
  | _ => cases hclose

/-- The last step of a close writes the record and, when the store answers, its row. -/
theorem closeInfo_step
    (h : closeInfo.step s foregroundFree connectionFree answer now = some (s', op')) :
    ∃ stored, (stored = true → answer = .ok) ∧
      s' = s.writeInfo (s.runtime.info.closed now) stored := by
  simp only [step, stepClose, Option.map_eq_some_iff] at h
  obtain ⟨result, hresult, h⟩ := h
  cases h
  refine ⟨result.toBool, fun hstored => ?_, rfl⟩
  cases answer with
  | ok => rfl
  | failed error =>
      cases hresult
      cases hstored
  | connected _ | opened _ | ended _ _ => cases hresult

end Op

theorem Storage.upsertSession_stored {s : Storage} {info : SessionInfo}
    (hrow : (s.db.session info.id).isSome = true) {row' : SessionRow}
    (h : row' ∈ (s.upsertSession info).db.sessions) :
    ∃ row ∈ s.db.sessions, row.info.id = row'.info.id ∧ (row' = row ∨ row.info.id = info.id) := by
  rw [upsertSession, if_pos hrow] at h
  obtain ⟨row, hmem, rfl⟩ := List.mem_map.mp h
  refine ⟨row, hmem, ?_⟩
  split
  · rename_i hid
    exact ⟨rfl, .inr hid⟩
  · exact ⟨rfl, .inl rfl⟩

theorem Storage.upsertSession_keeps (s : Storage) (info : SessionInfo) {row : SessionRow}
    (h : row ∈ s.db.sessions) :
    ∃ row' ∈ (s.upsertSession info).db.sessions, row'.info.id = row.info.id := by
  rw [upsertSession]
  split
  · refine ⟨_, List.mem_map_of_mem h, ?_⟩
    split
    · rfl
    · rfl
  · exact ⟨row, List.mem_append_left _ h, rfl⟩

namespace Daemon

variable {d d' : Daemon}

/-- The step of one operation, with the operation's own step. -/
theorem session_advance {k i : Nat} {answer : Answer} {now : Now}
    (h : d.step (.session k (.session (.advance i answer now))) = some d') :
    ∃ s s' op op', d.sessions[k]? = some s ∧ s.session.ops[i]? = some op ∧
      d'.sessions = d.sessions.set k s' ∧ d'.storage = s'.session.shared.storage ∧
      op.step { s.session.shared with storage := d.storage, used := d.used }
        s.session.foregroundFree s.session.connectionFree answer now =
          some (s'.session.shared, op') := by
  simp only [step] at h
  split at h
  · rename_i s hs
    obtain ⟨s', hstep, rfl⟩ := Option.map_eq_some_iff.mp h
    obtain ⟨session, hsession, rfl⟩ := Option.map_eq_some_iff.mp hstep
    obtain ⟨op, op', others, hop, -, -, hown⟩ := Lifecycle.step_own hsession
    exact ⟨s, _, op, op', hs, hop, rfl, rfl, hown⟩
  · cases h

/-- A session moves on, and what it writes is spared in all others. -/
theorem spared_of_set {k : Nat} {s s' : Cancellable} (hs : d.sessions[k]? = some s)
    (hsessions : d'.sessions = d.sessions.set k s') (hid : s'.info.id = s.info.id)
    (hopen : s.info.status.hasEnded = true → s'.info.ending = s.info.ending)
    (hrows : ∀ row' ∈ d'.storage.db.sessions, ∃ row ∈ d.storage.db.sessions,
      row.info.id = row'.info.id ∧
        (row' = row ∨ row.info.id = s.info.id ∧ s.info.status.hasEnded = false)) :
    d.Spared d' where
  memory := by
    intro j other hother
    by_cases hjk : k = j
    · subst hjk
      cases hs.symm.trans hother
      refine ⟨s', ?_, hid, hopen⟩
      rw [hsessions, List.getElem?_set_self (List.getElem?_eq_some_iff.mp hs).1]
    · refine ⟨other, ?_, rfl, fun _ => rfl⟩
      rw [hsessions, List.getElem?_set_ne hjk, hother]
  created := by rw [hsessions, List.length_set]
  stored := by
    intro row' hrow'
    obtain ⟨row, hrow, hsame, hwritten⟩ := hrows row' hrow'
    refine ⟨row, hrow, hsame, fun hended => ?_⟩
    cases hwritten with
    | inl hkept => rw [hkept]
    | inr hwritten =>
        have hover := hended s (List.mem_of_getElem? hs) hwritten.1.symm
        cases hwritten.2.symm.trans hover

/-- A session with a close among its operations, at `i`. -/
def ClosesAt (d : Daemon) (k i : Nat) : Prop :=
  ∃ s ∈ d.sessions[k]?, ∃ op ∈ s.session.ops[i]?, op.isClose = true

theorem ClosesAt.set {j k i : Nat} {s s' : Cancellable} (h : d.ClosesAt k i)
    (hs : d.sessions[j]? = some s) (hsessions : d'.sessions = d.sessions.set j s')
    (hkeeps : ∀ op ∈ s.session.ops[i]?, op.isClose = true →
      ∃ op' ∈ s'.session.ops[i]?, op'.isClose = true) : d'.ClosesAt k i := by
  obtain ⟨other, hother, op, hop, hclose⟩ := h
  rw [ClosesAt]
  rw [hsessions]
  by_cases hjk : j = k
  · subst hjk
    cases hs.symm.trans hother
    refine ⟨s', ?_, hkeeps op hop hclose⟩
    exact List.getElem?_set_self (List.getElem?_eq_some_iff.mp hs).1
  · refine ⟨other, ?_, op, hop, hclose⟩
    rw [List.getElem?_set_ne hjk]
    exact hother

theorem isClose_at {s s' : Lifecycle} {move : LifecycleStep} {i : Nat} {op : Op}
    (hop : s.ops[i]? = some op) (hclose : op.isClose = true) (h : s.step move = some s') :
    ∃ op' ∈ s'.ops[i]?, op'.isClose = true := by
  cases Lifecycle.step_at hop h with
  | inl hkept => exact ⟨op, hkept.2, hclose⟩
  | inr hmoved =>
      obtain ⟨answer, now, op', -, hop', hstep⟩ := hmoved
      exact ⟨op', hop', (Op.moves_of_step hstep).isClose hclose⟩

theorem ClosesAt.step {k i : Nat} {move : DaemonStep} (h : d.ClosesAt k i)
    (hstep : d.step move = some d') (hserving : d'.stage = .serving) : d'.ClosesAt k i := by
  cases move with
  | start _ | interruptUnfinished _ | cleanup _ _ =>
      simp only [Daemon.step] at hstep
      split at hstep
      · cases hstep
        exact h
      · cases hstep
  | crash =>
      cases hstep
      cases hserving
  | create info reconnectAttempts now =>
      simp only [Daemon.step] at hstep
      split at hstep
      · cases hstep
        obtain ⟨s, hs, hop⟩ := h
        exact ⟨s, (List.getElem?_append_left (List.getElem?_eq_some_iff.mp hs).1).trans hs, hop⟩
      · cases hstep
  | session j move =>
      simp only [Daemon.step] at hstep
      split at hstep
      · rename_i s hs
        obtain ⟨s', hmoved, rfl⟩ := Option.map_eq_some_iff.mp hstep
        refine h.set hs rfl fun op hop hclose => ?_
        cases move with
        | session move =>
            obtain ⟨session, hsession, rfl⟩ := Option.map_eq_some_iff.mp hmoved
            exact @isClose_at (d.within s).session _ _ _ _ hop hclose hsession
        | cancel id =>
            cases hmoved
            exact ⟨op, hop, hclose⟩
        | look cancel =>
            rw [(Cancellable.look_keeps hmoved).2]
            exact ⟨op, hop, hclose⟩
      · cases hstep
  | finaliseUnstored j own answer now =>
      simp only [Daemon.step] at hstep
      split at hstep
      · rename_i s hs
        split at hstep
        · obtain ⟨s', hmoved, rfl⟩ := Option.map_eq_some_iff.mp hstep
          obtain ⟨session, hsession, rfl⟩ := Option.map_eq_some_iff.mp hmoved
          exact h.set hs rfl fun op hop hclose =>
            @isClose_at (d.within s).session _ _ _ _ hop hclose hsession
        · cases hstep
      · cases hstep
  | record j commandId stream payload now =>
      simp only [Daemon.step] at hstep
      split at hstep
      · rename_i s hs
        cases hstep
        exact h.set hs rfl fun op hop hclose => ⟨op, hop, hclose⟩
      · cases hstep

end Daemon

namespace Reaping

variable {s t : Reaping} {move : ReapingStep}

/-- The close that the reaper waits for is one. -/
def ClosePending (s : Reaping) : Prop :=
  ∀ idleTimeout op, s.reaper = .closing idleTimeout op → s.daemon.ClosesAt s.session op

/-- The last step of a reaper's close, or one before it. -/
theorem close_spares {i : Nat} {answer : Answer} {now : Now} {d : Daemon}
    (hpending : s.ClosePending) (hcloses : (s.reaper.closes i).isSome = true)
    (hopen : s.ClosesOpen (.daemon (.session s.session (.session (.advance i answer now)))))
    (hstep : s.daemon.step (.session s.session (.session (.advance i answer now))) = some d) :
    s.daemon.Spared d ∧ ∀ row ∈ s.daemon.storage.db.sessions,
      ∃ row' ∈ d.storage.db.sessions, row'.info.id = row.info.id := by
  obtain ⟨visited, visited', op, op', hs, hop, hsessions, hstorage, hown⟩ :=
    Daemon.session_advance hstep
  obtain ⟨idleTimeout, hcloses'⟩ := Option.isSome_iff_exists.mp hcloses
  obtain ⟨visited'', hs', x, hx, hclose⟩ :=
    hpending idleTimeout i (Reaper.closing_of_closes hcloses')
  cases hs.symm.trans hs'
  cases hop.symm.trans hx
  by_cases hinfo : op = .closeInfo
  · subst hinfo
    obtain ⟨hnot, hstored⟩ := hopen rfl hcloses visited hs hop
    obtain ⟨stored, hanswer, hwritten⟩ := Op.closeInfo_step hown
    have hrecord : visited'.info = visited.info.closed now :=
      congrArg (fun shared : Shared => shared.runtime.info) hwritten
    have htables : d.storage =
        if stored then s.daemon.storage.upsertSession (visited.info.closed now)
        else s.daemon.storage := by
      rw [hstorage, hwritten]
      rfl
    refine ⟨Daemon.spared_of_set hs hsessions (by rw [hrecord]; rfl) ?_ ?_, ?_⟩
    · intro hended
      cases hnot.symm.trans hended
    · intro row' hrow'
      rw [htables] at hrow'
      split at hrow'
      · rename_i hok
        have hthere : (s.daemon.storage.db.session (visited.info.closed now).id).isSome = true :=
          hstored (hanswer hok)
        obtain ⟨row, hrow, hsame, hkept⟩ := Storage.upsertSession_stored hthere hrow'
        exact ⟨row, hrow, hsame, hkept.imp_right fun h => ⟨h, hnot⟩⟩
      · exact ⟨row', hrow', rfl, .inl rfl⟩
    · intro row hrow
      rw [htables]
      split
      · exact Storage.upsertSession_keeps _ _ hrow
      · exact ⟨row, hrow, rfl⟩
  · obtain ⟨hrecord, htables⟩ := (Op.moves_of_step hown).close_quiet hclose hinfo
    have hrecord : visited'.info = visited.info := hrecord
    have htables : d.storage = s.daemon.storage := hstorage.trans htables
    refine ⟨Daemon.spared_of_set hs hsessions (by rw [hrecord]) (fun _ => by rw [hrecord]) ?_, ?_⟩
    · intro row' hrow'
      exact ⟨row', htables ▸ hrow', rfl, .inl rfl⟩
    · intro row hrow
      exact ⟨row, htables ▸ hrow, rfl⟩

/-- What the reaper does to the daemon when it looks. -/
inductive Looks (s t : Reaping) : Prop
  | only (daemon : t.daemon = s.daemon) (pending : ∀ idleTimeout op,
      t.reaper ≠ .closing idleTimeout op)
  | calls {visited : Cancellable} {idleTimeout : Nat} (hvisited : s.current = some visited)
      (sessions : t.daemon.sessions = s.daemon.sessions.set s.session
        { s.daemon.within visited with session := { (s.daemon.within visited).session with
          ops := visited.session.ops ++ [.closeForeground] } })
      (storage : t.daemon.storage = s.daemon.storage) (session : t.session = s.session)
      (reaper : t.reaper = .closing idleTimeout visited.session.ops.length)

theorem looks_of_step (hmove : ∀ move', move ≠ .daemon move')
    (hreap : ∀ idleTimeoutSeconds retentionDays now,
      move ≠ .reapIdle idleTimeoutSeconds retentionDays now)
    (h : s.step move = some t) : s.Looks t := by
  cases move with
  | daemon move => exact absurd rfl (hmove move)
  | reapIdle idleTimeoutSeconds retentionDays now => exact absurd rfl (hreap _ _ _)
  | readActivity k now =>
      simp only [step] at h
      split at h
      · split at h
        · cases h
          refine .only rfl fun idleTimeout op => ?_
          dsimp only
          split
          · exact fun h => by cases h
          · exact fun h => by cases h
        · cases h
      · cases h
  | lookForeground =>
      simp only [step] at h
      split at h
      · split at h
        · cases h
          refine .only rfl fun idleTimeout op => ?_
          dsimp only
          split
          · exact fun h => by cases h
          · exact fun h => by cases h
        · cases h
      · cases h
  | lookBackground =>
      simp only [step] at h
      split at h
      · rename_i idleTimeout readAt visited hreaper hvisited
        split at h
        · obtain ⟨d, hd, rfl⟩ := Option.map_eq_some_iff.mp h
          have hvisited' : s.daemon.sessions[s.session]? = some visited := hvisited
          simp only [Daemon.step, hvisited', Option.map_eq_some_iff] at hd
          obtain ⟨visited', hcalled, rfl⟩ := hd
          cases hcalled
          exact .calls hvisited rfl rfl rfl rfl
        · cases h
          exact .only rfl fun _ _ h => by cases h
      · cases h
  | reaped =>
      simp only [step] at h
      split at h
      · split at h
        · cases h
          exact .only rfl fun _ _ h => by cases h
        · cases h
      · cases h
  | finished =>
      simp only [step] at h
      split at h
      · split at h
        · cases h
          exact .only rfl fun _ _ h => by cases h
        · cases h
      · cases h

theorem Looks.spares (h : s.Looks t) : s.daemon.Spared t.daemon ∧
    t.daemon.storage.db.sessions = s.daemon.storage.db.sessions := by
  cases h with
  | only daemon =>
      rw [daemon]
      exact ⟨Daemon.Spared.of_same rfl fun _ h => h, rfl⟩
  | calls hvisited sessions storage =>
      refine ⟨Daemon.spared_of_set hvisited sessions rfl (fun _ => rfl) ?_, by rw [storage]⟩
      intro row hrow
      exact ⟨row, storage ▸ hrow, rfl, .inl rfl⟩

theorem Looks.pending (h : s.Looks t) : t.ClosePending := by
  intro idleTimeout op hclosing
  cases h with
  | only daemon pending => exact absurd hclosing (pending idleTimeout op)
  | calls hvisited sessions storage session reaper =>
      cases reaper.symm.trans hclosing
      rw [Daemon.ClosesAt]
      rw [sessions, session]
      refine ⟨_, List.getElem?_set_self (List.getElem?_eq_some_iff.mp hvisited).1, ?_⟩
      exact ⟨.closeForeground, by simp, rfl⟩

theorem ClosePending.step (h : s.ClosePending) (hstep : s.step move = some t) :
    t.ClosePending := by
  cases move with
  | daemon move =>
      simp only [Reaping.step, stepDaemon] at hstep
      split at hstep
      · cases hstep
      · obtain ⟨d, hd, rfl⟩ := Option.map_eq_some_iff.mp hstep
        split
        · rename_i hserving
          intro idleTimeout op hclosing
          exact (h idleTimeout op hclosing).step hd hserving
        · exact fun _ _ h => by cases h
  | reapIdle idleTimeoutSeconds retentionDays now =>
      simp only [Reaping.step] at hstep
      split at hstep
      · obtain ⟨d, hd, rfl⟩ := Option.map_eq_some_iff.mp hstep
        exact fun _ _ h => by cases h
      · cases hstep
  | readActivity _ _ | lookForeground | lookBackground | reaped | finished =>
      exact (looks_of_step (fun _ h => by cases h) (fun _ _ _ h => by cases h) hstep).pending

theorem act_spares (hpending : s.ClosePending) (hopen : s.ClosesOpen move) : s.Spares move := by
  intro hreaps t hstep
  cases move with
  | daemon move =>
      cases move with
      | session k move =>
          cases move with
          | session move =>
              cases move with
              | advance i answer now =>
                  obtain ⟨rfl, hcloses⟩ := hreaps
                  simp only [step, stepDaemon] at hstep
                  split at hstep
                  · cases hstep
                  · obtain ⟨d, hd, ht⟩ := Option.map_eq_some_iff.mp hstep
                    obtain ⟨hspared, hkept⟩ := close_spares hpending hcloses hopen hd
                    have hdaemon : t.daemon = d := by
                      rw [← ht]
                      split
                      · rfl
                      · rfl
                    rw [hdaemon]
                    refine ⟨hspared, fun row hrow hgone => ?_⟩
                    obtain ⟨row', hrow', hsame⟩ := hkept row hrow
                    exact absurd hsame (hgone row' hrow')
              | call call | die connection => cases hreaps
          | cancel id | look j => cases hreaps
      | _ => cases hreaps
  | reapIdle idleTimeoutSeconds retentionDays now =>
      simp only [step, Daemon.step] at hstep
      split at hstep
      · split at hstep
        · cases hstep
          refine ⟨Daemon.Spared.of_same rfl fun row hrow => List.mem_of_mem_filter hrow, ?_⟩
          intro row hrow hgone
          refine ⟨idleTimeoutSeconds, retentionDays, now, rfl, ?_⟩
          by_contra hkept
          exact hgone row (List.mem_filter.mpr ⟨hrow, by simpa using hkept⟩) rfl
        · cases hstep
      · cases hstep
  | readActivity _ _ | lookForeground | lookBackground | reaped | finished =>
      obtain ⟨hspared, hrows⟩ :=
        (looks_of_step (fun _ h => by cases h) (fun _ _ _ h => by cases h) hstep).spares
      refine ⟨hspared, fun row hrow hgone => ?_⟩
      exact absurd rfl (hgone row (hrows ▸ hrow))

/-- When every close of `reap_idle` ends on an open session whose row is stored, each step of
`reap_idle` spares the sessions that have ended, and so does any number of its runs. -/
theorem reap_idle_spares_ended {db : Database} {before later : List ReapingStep} {s t : Reaping}
    (hbefore : machine.run (initial db) before = some s)
    (hlater : machine.run s later = some t) (hopen : machine.Meets ClosesOpen s later) :
    machine.Meets Spares s later ∧ (machine.Meets Reaps s later → s.daemon.Spared t.daemon) := by
  have hpending : s.ClosePending :=
    machine.invariant (I := ClosePending) (fun _ _ _ h hstep => h.step hstep)
      (fun _ _ h => by cases h) hbefore
  have hspares : machine.Meets Spares s later :=
    machine.meets_of_invariant (I := ClosePending) (fun _ _ _ h _ hstep => h.step hstep)
      (fun _ _ _ h hopen _ => act_spares h hopen) hpending hopen hlater
  refine ⟨hspares, fun hreaps => ?_⟩
  have hboth := machine.meets_and.mpr ⟨hspares, hreaps⟩
  refine machine.invariant_under (I := fun u => s.daemon.Spared u.daemon) ?_
    (Daemon.Spared.of_same rfl fun _ h => h) hboth hlater
  intro u move u' hspared hmove hstep
  exact hspared.trans (hmove.1 hmove.2 u' hstep).1

/-- A daemon over no rows, with one session and its connection. -/
def connectedSteps : List ReapingStep :=
  [.daemon (.start 1), .daemon (.interruptUnfinished 0), .daemon (.cleanup 30 0),
    .daemon (.create (.created "s" "t" "t" "p" "m" ⟨0, 0⟩) 1 ⟨0, 0⟩),
    .daemon (.session 0 (.session (.advance 0 (.connected ⟨"c", "f"⟩) ⟨1, 1⟩))),
    .daemon (.session 0 (.session (.advance 0 .ok ⟨2, 2⟩))),
    .daemon (.session 0 (.session (.advance 0 .ok ⟨3, 3⟩)))]

/-- `count` steps of the operation at `op`. -/
def advances (op count : Nat) (now : Now) : List ReapingStep :=
  List.replicate count (.daemon (.session 0 (.session (.advance op .ok now))))

/-- A visit that finds the session idle since half an hour and closes it, as `op`. -/
def visitSteps (op count : Nat) (now : Now) : List ReapingStep :=
  [.readActivity 0 now, .lookForeground, .lookBackground] ++ advances op count now ++
    [.reaped, .finished]

/-- What the sessions and the rows say of their end. -/
def endings (s : Reaping) : List (SessionStatus × Option DateTime) ×
    List (SessionStatus × Option DateTime) :=
  (s.daemon.sessions.map fun s => s.info.ending,
    s.daemon.storage.db.sessions.map fun row => row.info.ending)

/-- A second session, a quarter of an hour later, which its client closes. -/
def closedSteps : List ReapingStep :=
  let now : Now := ⟨900000000000, 900000000000⟩
  let advance (op : Nat) (answer : Answer) : ReapingStep :=
    .daemon (.session 1 (.session (.advance op answer now)))
  [.daemon (.create (.created "u" "t" "t" "p" "m" now) 1 now),
    advance 0 (.connected ⟨"d", "f"⟩), advance 0 .ok, advance 0 .ok,
    .daemon (.session 1 (.session (.call .close)))] ++ List.replicate 5 (advance 1 .ok)

/-- Half an hour on, an idle session is closed and a closed one keeps its end. -/
theorem reap_idle_spares_ended_idle : ∃ before later s t,
    machine.run (initial .empty) before = some s ∧ machine.run s later = some t ∧
      s.endings = ([(.ready, none), (.closed, some 900000000000)],
        [(.ready, none), (.closed, some 900000000000)]) ∧
      t.endings = ([(.closed, some 1800000000000), (.closed, some 900000000000)],
        [(.closed, some 1800000000000), (.closed, some 900000000000)]) ∧
      machine.Meets Spares s later ∧ s.daemon.Spared t.daemon := by
  let before : List ReapingStep := connectedSteps ++ closedSteps
  let now : Now := ⟨1800000000000, 1800000000000⟩
  let later : List ReapingStep := .reapIdle 1800 30 now :: .readActivity 1 now :: visitSteps 1 5 now
  have hall : ((machine.run (initial .empty) before).any fun s =>
      decide (s.endings = ([(.ready, none), (.closed, some 900000000000)],
          [(.ready, none), (.closed, some 900000000000)]) ∧
        machine.Meets ClosesOpen s later ∧ machine.Meets Reaps s later) &&
      (machine.run s later).any fun t => decide (t.endings =
        ([(.closed, some 1800000000000), (.closed, some 900000000000)],
          [(.closed, some 1800000000000), (.closed, some 900000000000)]))) = true := by decide
  obtain ⟨s, hbefore, hs⟩ := (Option.any_eq_true _ _).mp hall
  obtain ⟨hmeets, hs⟩ := Bool.and_eq_true_iff.mp hs
  obtain ⟨hendings, hopen, hreaps⟩ := of_decide_eq_true hmeets
  obtain ⟨t, hlater, ht⟩ := (Option.any_eq_true _ _).mp hs
  obtain ⟨hspares, hspared⟩ := reap_idle_spares_ended hbefore hlater hopen
  exact ⟨before, later, s, t, hbefore, hlater, hendings, of_decide_eq_true ht, hspares,
    hspared hreaps⟩

/-- A session that its client has closed is closed anew half an hour later, and forty days
later, when `cleanup` has just deleted its row, it gets a new one. -/
theorem reap_idle_closes_again : ∃ before later removal again s t u v,
    machine.run (initial .empty) before = some s ∧
      s.endings = ([(.closed, some 4)], [(.closed, some 4)]) ∧
      machine.Meets Reaps s later ∧ machine.run s later = some t ∧
      t.endings = ([(.closed, some 1800000000000)], [(.closed, some 1800000000000)]) ∧
      t.Reaps removal ∧ machine.step t removal = some u ∧
      u.endings = ([(.closed, some 1800000000000)], []) ∧
      machine.Meets Reaps u again ∧ machine.run u again = some v ∧
      v.endings = ([(.closed, some 3456000000000000)], [(.closed, some 3456000000000000)]) := by
  let before : List ReapingStep := connectedSteps ++
    .daemon (.session 0 (.session (.call .close))) :: advances 1 5 ⟨4, 4⟩
  let now : Now := ⟨1800000000000, 1800000000000⟩
  let late : Now := ⟨3456000000000000, 3456000000000000⟩
  let later : List ReapingStep := .reapIdle 1800 30 now :: visitSteps 2 4 now
  let removal : ReapingStep := .reapIdle 1800 30 late
  let again : List ReapingStep := visitSteps 3 4 late
  have hall : ((machine.run (initial .empty) before).any fun s =>
      decide (s.endings = ([(.closed, some 4)], [(.closed, some 4)]) ∧
        machine.Meets Reaps s later) &&
      (machine.run s later).any fun t =>
        decide (t.endings =
          ([(.closed, some 1800000000000)], [(.closed, some 1800000000000)])) &&
        (machine.step t removal).any fun u =>
          decide (u.endings = ([(.closed, some 1800000000000)], []) ∧
            machine.Meets Reaps u again) &&
          (machine.run u again).any fun v => decide (v.endings =
            ([(.closed, some 3456000000000000)], [(.closed, some 3456000000000000)]))) =
      true := by decide
  obtain ⟨s, hbefore, hs⟩ := (Option.any_eq_true _ _).mp hall
  obtain ⟨hs, hall⟩ := Bool.and_eq_true_iff.mp hs
  obtain ⟨hs, hreaps⟩ := of_decide_eq_true hs
  obtain ⟨t, hlater, ht⟩ := (Option.any_eq_true _ _).mp hall
  obtain ⟨ht, hall⟩ := Bool.and_eq_true_iff.mp ht
  obtain ⟨u, hremoval, hu⟩ := (Option.any_eq_true _ _).mp hall
  obtain ⟨hu, hall⟩ := Bool.and_eq_true_iff.mp hu
  obtain ⟨hu, hreaps'⟩ := of_decide_eq_true hu
  obtain ⟨v, hagain, hv⟩ := (Option.any_eq_true _ _).mp hall
  exact ⟨before, later, removal, again, s, t, u, v, hbefore, hs, hreaps, hlater,
    of_decide_eq_true ht, trivial, hremoval, hu, hreaps', hagain, of_decide_eq_true hv⟩

end Reaping
end AiSsh
