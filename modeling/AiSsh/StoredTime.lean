import AiSsh.Library.Calendar
import AiSsh.Library.TextOrder
import AiSsh.Storage

/-!
The tables hold times as texts, and SQLite compares texts byte by byte. An instant is
written as its date, its time of day and the shortest exact fraction of 0, 3, 6 or 9 digits,
in UTC. Within the years 0 to 9999 these texts order like the instants, so what the
statements say of texts they say of times.
-/

namespace AiSsh

open Library Library.Calendar

namespace Rfc3339

def second : Nat := 1000000000

def minute : Nat := 60 * second

def hour : Nat := 60 * minute

def day : Nat := 24 * hour

/-- The offset of UTC. -/
def utc : List Char := ['+', '0', '0', ':', '0', '0']

/-- The fewest of 0, 3, 6 or 9 digits that are exact. -/
def fraction (nanos : Nat) : List Char :=
  if nanos = 0 then []
  else if nanos % 1000000 = 0 then '.' :: padded 3 (nanos / 1000000)
  else if nanos % 1000 = 0 then '.' :: padded 6 (nanos / 1000)
  else '.' :: padded 9 nanos

def seconds (nanos : Nat) : List Char :=
  padded 2 (nanos / second) ++ (fraction (nanos % second) ++ utc)

def minutes (nanos : Nat) : List Char :=
  padded 2 (nanos / minute) ++ (':' :: seconds (nanos % minute))

/-- The time of day. -/
def clock (nanos : Nat) : List Char := padded 2 (nanos / hour) ++ (':' :: minutes (nanos % hour))

/-- The month and the day of a day of the year. -/
def monthDay (leap : Bool) (days : Nat) : List Char :=
  padded 2 (monthOf leap days) ++
    ('-' :: padded 2 (days - daysBeforeMonth leap (monthOf leap days) + 1))

/-- The date of a day from the year 0 on. -/
def date (days : Nat) : List Char :=
  padded 4 (yearOf days) ++
    ('-' :: monthDay (isLeap (yearOf days)) (days - daysBeforeYear (yearOf days)))

/-- An instant, counted from the start of the year 0. -/
def text (nanos : Nat) : List Char := date (nanos / day) ++ ('T' :: clock (nanos % day))

/-- From the start of the year 0 to the Unix epoch. -/
def epoch : Nat := daysBeforeYear 1970 * day

/-- To the end of the year 9999. -/
def end9999 : Nat := daysBeforeYear 10000 * day

theorem trimmed_utc {groups nanos : Nat} (h : nanos ≠ 0) :
    trimmed utc (groups + 1) nanos =
      padded 3 (nanos / 1000 ^ groups) ++ trimmed utc groups (nanos % 1000 ^ groups) := by
  rw [trimmed, if_neg h]

/-- The shortest exact fraction is the one that leaves out the last groups of zeros. -/
theorem fraction_append_utc (nanos : Nat) :
    fraction nanos ++ utc = if nanos = 0 then utc else '.' :: trimmed utc 3 nanos := by
  by_cases hzero : nanos = 0
  · rw [fraction, if_pos hzero, if_pos hzero, List.nil_append]
  rw [fraction, if_neg hzero, if_neg hzero, trimmed_utc hzero]
  by_cases hmilli : nanos % 1000000 = 0
  · have hrest : nanos % 1000 ^ 2 = 0 := hmilli
    rw [if_pos hmilli, hrest]
    rfl
  have hmilli' : nanos % 1000 ^ 2 ≠ 0 := hmilli
  have hmicroText : padded 6 (nanos / 1000) =
      padded 3 (nanos / 1000 ^ 2) ++ padded 3 (nanos % 1000 ^ 2 / 1000) := by
    have hgroups := padded_add 3 3 (nanos / 1000)
    have hdiv : nanos / 1000 / 10 ^ 3 = nanos / 1000 ^ 2 := by omega
    have hmod : nanos / 1000 % 10 ^ 3 = nanos % 1000 ^ 2 / 1000 := by omega
    rwa [hdiv, hmod] at hgroups
  rw [if_neg hmilli, trimmed_utc hmilli']
  by_cases hmicro : nanos % 1000 = 0
  · have hrest : nanos % 1000 ^ 2 % 1000 ^ 1 = 0 := by omega
    rw [if_pos hmicro, hrest, hmicroText]
    simp only [trimmed, if_true, Nat.pow_one, List.cons_append, List.append_assoc]
  · have hmicro' : nanos % 1000 ^ 2 % 1000 ^ 1 ≠ 0 := by omega
    have hnanoText : padded 9 nanos = padded 6 (nanos / 1000) ++ padded 3 (nanos % 1000) :=
      padded_add 6 3 nanos
    have hlast : nanos % 1000 ^ 2 % 1000 ^ 1 = nanos % 1000 := by omega
    rw [if_neg hmicro, trimmed_utc hmicro', hnanoText, hmicroText, hlast]
    simp only [trimmed, Nat.pow_zero, Nat.div_one, Nat.pow_one, List.cons_append,
      List.append_assoc]

theorem writes_fraction : WritesBelow second fun nanos => fraction nanos ++ utc := by
  intro m n hlt hn
  show fraction m ++ utc < fraction n ++ utc
  have hn0 : n ≠ 0 := by omega
  rw [fraction_append_utc, fraction_append_utc, if_neg hn0]
  split
  · exact List.cons_lt_cons_iff.mpr (.inl (by decide))
  · exact List.cons_lt_cons_self.mpr (writes_trimmed (by decide) 3 m n hlt hn)

theorem writes_seconds : WritesBelow minute seconds :=
  ((writes_padded 2).mono (by omega)).pair (wide_padded _ 2) writes_fraction (by decide)

theorem writes_minutes : WritesBelow hour minutes :=
  ((writes_padded 2).mono (by omega)).pair (wide_padded _ 2) (writes_seconds.after [':'])
    (by decide)

theorem writes_clock : WritesBelow day clock :=
  ((writes_padded 2).mono (by omega)).pair (wide_padded _ 2) (writes_minutes.after [':'])
    (by decide)

theorem writes_monthDay (leap : Bool) : WritesBelow (yearLength leap) (monthDay leap) := by
  refine .parts (g := fun _ days => '-' :: padded 2 (days + 1)) (daysBeforeMonth_mono leap)
    (fun _ => monthOf_spec) (fun days _ => Nat.lt_succ_of_le (monthOf_le leap days))
    ((writes_padded 2).mono (by omega)) (wide_padded 13 2) fun month hmonth m n hlt hn => ?_
  have hlength := monthLength_le leap hmonth
  exact List.cons_lt_cons_self.mpr (writes_padded 2 _ _ (by omega) (by omega))

theorem writes_date : WritesBelow (daysBeforeYear 10000) date := by
  refine .parts (g := fun year days => '-' :: monthDay (isLeap year) days) daysBeforeYear_mono
    (fun days _ => yearOf_spec days) (fun days hdays => ?_) (writes_padded 4)
    (wide_padded _ 4) fun year _ => ?_
  · by_contra hlate
    have hstart : daysBeforeYear 10000 ≤ daysBeforeYear (yearOf days) :=
      daysBeforeYear_mono (Nat.le_of_not_lt hlate)
    have hspec := (yearOf_spec days).1
    omega
  · rw [daysBeforeYear_succ, Nat.add_sub_cancel_left]
    exact (writes_monthDay _).after ['-']

theorem wide_date (bound : Nat) : Wide bound 10 date := fun days _ => by
  simp only [date, monthDay, List.length_append, List.length_cons, length_padded]

theorem writes_text : WritesBelow end9999 text :=
  writes_date.pair (wide_date _) (writes_clock.after ['T']) (by decide)

theorem ascii_fraction (nanos : Nat) : Ascii (fraction nanos) := by
  rw [fraction]
  split
  · exact List.forall_mem_nil _
  split
  · exact (ascii_padded _ _).cons (by decide)
  split
  · exact (ascii_padded _ _).cons (by decide)
  · exact (ascii_padded _ _).cons (by decide)

theorem ascii_clock (nanos : Nat) : Ascii (clock nanos) := by
  have hutc : Ascii utc := by decide
  exact (ascii_padded _ _).append (((ascii_padded _ _).append (((ascii_padded _ _).append
    ((ascii_fraction _).append hutc)).cons (by decide))).cons (by decide))

theorem ascii_text (nanos : Nat) : Ascii (text nanos) :=
  ((ascii_padded _ _).append (((ascii_padded _ _).append
    ((ascii_padded _ _).cons (by decide))).cons (by decide))).append
    ((ascii_clock _).cons (by decide))

end Rfc3339

/-- The years that are written in four digits. -/
def InYears (time : DateTime) : Prop :=
  0 ≤ time + Rfc3339.epoch ∧ time + Rfc3339.epoch < Rfc3339.end9999

instance decidableInYears (time : DateTime) : Decidable (InYears time) :=
  inferInstanceAs (Decidable (_ ∧ _))

/-- `to_rfc3339` within these years. -/
def toRfc3339 (time : DateTime) : String :=
  .ofList (Rfc3339.text (time + Rfc3339.epoch).toNat)

example : toRfc3339 1500000000 = "1970-01-01T00:00:01.500+00:00" := by decide

/-- `BINARY` collation. -/
def textBefore (a b : String) : Prop := textBytes a < textBytes b

instance decidableTextBefore : DecidableRel textBefore :=
  fun a b => inferInstanceAs (Decidable (textBytes a < textBytes b))

theorem textBefore_of_lt {a b : DateTime} (ha : InYears a) (hb : InYears b) (h : a < b) :
    textBefore (toRfc3339 a) (toRfc3339 b) := by
  have hnanos : ∀ x y bound : Int, 0 ≤ x → x < y → y < bound →
      x.toNat < y.toNat ∧ y.toNat < bound.toNat := by
    omega
  have horder := hnanos _ _ _ ha.1 (Int.add_lt_add_right h _) hb.2
  exact textBytes_lt (Rfc3339.ascii_text _) (Rfc3339.ascii_text _)
    (Rfc3339.writes_text _ _ horder.1 horder.2)

/-- Stored times order like times. -/
theorem textBefore_iff {a b : DateTime} (ha : InYears a) (hb : InYears b) :
    textBefore (toRfc3339 a) (toRfc3339 b) ↔ a < b := by
  refine ⟨fun h => ?_, textBefore_of_lt ha hb⟩
  by_contra hge
  cases Int.lt_or_eq_of_le (Int.not_lt.mp hge) with
  | inl hless => exact List.lt_asymm h (textBefore_of_lt hb ha hless)
  | inr hsame => exact List.lt_irrefl _ (hsame ▸ h)

/-- `created_at<?1 AND status IN (..)`, as the statement compares them. -/
def SessionRow.expiredText (before : String) (row : SessionRow) : Bool :=
  decide (textBefore (toRfc3339 row.info.createdAt) before) && row.info.status.isOver

/-- `ORDER BY .. DESC` of a column of times. -/
def newestFirst {α : Type} (time : α → DateTime) (rows : List α) : List α :=
  rows.mergeSort fun a b => !decide (textBefore (toRfc3339 (time a)) (toRfc3339 (time b)))

namespace Storage

section Delete

variable (s : Storage) (gone : SessionRow → Bool)

def deletes (id : String) : Bool := s.db.sessions.any fun row => gone row && row.info.id == id

def deletesCommand (event : TerminalEvent) : Bool :=
  event.commandId.any fun id =>
    s.db.commands.any fun row => row.id == id && s.deletes gone row.sessionId

/-- `DELETE FROM sessions WHERE ..`, with the cascade over commands and events. -/
def deleteSessions : Storage :=
  { s with db :=
    { sessions := s.db.sessions.filter fun row => !gone row
      commands := s.db.commands.filter fun row => !s.deletes gone row.sessionId
      events := s.db.events.filter fun event =>
        !s.deletes gone event.sessionId && !s.deletesCommand gone event } }

theorem deleteExpired_eq (before : DateTime) :
    s.deleteExpired before = s.deleteSessions (SessionRow.expired before) := rfl

theorem deleteSessions_congr {gone gone' : SessionRow → Bool}
    (h : ∀ row ∈ s.db.sessions, gone row = gone' row) :
    s.deleteSessions gone = s.deleteSessions gone' := by
  have hdeletes : s.deletes gone = s.deletes gone' := by
    funext id
    rw [Bool.eq_iff_iff]
    simp only [deletes, List.any_eq_true]
    exact exists_congr fun row => and_congr_right fun hrow => by rw [h row hrow]
  have hcommand : s.deletesCommand gone = s.deletesCommand gone' := by
    funext event
    rw [deletesCommand, deletesCommand, hdeletes]
  have hsessions : s.db.sessions.filter (fun row => !gone row) =
      s.db.sessions.filter fun row => !gone' row :=
    List.filter_congr fun row hrow => by rw [h row hrow]
  rw [deleteSessions, deleteSessions, hdeletes, hcommand, hsessions]

end Delete

/-- `cleanup`, as the statement compares times. -/
def cleanupText (s : Storage) (retentionDays : Nat) (now : DateTime) : Storage :=
  s.deleteSessions (SessionRow.expiredText (toRfc3339 (now - retentionDays * day)))

def sessions (s : Storage) : List SessionInfo :=
  newestFirst SessionInfo.createdAt (s.db.sessions.map SessionRow.info)

/-- The commands of one session or of all, the running ones or all. -/
def commands (s : Storage) (sessionId : Option String) (includeFinished : Bool) (limit : Nat) :
    List CommandInfo :=
  (newestFirst CommandInfo.startedAt (s.db.commands.filter fun row =>
    (sessionId.all fun id => row.sessionId == id) &&
      (includeFinished || row.status == .running))).take limit

/-- `latest_command_for_session`, as the statement compares times. -/
def latestCommandText (s : Storage) (sessionId : String) : Option CommandInfo :=
  (newestFirst CommandInfo.startedAt
    (s.db.commands.filter fun row => row.sessionId == sessionId)).head?

/-- The times that `cleanup` and the listings compare. -/
structure InYears (s : Storage) : Prop where
  created : ∀ row ∈ s.db.sessions, AiSsh.InYears row.info.createdAt
  started : ∀ row ∈ s.db.commands, AiSsh.InYears row.startedAt

end Storage

theorem textLe_trans (a b c : String) (hab : ¬ textBefore a b) (hbc : ¬ textBefore b c) :
    ¬ textBefore a c := by
  rw [textBefore, List.not_lt] at *
  exact List.le_trans hbc hab

/-- Whatever breaks ties, a listing is chronological, the newest first. -/
theorem newestFirst_pairwise {α : Type} {time : α → DateTime} {rows : List α}
    (h : ∀ row ∈ rows, InYears (time row)) :
    (newestFirst time rows).Pairwise fun a b => time b ≤ time a := by
  have hsorted : (newestFirst time rows).Pairwise _ := List.pairwise_mergeSort
    (fun a b c hab hbc => by
      simp only [Bool.not_eq_true', decide_eq_false_iff_not] at hab hbc ⊢
      exact textLe_trans _ _ _ hab hbc)
    (fun a b => by
      simp only [Bool.or_eq_true, Bool.not_eq_true', decide_eq_false_iff_not]
      exact Classical.or_iff_not_imp_left.mpr fun hab =>
        List.lt_asymm (Classical.not_not.mp hab)) rows
  refine hsorted.imp_of_mem fun {a b} ha hb hle => ?_
  simp only [Bool.not_eq_true', decide_eq_false_iff_not] at hle
  have ha' : InYears (time a) := h a ((List.mergeSort_perm rows _).mem_iff.mp ha)
  have hb' : InYears (time b) := h b ((List.mergeSort_perm rows _).mem_iff.mp hb)
  rw [textBefore_iff ha' hb'] at hle
  exact Int.not_lt.mp hle

namespace Storage

variable {s : Storage}

/-- The statement deletes what is too old. -/
theorem cleanupText_eq (h : s.InYears) {retentionDays : Nat} {now : DateTime}
    (hbefore : AiSsh.InYears (now - retentionDays * day)) :
    s.cleanupText retentionDays now = s.cleanup retentionDays now := by
  rw [cleanupText, cleanup, deleteExpired_eq]
  refine s.deleteSessions_congr fun row hrow => ?_
  rw [SessionRow.expiredText, SessionRow.expired,
    decide_eq_decide.mpr (textBefore_iff (h.created row hrow) hbefore)]

theorem mem_cleanup {retentionDays : Nat} {now : DateTime} {row : SessionRow}
    (hrow : row ∈ s.db.sessions) :
    row ∈ (s.cleanup retentionDays now).db.sessions ↔
      ¬ (row.info.status.isOver = true ∧ row.info.createdAt < now - retentionDays * day) := by
  have hkept : row ∈ (s.cleanup retentionDays now).db.sessions ↔
      row.expired (now - retentionDays * day) = false := by
    simp [cleanup, deleteExpired, hrow]
  rw [hkept, SessionRow.expired, ← Bool.not_eq_true, Bool.and_eq_true, decide_eq_true_iff,
    and_comm]

theorem sessions_pairwise (h : s.InYears) :
    s.sessions.Pairwise fun a b => b.createdAt ≤ a.createdAt :=
  newestFirst_pairwise (List.forall_mem_map.mpr h.created)

theorem commands_pairwise (h : s.InYears) (sessionId : Option String) (includeFinished : Bool)
    (limit : Nat) :
    (s.commands sessionId includeFinished limit).Pairwise fun a b => b.startedAt ≤ a.startedAt :=
  (newestFirst_pairwise fun row hrow =>
    h.started row (List.mem_of_mem_filter hrow)).sublist (List.take_sublist _ _)

theorem latestCommandText_le (h : s.InYears) {sessionId : String} {latest : CommandInfo}
    (hlatest : s.latestCommandText sessionId = some latest) {row : CommandInfo}
    (hrow : row ∈ s.db.commands) (hsession : row.sessionId = sessionId) :
    row.startedAt ≤ latest.startedAt := by
  have hsorted : (newestFirst CommandInfo.startedAt
      (s.db.commands.filter fun row => row.sessionId == sessionId)).Pairwise
      fun a b => b.startedAt ≤ a.startedAt :=
    newestFirst_pairwise fun row hrow => h.started row (List.mem_of_mem_filter hrow)
  have hmem : row ∈ newestFirst CommandInfo.startedAt
      (s.db.commands.filter fun row => row.sessionId == sessionId) :=
    (List.mergeSort_perm _ _).mem_iff.mpr (List.mem_filter.mpr ⟨hrow, by simpa using hsession⟩)
  rw [latestCommandText] at hlatest
  obtain ⟨rest, hlist⟩ := List.head?_eq_some_iff.mp hlatest
  rw [hlist] at hsorted hmem
  cases List.mem_cons.mp hmem with
  | inl hsame => exact Int.le_of_eq (congrArg CommandInfo.startedAt hsame)
  | inr hrest => exact (List.pairwise_cons.mp hsorted).1 row hrest

/-- The statements that compare stored times do what their times say. -/
structure OrdersByTime (s : Storage) (retentionDays : Nat) (now : DateTime) : Prop where
  texts : ∀ a b, AiSsh.InYears a → AiSsh.InYears b →
    (textBefore (toRfc3339 a) (toRfc3339 b) ↔ a < b)
  deleted : ∀ row ∈ s.db.sessions, row ∉ (s.cleanupText retentionDays now).db.sessions ↔
    row.info.status.isOver = true ∧ row.info.createdAt < now - retentionDays * day
  sessions : s.sessions.Pairwise fun a b => b.createdAt ≤ a.createdAt
  commands : ∀ sessionId includeFinished limit,
    (s.commands sessionId includeFinished limit).Pairwise fun a b => b.startedAt ≤ a.startedAt
  latest : ∀ sessionId latest, s.latestCommandText sessionId = some latest →
    ∀ row ∈ s.db.commands, row.sessionId = sessionId → row.startedAt ≤ latest.startedAt

/-- Within the years that are written in four digits stored time texts order like time. -/
theorem stored_times_order_like_times (retentionDays : Nat) (now : DateTime) (h : s.InYears)
    (hbefore : AiSsh.InYears (now - retentionDays * day)) : s.OrdersByTime retentionDays now where
  texts _ _ ha hb := textBefore_iff ha hb
  deleted row hrow := by
    rw [cleanupText_eq h hbefore, mem_cleanup hrow, Classical.not_not]
  sessions := sessions_pairwise h
  commands := commands_pairwise h
  latest _ _ hlatest _ hrow hsession := latestCommandText_le h hlatest hrow hsession

/-- A session of a given age and status. -/
def datedSession (id : String) (status : SessionStatus) (createdAt : DateTime) : SessionRow :=
  ⟨⟨id, "t", "t", "p", "m", status, none, none, false, none, createdAt, createdAt, none⟩, 0⟩

/-- Three sessions of which one is over and too old. -/
def datedSessions : Storage where
  db :=
    { sessions := [datedSession "a" .closed 0, datedSession "b" .ready 0,
        datedSession "c" .closed (31 * day + 5)]
      commands := []
      events := [] }
  recordingLimitBytes := 0

theorem stored_times_order_like_times_datedSessions :
    datedSessions.OrdersByTime 30 (31 * day) :=
  stored_times_order_like_times 30 (31 * day) ⟨by decide, by decide⟩ (by decide)

end Storage

end AiSsh
