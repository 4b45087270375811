import AiSsh.Downloads
import AiSsh.Library.Staged

/-!
Downloads to one destination at the same time. The calls share the staged file: a call that
creates it truncates what another one is writing, and a call that renames it promotes what
is there. Where no call creates the staged file while another counts on it, every promotion
is one complete remote file.
-/

namespace AiSsh

open Library

/-- A step of the daemon's own calls. -/
def DownloadStep.own : DownloadStep → Bool
  | .call _ _ _ _ | .advance _ _ => true
  | .other _ _ => false

namespace Downloads

/-- The destination holds what a single call has streamed, and a verified promotion had the
digest it reports. -/
structure Unmixed (hexDigest : Bytes → String) (path : LocalPath) (s : Downloads) : Prop where
  destination : s.promoted ≠ [] → ∀ content, s.host.files.read path = some content →
    ∃ call ∈ s.calls, call.phase.streamed = some content
  digests : ∀ promotion ∈ s.promoted, promotion.outcome.verified = true →
    ∃ content, promotion.content = some content ∧
      hexDigest content = promotion.outcome.sha256

/-- No call creates the staged file while another counts on it. -/
def Alone (s : Downloads) : DownloadStep → Prop
  | .advance _ (.create (.ok ())) => ∀ call ∈ s.calls, call.phase.held = none
  | _ => True

/-- The calls that count on the staged file. -/
def holders (calls : List DownloadCall) : Nat :=
  calls.countP fun call => call.phase.held.isSome

/-- The staged file is one call's, and holds what that call has received. -/
structure Staging (hexDigest : Bytes → String) (processId : Nat) (path : LocalPath)
    (s : Downloads) : Prop extends Unmixed hexDigest path s where
  one : holders s.calls ≤ 1
  held : ∀ call ∈ s.calls, ∀ received, call.phase.held = some received →
    ∃ file, s.host.files.Held (localStagedPath processId path) file received ∧
      ∀ handle, call.phase.handle = some handle → handle = file

variable {hexDigest : Bytes → String} {processId : Nat} {path : LocalPath} {s s' : Downloads}

/-- What a call counts on in the staged file. -/
def holding (call : DownloadCall) : Option (Holding UInt8) :=
  call.phase.held.map fun received => ⟨received, call.phase.handle⟩

theorem holding_eq_none {call : DownloadCall} :
    holding call = none ↔ call.phase.held = none := Option.map_eq_none_iff

theorem holders_eq_countP (calls : List DownloadCall) :
    holders calls = (calls.map holding).countP Option.isSome := by
  rw [List.countP_map]
  exact List.countP_congr fun call _ => by simp [holding]

/-- The calls are writers of the staged file, of which one at most counts on it. -/
theorem Staging.sole (h : Staging hexDigest processId path s) :
    SoleHolder (localStagedPath processId path) s.host.files (s.calls.map holding) where
  one := by
    rw [← holders_eq_countP]
    exact h.one
  held := by
    intro holding hmem
    obtain ⟨call, hcall, hholding⟩ := List.mem_map.mp hmem
    obtain ⟨received, hreceived, rfl⟩ := Option.map_eq_some_iff.mp hholding
    exact h.held call hcall received hreceived

theorem staging_of_sole (hunmixed : Unmixed hexDigest path s)
    (h : SoleHolder (localStagedPath processId path) s.host.files (s.calls.map holding)) :
    Staging hexDigest processId path s where
  toUnmixed := hunmixed
  one := by
    rw [holders_eq_countP]
    exact h.one
  held := by
    intro call hcall received hreceived
    refine h.held ⟨received, call.phase.handle⟩ (List.mem_map.mpr ⟨call, hcall, ?_⟩)
    rw [holding, hreceived]
    rfl

section Does

variable {host host' : LocalHost} {call : DownloadCall} {move : DownloadMove}
  {phase : DownloadPhase} {promotion : Option Promotion}

/-- An operation of a call is a move of a writer, which publishes what the call has streamed. -/
theorem holding_move {others : List (Option (Holding UInt8))}
    (hdoes : call.Does hexDigest processId path host move host' phase promotion)
    (halone : move = .create (.ok ()) → ∀ y ∈ others, y = none) :
    Holding.Move (localStagedPath processId path) path host.files others (holding call)
      host'.files (holding { call with phase }) (promotion.bind fun _ => phase.streamed) := by
  cases hdoes with
  | quiet hfiles hheld =>
      rw [hfiles]
      cases hheld with
      | inl hnone =>
          have hleft : holding { call with phase } = none := holding_eq_none.mpr hnone
          rw [hleft]
          exact .leave
      | inr hkept =>
          obtain ⟨hkept, hhandle⟩ := hkept
          rw [holding, holding, hkept]
          cases call.phase.held with
          | none => exact .leave
          | some received => exact .keep hhandle
  | create hphase => exact .create (halone rfl)
  | @write handle reads rest received chunk hphase =>
      rw [holding, hphase]
      exact .write chunk
  | @tear handle reads received data error text hphase =>
      rw [holding, hphase]
      exact .tear data
  | remove hphase => exact .remove
  | rename hphase hstaged =>
      rw [holding, hphase]
      exact .publish hstaged

/-- What a call had streamed stays known while it promotes nothing. -/
theorem streamed_of_does
    (hdoes : call.Does hexDigest processId path host move host' phase none) :
    call.phase.streamed = none ∨ phase.streamed = call.phase.streamed := by
  cases hdoes with
  | quiet _ _ hstreamed => exact hstreamed
  | create hphase | write hphase | tear hphase =>
      left
      rw [hphase]
      rfl
  | remove hphase =>
      right
      rw [hphase]
      rfl

/-- What a call promotes is the staged file, with the digest of what it has streamed. -/
theorem promoted_of_does {promoted : Promotion}
    (hdoes : call.Does hexDigest processId path host move host' phase (some promoted)) :
    ∃ received, holding call = some ⟨received, none⟩ ∧ phase.streamed = some received ∧
      (host.files.names (localStagedPath processId path)).isSome ∧
      promoted.content = host.files.read (localStagedPath processId path) ∧
      promoted.outcome.sha256 = hexDigest received := by
  cases hdoes with
  | @rename received verified outcome hphase hstaged =>
      refine ⟨received, ?_, rfl, hstaged, rfl, rfl⟩
      rw [holding, hphase]
      rfl

end Does

/-- What a call had streamed, it or another one has streamed after its step. -/
theorem streamed_split {pre post : List DownloadCall} {call : DownloadCall}
    {phase : DownloadPhase}
    (hstreamed : call.phase.streamed = none ∨ phase.streamed = call.phase.streamed)
    {content : Bytes} (h : ∃ other ∈ pre ++ call :: post, other.phase.streamed = some content) :
    ∃ other ∈ pre ++ { call with phase } :: post, other.phase.streamed = some content := by
  obtain ⟨other, hother, hcontent⟩ := h
  cases mem_middle.mp hother with
  | inl hsame =>
      subst hsame
      refine ⟨_, mem_middle.mpr (.inl rfl), ?_⟩
      cases hstreamed with
      | inl hnone => exact absurd (hnone.symm.trans hcontent) nofun
      | inr hkept => exact hkept.trans hcontent
  | inr hother => exact ⟨other, mem_middle.mpr (.inr hother), hcontent⟩

theorem staged_ne : path ≠ localStagedPath processId path :=
  (localStagedPath_ne processId path).symm

theorem Staging.does (h : Staging hexDigest processId path s) {pre post : List DownloadCall}
    {call : DownloadCall} {move : DownloadMove} {phase : DownloadPhase} {host : LocalHost}
    {promotion : Option Promotion} (hcalls : s.calls = pre ++ call :: post)
    (hdoes : call.Does hexDigest processId path s.host move host phase promotion)
    (halone : move = .create (.ok ()) → ∀ other ∈ s.calls, other.phase.held = none) :
    Staging hexDigest processId path
      ⟨host, pre ++ { call with phase } :: post, s.promoted ++ promotion.toList⟩ := by
  have hsole := h.sole
  rw [hcalls, List.map_append, List.map_cons] at hsole
  have hothers : move = .create (.ok ()) →
      ∀ y ∈ pre.map holding ++ post.map holding, y = none := by
    intro hcreate y hy
    rw [← List.map_append] at hy
    obtain ⟨other, hother, rfl⟩ := List.mem_map.mp hy
    exact holding_eq_none.mpr (halone hcreate other (hcalls ▸ mem_middle.mpr (.inr hother)))
  have hmove := holding_move hdoes hothers
  have hread := hsole.read_target staged_ne hmove
  have hsole' := hsole.move hmove
  refine staging_of_sole ⟨?_, ?_⟩ (by simpa using hsole')
  · intro hpromoted content hcontent
    cases promotion with
    | none =>
        rw [Option.toList_none, List.append_nil] at hpromoted
        exact streamed_split (streamed_of_does hdoes)
          (hcalls ▸ h.destination hpromoted content (hread.symm.trans hcontent))
    | some promoted =>
        obtain ⟨received, -, hstreamed, -⟩ := promoted_of_does hdoes
        refine ⟨_, mem_middle.mpr (.inl rfl), ?_⟩
        rw [hcontent, Option.bind_some, hstreamed] at hread
        exact hstreamed.trans hread.symm
  · refine List.forall_mem_append.mpr ⟨h.digests, ?_⟩
    intro promoted hpromoted _
    obtain rfl := Option.mem_toList.mp hpromoted
    obtain ⟨received, hholding, -, hstaged, hcontent, hdigest⟩ := promoted_of_does hdoes
    obtain ⟨file, hfile, -⟩ := hsole.held _ (mem_middle.mpr (.inl hholding.symm))
    exact ⟨received, hcontent.trans (hfile.read_eq hstaged), hdigest.symm⟩

theorem Staging.step (h : Staging hexDigest processId path s) {step : DownloadStep}
    (hown : step.own = true) (halone : Alone s step)
    (hstep : Downloads.step hexDigest processId path s step = some s') :
    Staging hexDigest processId path s' := by
  cases step with
  | call remote overwrite createDirs verify =>
      cases hstep
      refine
        { destination := fun hpromoted content hcontent => ?_
          digests := h.digests
          one := ?_
          held := List.forall_mem_append.mpr
            ⟨h.held, List.forall_mem_singleton.mpr (by simp [DownloadPhase.held])⟩ }
      · obtain ⟨call, hcall, hstreamed⟩ := h.destination hpromoted content hcontent
        exact ⟨call, List.mem_append_left _ hcall, hstreamed⟩
      · have hone := h.one
        simpa [holders, List.countP_append, DownloadPhase.held] using hone
  | advance index move =>
      obtain ⟨pre, call, post, host, phase, promotion, hcalls, -, -, hdoes, rfl⟩ :=
        advance_some hstep
      refine h.does hcalls hdoes ?_
      intro hcreate
      rw [hcreate] at halone
      exact halone
  | other target content => cases hown

theorem staging_start (host : LocalHost) : Staging hexDigest processId path (start host) where
  destination := fun hpromoted => absurd rfl hpromoted
  digests := by simp [start]
  one := Nat.zero_le 1
  held := by simp [start]

/-- In every run of the calls in which none creates the staged file while another counts on
it, the downloads do not mix. -/
theorem downloads_do_not_mix {host : LocalHost} {steps : List DownloadStep}
    (hown : ∀ step ∈ steps, step.own = true)
    (halone : (machine hexDigest processId path).Meets Alone (start host) steps)
    (hrun : (machine hexDigest processId path).run (start host) steps = some s) :
    Unmixed hexDigest path s := by
  have hmeets := (machine hexDigest processId path).meets_and.mpr
    ⟨halone, (machine hexDigest processId path).meets_of_forall_mem hown⟩
  have hstaging := (machine hexDigest processId path).invariant_under
    (I := fun s => Staging hexDigest processId path s)
    (fun _ _ _ h hstep hs => h.step hstep.2 hstep.1 hs) (staging_start host) hmeets hrun
  exact hstaging.toUnmixed

instance decidableAlone (s : Downloads) : DecidablePred (Alone s) := by
  intro step
  simp only [Alone]
  split <;> infer_instance

/-- The steps of a call up to the creation of its staged file. -/
def creates (index : Nat) (reads : Reads SftpError) : List DownloadStep :=
  [.advance index .test, .advance index (.makeDirs (.ok ())), .advance index (.connect (.ok ())),
    .advance index (.openRemote (.ok reads)), .advance index (.create (.ok ()))]

/-- The steps of a call after the end of its remote file. -/
def promotes (index : Nat) (remoteDigest : Option String) : List DownloadStep :=
  [.advance index (.flush (.ok ())), .advance index (.verify remoteDigest),
    .advance index (.rename (.ok ()))]

/-- The next read of a call. -/
def receives (index : Nat) : DownloadStep := .advance index (.receive (.ok ()))

def bootHost : LocalHost := ⟨.empty, fun _ => false⟩

def downloadPath : LocalPath := ⟨true, [.normal "d"]⟩

/-- A digest that tells the two remote files apart. -/
def downloadDigest (bytes : Bytes) : String := if bytes = [1, 1, 1] then "a" else "b"

/-- Two downloads, one after the other. -/
def oneByOne : List DownloadStep :=
  [.call "a" true false true] ++ creates 0 [.ok [1, 1, 1]] ++ [receives 0, receives 0] ++
    promotes 0 (some "a") ++
    [.call "b" true false true] ++ creates 1 [.ok [2]] ++ [receives 1, receives 1] ++
    promotes 1 (some "b")

theorem downloads_do_not_mix_oneByOne :
    ∃ s, (machine downloadDigest 1 downloadPath).run (start bootHost) oneByOne = some s ∧
      s.host.files.read downloadPath = some [2] ∧ Unmixed downloadDigest downloadPath s := by
  have hall : (((machine downloadDigest 1 downloadPath).run (start bootHost) oneByOne).any
      fun s => s.host.files.read downloadPath == some [2]) = true := by decide
  obtain ⟨s, hrun, hread⟩ := (Option.any_eq_true _ _).mp hall
  exact ⟨s, hrun, eq_of_beq hread, downloads_do_not_mix (by decide) (by decide) hrun⟩

/-- The second call truncates the staged file of the first and writes over it. -/
def sideBySide : List DownloadStep :=
  [.call "a" true false true, .call "b" true false true] ++ creates 0 [.ok [1, 1, 1]] ++
    creates 1 [.ok [2]] ++ [receives 0, receives 1, receives 0, receives 1] ++
    promotes 0 (some "a")

theorem shared_staging_mixes :
    ∃ s, (machine downloadDigest 1 downloadPath).run (start bootHost) sideBySide = some s ∧
      s.host.files.read downloadPath = some [2, 1, 1] ∧
      (s.calls.map fun call => call.phase.streamed) = [some [1, 1, 1], some [2]] ∧
      s.promoted = [⟨some [2, 1, 1], ⟨3, "a", true, true⟩⟩] ∧
      ¬ Unmixed downloadDigest downloadPath s := by
  have hall : (((machine downloadDigest 1 downloadPath).run (start bootHost) sideBySide).any
      fun s => s.host.files.read downloadPath == some [2, 1, 1] &&
        decide ((s.calls.map fun call => call.phase.streamed) = [some [1, 1, 1], some [2]]) &&
        decide (s.promoted = [⟨some [2, 1, 1], ⟨3, "a", true, true⟩⟩])) = true := by decide
  obtain ⟨s, hrun, hall⟩ := (Option.any_eq_true _ _).mp hall
  simp only [Bool.and_eq_true, beq_iff_eq, decide_eq_true_eq] at hall
  obtain ⟨⟨hread, hstreamed⟩, hpromoted⟩ := hall
  refine ⟨s, hrun, hread, hstreamed, hpromoted, fun hunmixed => ?_⟩
  obtain ⟨call, hcall, hcontent⟩ := hunmixed.destination (by simp [hpromoted]) _ hread
  have hmem : call.phase.streamed ∈ s.calls.map fun call => call.phase.streamed :=
    List.mem_map_of_mem hcall
  rw [hstreamed, hcontent] at hmem
  exact absurd hmem (by decide)

end Downloads
end AiSsh
