import AiSsh.DownloadRaces

/-!
A download without `overwrite`. The destination is tested once, before the parent directory,
the channel and the transfer, and the rename at the end does not test again: a file that
appears after the test is replaced. Where no file appears while a call is under way, the
rename finds none, and of all such calls one succeeds at most.
-/

namespace AiSsh

open Library

/-- A call that is not to replace a file. -/
def DownloadCall.guarded (call : DownloadCall) : Bool := !call.overwrite

namespace Downloads

variable (hexDigest : Bytes → String) (processId : Nat) (path : LocalPath)

/-- Where a guarded call goes to promote its staged file and a file is there, the file stays
as it is and the call returns `FILE_EXISTS`. -/
def Spares (s : Downloads) : DownloadStep → Prop
  | .advance index (.rename answer) => ∀ call received verified content s',
      s.calls[index]? = some call → call.guarded = true →
      call.phase = .renaming received verified → s.host.files.read path = some content →
      step hexDigest processId path s (.advance index (.rename answer)) = some s' →
      s'.host.files.read path = some content ∧ ∃ call' streamed,
        s'.calls[index]? = some call' ∧
          call'.phase = .finished streamed (.error (fileExists path))
  | _ => True

/-- No file appears at the destination while a guarded call has tested it and has not
ended. -/
def Unwatched (s : Downloads) : DownloadStep → Prop
  | .advance index (.rename (.ok ())) => ∀ call ∈ s.calls.eraseIdx index,
      call.guarded = true → call.phase.tested = false
  | .other target _ => target = path →
      ∀ call ∈ s.calls, call.guarded = true → call.phase.tested = false
  | _ => True

/-- The guarded calls that have succeeded. -/
def successes (calls : List DownloadCall) : Nat :=
  calls.countP fun call => call.guarded && call.phase.succeeded

/-- The destination is free as long as a guarded call is under way, and taken once one has
succeeded. -/
structure Guarding (s : Downloads) : Prop where
  free : ∀ call ∈ s.calls, call.guarded = true → call.phase.tested = true →
    s.host.files.names path = none
  taken : 0 < successes s.calls → (s.host.files.names path).isSome
  once : successes s.calls ≤ 1

variable {hexDigest processId path} {s s' : Downloads}

theorem successes_split (pre post : List DownloadCall) (call : DownloadCall) :
    successes (pre ++ call :: post) =
      successes (pre ++ post) + if call.guarded && call.phase.succeeded then 1 else 0 :=
  countP_middle _ _ _ _

/-- A step of a call that leaves the destination's name alone. -/
theorem Guarding.move (h : Guarding path s) {pre post : List DownloadCall}
    {call : DownloadCall} {phase : DownloadPhase} {host : LocalHost}
    {promotion : Option Promotion} (hcalls : s.calls = pre ++ call :: post)
    (hnames : host.files.names path = s.host.files.names path)
    (htested : call.guarded = true → phase.tested = true →
      call.phase.tested = true ∨ s.host.files.names path = none)
    (hsucceeded : phase.succeeded = false) :
    Guarding path ⟨host, pre ++ { call with phase } :: post, s.promoted ++ promotion.toList⟩ := by
  have hcount : successes (pre ++ { call with phase } :: post) ≤ successes s.calls := by
    rw [hcalls, successes_split, successes_split]
    simp [hsucceeded]
  refine
    { free := ?_
      taken := ?_
      once := Nat.le_trans hcount h.once }
  · intro other hother hguarded hphase
    refine hnames.trans ?_
    cases mem_middle.mp hother with
    | inl hsame =>
        subst hsame
        cases htested hguarded hphase with
        | inl htested => exact h.free call (hcalls ▸ mem_middle.mpr (.inl rfl)) hguarded htested
        | inr hnone => exact hnone
    | inr hother =>
        exact h.free other (hcalls ▸ mem_middle.mpr (.inr hother)) hguarded hphase
  · intro hpos
    rw [hnames]
    exact h.taken (Nat.lt_of_lt_of_le hpos hcount)

theorem Guarding.step (h : Guarding path s) {step : DownloadStep} (hfree : Unwatched path s step)
    (hstep : Downloads.step hexDigest processId path s step = some s') : Guarding path s' := by
  cases step with
  | call remote overwrite createDirs verify =>
      cases hstep
      have hcount : successes (s.calls ++ [⟨remote, overwrite, createDirs, verify, .testing⟩]) =
          successes s.calls := by
        simp [successes, List.countP_append, DownloadPhase.succeeded]
      refine
        { free := List.forall_mem_append.mpr
            ⟨h.free, List.forall_mem_singleton.mpr (by simp [DownloadPhase.tested])⟩
          taken := ?_
          once := ?_ }
      · simp only [hcount]
        exact h.taken
      · simp only [hcount]
        exact h.once
  | other target content =>
      simp only [Downloads.step] at hstep
      split at hstep
      · cases hstep
      · cases hstep
        have hnames : (s.host.put target content).files.names =
            Function.update s.host.files.names target (some (s.host.files.created target)) := by
          exact FileTable.names_create _ _
        by_cases hsame : target = path
        · refine ⟨fun call hcall hguarded htested => ?_, fun _ => ?_, h.once⟩
          · simp [hfree hsame call hcall hguarded] at htested
          · rw [hnames, hsame, Function.update_self]
            rfl
        · have hkept : (s.host.put target content).files.names path =
              s.host.files.names path := by
            rw [hnames]
            exact Function.update_of_ne (Ne.symm hsame) _ _
          refine ⟨fun call hcall hguarded htested => ?_, fun hpos => hkept ▸ h.taken hpos, h.once⟩
          exact hkept.trans (h.free call hcall hguarded htested)
  | advance index move =>
      obtain ⟨pre, call, post, host, phase, promotion, hcalls, herase, -, hdoes, rfl⟩ :=
        advance_some hstep
      cases hdoes with
      | quiet hfiles _ _ htested hsucceeded =>
          refine h.move hcalls (by rw [hfiles]) (fun hguarded => htested ?_) hsucceeded
          simpa [DownloadCall.guarded] using hguarded
      | create hphase =>
          refine h.move hcalls ?_ (fun _ _ => .inl (by rw [hphase]; rfl)) rfl
          rw [FileTable.names_create]
          exact Function.update_of_ne staged_ne _ _
      | write hphase | tear hphase =>
          exact h.move hcalls rfl (fun _ _ => .inl (by rw [hphase]; rfl)) rfl
      | remove hphase =>
          refine h.move hcalls ?_ (by simp [DownloadPhase.tested]) rfl
          exact Function.update_of_ne staged_ne _ _
      | @rename received verified outcome hphase hstaged =>
          have hothers : ∀ other ∈ pre ++ post, other.guarded = true →
              other.phase.tested = false := fun other hother =>
            hfree other (herase ▸ hother)
          refine
            { free := ?_
              taken := fun _ => ?_
              once := ?_ }
          · intro other hother hguarded htested
            cases mem_middle.mp hother with
            | inl hsame =>
                subst hsame
                cases htested
            | inr hother => simp [hothers other hother hguarded] at htested
          · rw [FileTable.names_rename_target]
            exact hstaged
          · have hbefore := h.once
            rw [hcalls, successes_split] at hbefore
            rw [successes_split]
            by_cases hguarded : call.guarded = true
            · have hnone := h.free call (hcalls ▸ mem_middle.mpr (.inl rfl)) hguarded
                (by rw [hphase]; rfl)
              have hzero : successes s.calls = 0 := by
                by_contra hpos
                have htaken := h.taken (Nat.pos_of_ne_zero hpos)
                rw [hnone] at htaken
                cases htaken
              rw [hcalls, successes_split] at hzero
              split <;> omega
            · rw [if_neg]
              · exact Nat.le_trans (Nat.le_add_right _ _) hbefore
              · intro hcount
                exact hguarded (Bool.and_eq_true_iff.mp hcount).1

theorem Guarding.spares (h : Guarding path s) (step : DownloadStep) :
    Spares hexDigest processId path s step := by
  cases step with
  | call _ _ _ _ | other _ _ => trivial
  | advance index move =>
      cases move with
      | rename answer =>
          intro call received verified content s' hcall hguarded hphase hread
          have hnone := h.free call (List.mem_of_getElem? hcall) hguarded (by rw [hphase]; rfl)
          simp [FileTable.read, hnone] at hread
      | _ => trivial

instance decidableUnwatched (s : Downloads) : DecidablePred (Unwatched path s) := by
  intro step
  simp only [Unwatched]
  split <;> infer_instance

end Downloads
end AiSsh
