import AiSsh.InstallHelper

/-!
What a failed installation leaves at the destination. Every operation but one leaves the
previous helper where it is when it fails. On Windows the last rename fails with the
previous helper already moved aside, and nothing moves it back.
-/

namespace AiSsh

open Library Program

/-- An installation that fails over a helper leaves a complete one in its place, the previous
one or the new one. -/
def KeepsHelper (call : HelperInstall) (host : InstallHost call.platform)
    (d : HelperDirectory) : Prop :=
  ∀ error d' previous, (installHelper call).run host.answer d = (.error error, d') →
    d call.destination = some previous → ∃ file, d' call.destination = some file ∧
      (file.content = previous.content ∨ ∃ new, host.source = some new ∧
        file.content = new.content)

/-- The destination is seen, and the file system lets it be moved aside. -/
structure MovesAside (call : HelperInstall) (host : InstallHost call.platform)
    (d : HelperDirectory) : Prop where
  seen : host.fault (.exists .replaceHelper call.destination) = none
  installed : (d call.destination).isSome
  allowed : host.Allows (.rename call.destination call.displacedPath) d call.displacedPath

/-- The destination is moved aside, and nothing takes its place. -/
structure StopsReplacing (call : HelperInstall) (host : InstallHost call.platform)
    (d : HelperDirectory) : Prop extends MovesAside call host d where
  windows : call.platform = .windows
  stops : (host.fault (.rename call.temp call.destination)).isSome

/-- The replacement is reached, and stops between its renames. -/
structure StoppedBetween (call : HelperInstall) (host : InstallHost call.platform)
    (d : HelperDirectory) : Prop extends StopsReplacing call host d where
  differs : host.compares d call.destination = .ok false
  bundled : host.source.isSome
  copies : host.Allows (.copy call.temp) d call.temp

section Sweep

variable {platform : Platform} {d : HelperDirectory}

/-- A sweep takes away only parked helpers that nobody holds. -/
theorem sweepEntries_run (host : InstallHost platform) (parked : FileName)
    (entries : List (Except IoError FileName)) (d : HelperDirectory) :
    ∃ d', (sweepEntries parked entries).run host.answer d = (.ok (), d') ∧
      (∀ name, ¬ parked <+: name → d' name = d name) ∧
      ∀ name, platform.refuses d' name = platform.refuses d name := by
  induction entries generalizing d with
  | nil => exact ⟨d, rfl, fun _ _ => rfl, fun _ => rfl⟩
  | cons entry entries ih =>
      cases entry with
      | error error => exact ih d
      | ok name =>
          by_cases hname : parked <+: name
          · obtain ⟨d', hrun, hkept, hheld⟩ :=
              ih (host.answer d (.remove .sweepDisplaced name)).2
            refine ⟨d', ?_, ?_, ?_⟩
            · rw [sweepEntries, if_pos hname, run_ask, hrun]
            · intro other hother
              have hne : other ≠ name := by
                rintro rfl
                exact hother hname
              rw [hkept other hother, remove_other hne]
            · intro other
              rw [hheld other, remove_refuses]
          · rw [sweepEntries, if_neg hname]
            exact ih d

theorem sweepDisplaced_run (host : InstallHost platform) (destination : FileName)
    (d : HelperDirectory) :
    ∃ d', (sweepDisplaced destination platform).run host.answer d = (.ok (), d') ∧
      (∀ name, ¬ parkedPrefix destination <+: name → d' name = d name) ∧
      ∀ name, platform.refuses d' name = platform.refuses d name := by
  cases platform with
  | unix => exact ⟨d, rfl, fun _ _ => rfl, fun _ => rfl⟩
  | windows =>
      rw [sweepDisplaced, run_ask]
      simp only [InstallHost.answer]
      cases host.listing with
      | ok entries => exact sweepEntries_run host _ entries d
      | error error => exact ⟨d, rfl, fun _ _ => rfl, fun _ => rfl⟩

end Sweep

section Comparison

variable {platform : Platform} {host : InstallHost platform} {d d' : HelperDirectory}
  {destination : FileName}

theorem isInstalled_run (host : InstallHost platform) (destination : FileName)
    (d : HelperDirectory) :
    (isInstalled destination).run host.answer d =
      ((host.compares d destination).mapError (InstallError.mk none), d) := by
  rw [isInstalled, InstallHost.compares, ask_bind, run_ask]
  simp only [InstallHost.answer, done_bind]
  split
  · rw [ask_bind, run_ask]
    simp only [InstallHost.answer]
    cases host.readFile .readSource host.source with
    | error error => rfl
    | ok source =>
        cases hread : host.readFile (.read destination) (d destination) <;>
          simp only [answered, done_bind, ask_bind, run_ask, InstallHost.answer, hread] <;> rfl
  · rfl

/-- The comparison looks only at the destination. -/
theorem compares_congr (h : d' destination = d destination) :
    host.compares d' destination = host.compares d destination := by
  simp only [InstallHost.compares, h]

theorem readFile_ok {op : InstallOp} {file : Option HelperFile} {bytes : Bytes}
    (h : host.readFile op file = .ok bytes) : file.map HelperFile.content = some bytes := by
  cases file with
  | none => cases h
  | some file =>
      rw [InstallHost.readFile] at h
      cases hfault : host.fault op with
      | some error =>
          rw [hfault] at h
          cases h
      | none =>
          rw [hfault] at h
          cases h
          rfl

theorem compares_true (h : host.compares d destination = .ok true) :
    host.source.isSome ∧
      (d destination).map HelperFile.content = host.source.map HelperFile.content := by
  rw [InstallHost.compares] at h
  split at h
  · cases hsource : host.readFile .readSource host.source with
    | error error =>
        rw [hsource] at h
        cases h
    | ok source =>
        cases hinstalled : host.readFile (.read destination) (d destination) with
        | error error =>
            rw [hsource, hinstalled] at h
            cases h
        | ok installed =>
            rw [hsource, hinstalled] at h
            have hsame : (source == installed) = true := Except.ok.inj h
            have hbundled := readFile_ok hsource
            rw [readFile_ok hinstalled, hbundled, eq_of_beq hsame]
            refine ⟨?_, rfl⟩
            rw [← Option.isSome_map, hbundled]
            rfl
  · cases h

end Comparison

section Replacement

theorem restrictHelper_cases {platform : Platform} (host : InstallHost platform)
    (d : HelperDirectory) (name : FileName) :
    (∃ d', (restrictHelper name platform).run host.answer d = (.ok (), d') ∧
        (∀ other, other ≠ name → d' other = d other) ∧
        (d' name).map HelperFile.content = (d name).map HelperFile.content) ∨
      platform = .unix ∧
        ∃ error, (restrictHelper name platform).run host.answer d = (.error error, d) := by
  cases platform with
  | windows => exact .inl ⟨d, rfl, fun _ _ => rfl, rfl⟩
  | unix =>
      rw [restrictHelper, run_ask]
      cases setPermissions_cases host d name 0o700 with
      | inl hset =>
          obtain ⟨file, hfile, hanswer⟩ := hset
          left
          rw [hanswer, hfile]
          refine ⟨Function.update d name (some { file with mode := 0o700 }), rfl,
            fun other hother => Function.update_of_ne hother _ _, ?_⟩
          rw [Function.update_self]
          rfl
      | inr hfailed =>
          obtain ⟨error, hanswer⟩ := hfailed
          rw [hanswer]
          exact .inr ⟨rfl, _, rfl⟩

variable {call : HelperInstall} {host : InstallHost call.platform} {d d' : HelperDirectory}

theorem copyHelper_cases (host : InstallHost call.platform) (d : HelperDirectory) :
    (∃ source, host.source = some source ∧ host.Allows (.copy call.temp) d call.temp ∧
        (copyHelper call).run host.answer d =
          (.ok (), Function.update d call.temp (some { source with held := false }))) ∨
      ¬ (host.source.isSome ∧ host.Allows (.copy call.temp) d call.temp) ∧
        ∃ error d', (copyHelper call).run host.answer d = (.error error, d') ∧
          ∀ name, name ≠ call.temp → d' name = d name := by
  rw [copyHelper, run_ask]
  cases copy_cases host d call.temp with
  | inl hcopied =>
      obtain ⟨source, hsource, hallows, hanswer⟩ := hcopied
      rw [hanswer]
      exact .inl ⟨source, hsource, hallows, rfl⟩
  | inr hfailed =>
      obtain ⟨hnot, error, d', hanswer, hkept⟩ := hfailed
      rw [hanswer]
      exact .inr ⟨hnot, _, d', rfl, hkept⟩

/-- What the staging can do. On Windows only the copy can fail. -/
theorem stageHelper_cases (host : InstallHost call.platform) (d : HelperDirectory) :
    (∃ staged, (stageHelper call).run host.answer d = (.ok (), staged) ∧
        (host.source.isSome ∧ host.Allows (.copy call.temp) d call.temp) ∧
        (∀ name, name ≠ call.temp → staged name = d name) ∧
        (staged call.temp).map HelperFile.content = host.source.map HelperFile.content) ∨
      ¬ (call.platform = .windows ∧ host.source.isSome ∧
          host.Allows (.copy call.temp) d call.temp) ∧
        ∃ error d', (stageHelper call).run host.answer d = (.error error, d') ∧
          ∀ name, name ≠ call.temp → d' name = d name := by
  rw [stageHelper]
  cases copyHelper_cases host d with
  | inr hfailed =>
      obtain ⟨hnot, error, d', hrun, hkept⟩ := hfailed
      exact .inr ⟨fun h => hnot h.2, error, d', run_bind_fail hrun _, hkept⟩
  | inl hcopied =>
      obtain ⟨source, hsource, hcopies, hrun⟩ := hcopied
      rw [run_bind_ok hrun]
      have hcopied : ∀ name, name ≠ call.temp → Function.update d call.temp
          (some { source with held := false }) name = d name :=
        fun name hname => Function.update_of_ne hname _ _
      cases restrictHelper_cases host (Function.update d call.temp _) call.temp with
      | inr hfailed =>
          obtain ⟨hunix, error, hrun⟩ := hfailed
          exact .inr ⟨fun h => absurd (hunix.symm.trans h.1) (by decide), error, _, hrun,
            hcopied⟩
      | inl hrestricted =>
          obtain ⟨staged, hrun, hother, hsame⟩ := hrestricted
          refine .inl ⟨staged, hrun, ⟨?_, hcopies⟩, ?_, ?_⟩
          · rw [hsource]
            rfl
          · exact fun name hname => (hother name hname).trans (hcopied name hname)
          · rw [hsame, Function.update_self, hsource]
            rfl

theorem moveAside_cases (host : InstallHost call.platform) (d : HelperDirectory) :
    (MovesAside call host d ∧ (moveAside call).run host.answer d =
        (.ok (), d.move call.destination call.displacedPath)) ∨
      ¬ MovesAside call host d ∧
        ∃ result, (moveAside call).run host.answer d = (result, d) := by
  rw [moveAside, ask_bind, run_ask]
  simp only [InstallHost.answer, done_bind]
  split
  · rename_i hseen
    obtain ⟨hnone, hinstalled⟩ := Bool.and_eq_true_iff.mp hseen
    have hnone := Option.isNone_iff_eq_none.mp hnone
    rw [run_ask]
    cases rename_cases host d call.destination call.displacedPath with
    | inl hmoved =>
        obtain ⟨-, hallows, hanswer⟩ := hmoved
        rw [hanswer]
        exact .inl ⟨⟨hnone, hinstalled, hallows⟩, rfl⟩
    | inr hfailed =>
        obtain ⟨hnot, error, hanswer⟩ := hfailed
        rw [hanswer]
        exact .inr ⟨fun h => hnot ⟨h.installed, h.allowed⟩, _, rfl⟩
  · rename_i hseen
    refine .inr ⟨fun h => hseen ?_, _, rfl⟩
    rw [h.seen, h.installed]
    rfl

theorem takePlace_cases (host : InstallHost call.platform) (d : HelperDirectory) :
    (∃ d', (takePlace call).run host.answer d = (.ok (), d') ∧
        host.fault (.rename call.temp call.destination) = none ∧
        d' call.destination = d call.temp) ∨
      ¬ ((d call.temp).isSome ∧
          host.Allows (.rename call.temp call.destination) d call.destination) ∧
        ∃ error, (takePlace call).run host.answer d = (.error error, d) := by
  rw [takePlace, ask_bind, run_ask]
  cases rename_cases host d call.temp call.destination with
  | inl hmoved =>
      obtain ⟨-, hallows, hanswer⟩ := hmoved
      rw [hanswer]
      exact .inl ⟨_, rfl, hallows.1,
        (remove_other (displacedPath_ne_destination call).symm).trans (move_new d _ _)⟩
  | inr hfailed =>
      obtain ⟨hnot, error, hanswer⟩ := hfailed
      rw [hanswer]
      exact .inr ⟨hnot, _, rfl⟩

/-- What a replacement can do: it stops between its renames, or it puts the staged file in
place or changes nothing. -/
theorem replaceHelper_cases (host : InstallHost call.platform) {d : HelperDirectory}
    (htemp : (d call.temp).isSome) :
    (StopsReplacing call host d ∧ ∃ error, (replaceHelper call).run host.answer d =
        (.error error, d.move call.destination call.displacedPath)) ∨
      ¬ StopsReplacing call host d ∧
        ((∃ d', (replaceHelper call).run host.answer d = (.ok (), d') ∧
            d' call.destination = d call.temp) ∨
          ∃ error, (replaceHelper call).run host.answer d = (.error error, d)) := by
  rw [replaceHelper]
  split
  · rename_i hunix
    refine .inr ⟨fun h => absurd (hunix.symm.trans h.windows) (by decide), ?_⟩
    rw [run_ask]
    cases rename_cases host d call.temp call.destination with
    | inl hmoved =>
        rw [hmoved.2.2]
        exact .inl ⟨_, rfl, move_new d _ _⟩
    | inr hfailed =>
        obtain ⟨-, error, hanswer⟩ := hfailed
        rw [hanswer]
        exact .inr ⟨_, rfl⟩
  · rename_i hwindows
    cases moveAside_cases host d with
    | inr hstays =>
        obtain ⟨hnot, result, hrun⟩ := hstays
        refine .inr ⟨fun h => hnot h.toMovesAside, ?_⟩
        cases result with
        | error error => exact .inr ⟨error, run_bind_fail hrun _⟩
        | ok value =>
            rw [run_bind_ok hrun]
            cases takePlace_cases host d with
            | inl hplaced =>
                obtain ⟨d', hrun, -, hnew⟩ := hplaced
                exact .inl ⟨d', hrun, hnew⟩
            | inr hfailed => exact .inr hfailed.2
    | inl hmoved =>
        obtain ⟨hmoves, hrun⟩ := hmoved
        have haside : d.move call.destination call.displacedPath call.temp = d call.temp :=
          move_other (temp_ne_destination call) (displacedPath_ne_temp call).symm
        rw [run_bind_ok hrun]
        cases takePlace_cases host (d.move call.destination call.displacedPath) with
        | inl hplaced =>
            obtain ⟨d', hrun, hfault, hnew⟩ := hplaced
            refine .inr ⟨fun h => ?_, .inl ⟨d', hrun, hnew.trans haside⟩⟩
            have hstops := h.stops
            rw [hfault] at hstops
            cases hstops
        | inr hfailed =>
            obtain ⟨hnot, hrun⟩ := hfailed
            refine .inl ⟨⟨hmoves, hwindows, ?_⟩, hrun⟩
            have hfree : call.platform.refuses
                (d.move call.destination call.displacedPath) call.destination = false := by
              rw [Platform.refuses, move_old (displacedPath_ne_destination call).symm]
              exact Bool.and_false _
            rw [haside] at hnot
            exact Option.isSome_iff_ne_none.mpr fun hnone => hnot ⟨htemp, hnone, hfree⟩

end Replacement

section Installation

variable {call : HelperInstall} {host : InstallHost call.platform} {d d' : HelperDirectory}

/-- A stop depends on what is installed and on who holds the parked name. -/
theorem StopsReplacing.of_same (hplace : d' call.destination = d call.destination)
    (hheld : call.platform.refuses d' call.displacedPath =
      call.platform.refuses d call.displacedPath)
    (h : StopsReplacing call host d) : StopsReplacing call host d' where
  seen := h.seen
  installed := by
    rw [hplace]
    exact h.installed
  allowed := ⟨h.allowed.1, hheld.trans h.allowed.2⟩
  windows := h.windows
  stops := h.stops

/-- The call has failed with the previous helper parked and nothing in its place. -/
inductive Loses (call : HelperInstall) (d : HelperDirectory) :
    Except InstallError Unit × HelperDirectory → Prop
  | parked {error : InstallError} {d' : HelperDirectory} (gone : d' call.destination = none)
      (parked : d' call.displacedPath = d call.destination) : Loses call d (.error error, d')

/-- The call has installed the bundled helper, or has failed and left the destination. -/
inductive Spares (call : HelperInstall) (host : InstallHost call.platform)
    (d : HelperDirectory) : Except InstallError Unit × HelperDirectory → Prop
  | installed {d' : HelperDirectory} (bundled : host.source.isSome)
      (content : (d' call.destination).map HelperFile.content =
        host.source.map HelperFile.content) : Spares call host d (.ok (), d')
  | failed {error : InstallError} {d' : HelperDirectory}
      (same : d' call.destination = d call.destination) : Spares call host d (.error error, d')

/-- What the call can do after the comparison. -/
theorem placeHelper_cases (host : InstallHost call.platform) (d : HelperDirectory) :
    ((StopsReplacing call host d ∧ host.source.isSome ∧
          host.Allows (.copy call.temp) d call.temp) ∧
        Loses call d ((placeHelper call).run host.answer d)) ∨
      ¬ (StopsReplacing call host d ∧ host.source.isSome ∧
          host.Allows (.copy call.temp) d call.temp) ∧
        Spares call host d ((placeHelper call).run host.answer d) := by
  rw [placeHelper]
  cases stageHelper_cases host d with
  | inr hfailed =>
      obtain ⟨hnot, error, d', hrun, hkept⟩ := hfailed
      rw [run_bind_fail hrun]
      exact .inr ⟨fun h => hnot ⟨h.1.windows, h.2⟩,
        .failed (hkept _ (temp_ne_destination call).symm)⟩
  | inl hstaged =>
      obtain ⟨staged, hrun, hcopies, hother, htemp⟩ := hstaged
      rw [run_bind_ok hrun]
      have hplace := hother _ (temp_ne_destination call).symm
      have hheld : call.platform.refuses staged call.displacedPath =
          call.platform.refuses d call.displacedPath := by
        rw [Platform.refuses, Platform.refuses, hother _ (displacedPath_ne_temp call)]
      have hpresent : (staged call.temp).isSome := by
        rw [← Option.isSome_map, htemp, Option.isSome_map]
        exact hcopies.1
      cases replaceHelper_cases host hpresent with
      | inl hstopped =>
          obtain ⟨hstops, error, hrun⟩ := hstopped
          rw [hrun]
          refine .inl ⟨⟨hstops.of_same hplace.symm hheld.symm, hcopies⟩, ?_⟩
          refine .parked (move_old (displacedPath_ne_destination call).symm) ?_
          exact (move_new staged _ _).trans hplace
      | inr hspared =>
          obtain ⟨hnot, hdone⟩ := hspared
          refine .inr ⟨fun h => hnot (h.1.of_same hplace hheld), ?_⟩
          cases hdone with
          | inl hok =>
              obtain ⟨d', hrun, hnew⟩ := hok
              rw [hrun]
              refine .installed hcopies.1 ?_
              rw [hnew, htemp]
          | inr hfailed =>
              obtain ⟨error, hrun⟩ := hfailed
              rw [hrun]
              exact .failed hplace

theorem Loses.of_same {run : Except InstallError Unit × HelperDirectory}
    (hplace : d' call.destination = d call.destination) (h : Loses call d' run) :
    Loses call d run := by
  cases h with
  | parked gone parked => exact .parked gone (parked.trans hplace)

theorem Spares.of_same {run : Except InstallError Unit × HelperDirectory}
    (hplace : d' call.destination = d call.destination) (h : Spares call host d' run) :
    Spares call host d run := by
  cases h with
  | installed bundled content => exact .installed bundled content
  | failed same => exact .failed (same.trans hplace)

/-- A sweep keeps what a stop depends on. -/
theorem StoppedBetween.of_same (hplace : d' call.destination = d call.destination)
    (hheld : ∀ name, call.platform.refuses d' name = call.platform.refuses d name)
    (h : StoppedBetween call host d) : StoppedBetween call host d' where
  toStopsReplacing := h.toStopsReplacing.of_same hplace (hheld _)
  differs := (compares_congr hplace).trans h.differs
  bundled := h.bundled
  copies := ⟨h.copies.1, (hheld _).trans h.copies.2⟩

/-- What an installation can do. -/
theorem installHelper_cases (host : InstallHost call.platform) (d : HelperDirectory) :
    (StoppedBetween call host d ∧ Loses call d ((installHelper call).run host.answer d)) ∨
      ¬ StoppedBetween call host d ∧
        Spares call host d ((installHelper call).run host.answer d) := by
  obtain ⟨swept, hrun, hkept, hheld⟩ := sweepDisplaced_run host call.destination d
  have hplace := hkept _ (not_parked_destination call)
  rw [installHelper, run_bind_ok hrun]
  cases hcompares : host.compares d call.destination with
  | error error =>
      have hrun : (isInstalled call.destination).run host.answer swept =
          (.error ⟨none, error⟩, swept) := by
        rw [isInstalled_run, compares_congr hplace, hcompares]
        rfl
      rw [run_bind_fail hrun]
      refine .inr ⟨fun h => ?_, .failed hplace⟩
      cases hcompares.symm.trans h.differs
  | ok installed =>
      have hrun : (isInstalled call.destination).run host.answer swept =
          (.ok installed, swept) := by
        rw [isInstalled_run, compares_congr hplace, hcompares]
        rfl
      rw [run_bind_ok hrun]
      cases installed with
      | true =>
          obtain ⟨hbundled, hcontent⟩ := compares_true hcompares
          refine .inr ⟨fun h => ?_, ?_⟩
          · cases hcompares.symm.trans h.differs
          · simp only [if_true]
            cases restrictHelper_cases host swept call.destination with
            | inl hok =>
                obtain ⟨d', hrun, -, hsame⟩ := hok
                rw [hrun]
                refine .installed hbundled ?_
                rw [hsame, hplace, hcontent]
            | inr hfailed =>
                obtain ⟨-, error, hrun⟩ := hfailed
                rw [hrun]
                exact .failed hplace
      | false =>
          simp only [Bool.false_eq_true, if_false]
          cases placeHelper_cases host swept with
          | inl hlost =>
              obtain ⟨⟨hstops, hbundled, hcopies⟩, hlost⟩ := hlost
              refine .inl ⟨?_, ?_⟩
              · refine StoppedBetween.of_same hplace.symm (fun name => (hheld name).symm) ?_
                exact ⟨hstops, (compares_congr hplace).trans hcompares, hbundled, hcopies⟩
              · exact hlost.of_same hplace
          | inr hspared =>
              obtain ⟨hnot, hspared⟩ := hspared
              refine .inr ⟨fun h => ?_, ?_⟩
              · have h' := h.of_same hplace hheld
                exact hnot ⟨h'.toStopsReplacing, h'.bundled, h'.copies⟩
              · exact hspared.of_same hplace

/-- A failed installation leaves a complete helper exactly if it does not stop between moving
the previous helper aside and renaming the new one. -/
theorem install_keeps_helper_iff (call : HelperInstall) (host : InstallHost call.platform)
    (d : HelperDirectory) : KeepsHelper call host d ↔ ¬ StoppedBetween call host d := by
  constructor
  · intro hkeeps hstopped
    have hlost := ((installHelper_cases host d).resolve_right fun h => h.1 hstopped).2
    obtain ⟨previous, hprevious⟩ := Option.isSome_iff_exists.mp hstopped.installed
    cases hrun : (installHelper call).run host.answer d
    rw [hrun] at hlost
    cases hlost with
    | parked gone parked =>
        obtain ⟨file, hfile, -⟩ := hkeeps _ _ previous hrun hprevious
        rw [gone] at hfile
        cases hfile
  · intro hnot error d' previous hrun hprevious
    have hspared := ((installHelper_cases host d).resolve_left fun h => hnot h.1).2
    rw [hrun] at hspared
    cases hspared with
    | failed same => exact ⟨previous, same.trans hprevious, .inl rfl⟩

def interruptedInstall : HelperInstall :=
  ⟨.windows, .aisshd, "C:\\aissh\\bin", "C:\\AI SSH\\aisshd.exe", 7, 12⟩

/-- The new helper is staged, and a scanner holds the staged file when it is to be renamed. -/
def interruptingHost : InstallHost .windows where
  source := some ⟨[2], 0, false⟩
  listing := .ok [.ok "aisshd.exe".toList]
  fault op :=
    if op = .rename "aisshd.installing".toList "aisshd.exe".toList then some fileInUse else none
  copied := none

def runningHelper : HelperDirectory :=
  Function.update (fun _ => none) "aisshd.exe".toList (some ⟨[1], 0, true⟩)

theorem interrupted_install_loses_helper :
    ¬ KeepsHelper interruptedInstall interruptingHost runningHelper := by
  intro h
  obtain ⟨file, hfile, -⟩ := h ⟨none, fileInUse⟩ _ ⟨[1], 0, true⟩ rfl rfl
  cases hfile

end Installation

end AiSsh
