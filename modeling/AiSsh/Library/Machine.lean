import Mathlib.Logic.Basic

/-!
Machines whose steps are guarded: an action that is not enabled in a state has
no successor. A run is a list of actions, so a concrete run is evaluated by the
kernel and a statement about every run is an induction over that list.

An observer reads the state of a machine without changing it and moves between
its steps. Every interleaving of the two is a run of the observed machine.
-/

namespace AiSsh.Library

universe u v w x

/-- `step s a` is the state after `a`, or `none` when `s` does not enable `a`. -/
structure Machine (S : Type u) (A : Type v) where
  step : S → A → Option S

namespace Machine

variable {S : Type u} {A : Type v} (M : Machine S A)

def run : S → List A → Option S
  | s, [] => some s
  | s, a :: as => (M.step s a).bind fun s' => run s' as

@[simp] theorem run_nil (s : S) : M.run s [] = some s := rfl

theorem run_cons (s : S) (a : A) (as : List A) :
    M.run s (a :: as) = (M.step s a).bind fun s' => M.run s' as := rfl

theorem run_cons_some {s t : S} {a : A} {as : List A} :
    M.run s (a :: as) = some t ↔ ∃ s', M.step s a = some s' ∧ M.run s' as = some t := by
  simp [run_cons, Option.bind_eq_some_iff]

theorem run_append (s : S) (as bs : List A) :
    M.run s (as ++ bs) = (M.run s as).bind fun s' => M.run s' bs := by
  induction as generalizing s with
  | nil => rfl
  | cons a as ih =>
      cases h : M.step s a with
      | none => simp [run_cons, h]
      | some s' => simp [run_cons, h, ih]

theorem run_append_some {s t : S} {as bs : List A} :
    M.run s (as ++ bs) = some t ↔ ∃ m, M.run s as = some m ∧ M.run m bs = some t := by
  simp [run_append, Option.bind_eq_some_iff]

def Reachable (s t : S) : Prop := ∃ as, M.run s as = some t

/-- `C` holds of every step the run takes, in the state that takes it. -/
def Meets (C : S → A → Prop) : S → List A → Prop
  | _, [] => True
  | s, a :: as => C s a ∧ ∀ s', M.step s a = some s' → Meets C s' as

instance decidableMeets (C : S → A → Prop) [∀ s a, Decidable (C s a)] :
    ∀ s as, Decidable (M.Meets C s as)
  | _, [] => isTrue trivial
  | s, a :: as =>
      match h : M.step s a with
      | none => decidable_of_iff (C s a) (by simp [Meets, h])
      | some s' =>
          have := decidableMeets C s' as
          decidable_of_iff (C s a ∧ M.Meets C s' as) (by simp [Meets, h])

theorem meets_and {C D : S → A → Prop} {s : S} {as : List A} :
    M.Meets (fun s a => C s a ∧ D s a) s as ↔ M.Meets C s as ∧ M.Meets D s as := by
  induction as generalizing s with
  | nil => simp [Meets]
  | cons a as ih =>
      simp only [Meets, ih]
      constructor
      · rintro ⟨⟨hC, hD⟩, hrest⟩
        exact ⟨⟨hC, fun s' hs' => (hrest s' hs').1⟩, hD, fun s' hs' => (hrest s' hs').2⟩
      · rintro ⟨⟨hC, hrestC⟩, hD, hrestD⟩
        exact ⟨⟨hC, hD⟩, fun s' hs' => ⟨hrestC s' hs', hrestD s' hs'⟩⟩

theorem meets_congr {C D : S → A → Prop} (h : ∀ s a, C s a ↔ D s a) {s : S} {as : List A} :
    M.Meets C s as ↔ M.Meets D s as := by
  induction as generalizing s with
  | nil => exact Iff.rfl
  | cons a as ih => exact and_congr (h s a) (forall_congr' fun _ => imp_congr_right fun _ => ih)

/-- What every step that meets `C` preserves, a run of such steps preserves. -/
theorem invariant_under {C : S → A → Prop} {I : S → Prop}
    (hstep : ∀ s a s', I s → C s a → M.step s a = some s' → I s')
    {s t : S} {as : List A} (hs : I s) (hmeets : M.Meets C s as)
    (hrun : M.run s as = some t) : I t := by
  induction as generalizing s with
  | nil =>
      cases hrun
      exact hs
  | cons a as ih =>
      obtain ⟨s', hs', hr⟩ := M.run_cons_some.mp hrun
      exact ih (hstep s a s' hs hmeets.1 hs') (hmeets.2 s' hs') hr

theorem meets_true (s : S) (as : List A) : M.Meets (fun _ _ => True) s as := by
  induction as generalizing s with
  | nil => trivial
  | cons a as ih => exact ⟨trivial, fun s' _ => ih s'⟩

/-- What a step between two states of `P` preserves, a run along such states preserves. -/
theorem invariant_between {P I : S → Prop}
    (hstep : ∀ s a s', I s → P s → P s' → M.step s a = some s' → I s')
    {s t : S} {as : List A} (hs : I s) (hmeets : M.Meets (fun s _ => P s) s as) (ht : P t)
    (hrun : M.run s as = some t) : I t := by
  induction as generalizing s with
  | nil =>
      cases hrun
      exact hs
  | cons a as ih =>
      obtain ⟨s', hs', hr⟩ := M.run_cons_some.mp hrun
      have hrest := hmeets.2 s' hs'
      have hP : P s' := by
        cases as with
        | nil =>
            cases hr
            exact ht
        | cons b bs => exact hrest.1
      exact ih (hstep s a s' hs hmeets.1 hP hs') hrest hr

theorem meets_of_forall_mem {C : A → Prop} {s : S} {as : List A} (h : ∀ a ∈ as, C a) :
    M.Meets (fun _ a => C a) s as := by
  induction as generalizing s with
  | nil => trivial
  | cons a as ih =>
      exact ⟨h a List.mem_cons_self, fun s' _ => ih fun a ha => h a (List.mem_cons_of_mem _ ha)⟩

theorem invariant {I : S → Prop}
    (hstep : ∀ s a s', I s → M.step s a = some s' → I s')
    {s t : S} {as : List A} (hs : I s) (hrun : M.run s as = some t) : I t :=
  M.invariant_under (C := fun _ _ => True) (fun s a s' h _ => hstep s a s' h) hs
    (M.meets_true s as) hrun

/-- A state property and a property of the steps taken, established together. -/
theorem meets_of_invariant {C D : S → A → Prop} {I : S → Prop}
    (hstep : ∀ s a s', I s → C s a → M.step s a = some s' → I s')
    (hD : ∀ s a s', I s → C s a → M.step s a = some s' → D s a)
    {s t : S} {as : List A} (hs : I s) (hmeets : M.Meets C s as)
    (hrun : M.run s as = some t) : M.Meets D s as := by
  induction as generalizing s with
  | nil => trivial
  | cons a as ih =>
      obtain ⟨s', hs', hr⟩ := M.run_cons_some.mp hrun
      refine ⟨hD s a s' hs hmeets.1 hs', ?_⟩
      intro s'' hs''
      cases hs'.symm.trans hs''
      exact ih (hstep s a s' hs hmeets.1 hs') (hmeets.2 s' hs') hr

/-- What no step brings about holds all along a run that ends with it. -/
theorem back {K : S → Prop} (hback : ∀ s a s', M.step s a = some s' → K s' → K s)
    {s t : S} {as : List A} (hrun : M.run s as = some t) (ht : K t) : K s := by
  induction as generalizing s with
  | nil =>
      cases hrun
      exact ht
  | cons a as ih =>
      obtain ⟨s', hs', hr⟩ := M.run_cons_some.mp hrun
      exact hback s a s' hs' (ih hr)

/-- A property of the steps taken that can be read off the end of a run. -/
theorem meets_of_back {C D : S → A → Prop} {I K : S → Prop}
    (hstep : ∀ s a s', I s → C s a → M.step s a = some s' → I s')
    (hback : ∀ s a s', I s → C s a → M.step s a = some s' → K s' → K s ∧ D s a)
    {s t : S} {as : List A} (hs : I s) (hmeets : M.Meets C s as)
    (hrun : M.run s as = some t) (ht : K t) : K s ∧ M.Meets D s as := by
  induction as generalizing s with
  | nil =>
      cases hrun
      exact ⟨ht, trivial⟩
  | cons a as ih =>
      obtain ⟨s', hs', hr⟩ := M.run_cons_some.mp hrun
      obtain ⟨hK, hrest⟩ := ih (hstep s a s' hs hmeets.1 hs') (hmeets.2 s' hs') hr
      obtain ⟨hKs, hD⟩ := hback s a s' hs hmeets.1 hs' hK
      refine ⟨hKs, hD, ?_⟩
      intro s'' hs''
      cases hs'.symm.trans hs''
      exact hrest

/-- A property that a step keeps exactly when it meets `C`, in runs that end with
`K`, is kept by a run exactly when all its steps meet `C`. -/
theorem meets_iff {C : S → A → Prop} {I K P : S → Prop}
    (hback : ∀ s a s', M.step s a = some s' → K s' → K s)
    (hstep : ∀ s a s', I s → K s' → M.step s a = some s' → I s' ∧ (P s' ↔ P s ∧ C s a))
    {s t : S} {as : List A} (hs : I s) (hrun : M.run s as = some t) (ht : K t) :
    I t ∧ (P t ↔ P s ∧ M.Meets C s as) := by
  induction as generalizing s with
  | nil =>
      cases hrun
      exact ⟨hs, by simp [Meets]⟩
  | cons a as ih =>
      obtain ⟨s', hs', hr⟩ := M.run_cons_some.mp hrun
      obtain ⟨hI, hP⟩ := hstep s a s' hs (M.back hback hr ht) hs'
      obtain ⟨hIt, hPt⟩ := ih hI hr
      refine ⟨hIt, ?_⟩
      rw [hPt, hP, and_assoc]
      simp [Meets, hs']

/-- `P` at every state of a run and `C` at every step of it, when a step from `P`
keeps both exactly if it meets `D`. -/
theorem meets_and_iff {P : S → Prop} {C D : S → A → Prop}
    (hstep : ∀ s a s', P s → M.step s a = some s' → (P s' ∧ C s a ↔ D s a))
    {s t : S} {as : List A} (hrun : M.run s as = some t) :
    M.Meets (fun s a => P s ∧ C s a) s as ∧ P t ↔ P s ∧ M.Meets D s as := by
  induction as generalizing s with
  | nil =>
      cases hrun
      simp [Meets]
  | cons a as ih =>
      obtain ⟨s', hs', hr⟩ := M.run_cons_some.mp hrun
      simp only [Meets, hs', Option.some.injEq, forall_eq', and_assoc]
      refine and_congr_right fun hs => ?_
      rw [ih hr, ← and_assoc, and_comm (a := C s a), hstep s a s' hs hs']

/-- `R` at every state of a run and `C` at every step of it, when a strengthening `P` of
`R` is kept by the steps that meet `D`, and only these lead from `P` to `R`. -/
theorem meets_iff_of_keeps {P R : S → Prop} {C D : S → A → Prop} (hR : ∀ s, P s → R s)
    (hkeep : ∀ s a s', P s → D s a → M.step s a = some s' → P s' ∧ C s a)
    (hneed : ∀ s a s', P s → M.step s a = some s' → R s' → D s a)
    {s t : S} {as : List A} (hs : P s) (hrun : M.run s as = some t) :
    M.Meets (fun s a => R s ∧ C s a) s as ∧ R t ↔ M.Meets D s as := by
  induction as generalizing s with
  | nil =>
      cases hrun
      simp [Meets, hR _ hs]
  | cons a as ih =>
      obtain ⟨s', hs', hr⟩ := M.run_cons_some.mp hrun
      simp only [Meets, hs', Option.some.injEq, forall_eq']
      constructor
      · intro h
        have hR' : R s' := by
          cases as with
          | nil =>
              cases hr
              exact h.2
          | cons b bs => exact h.1.2.1.1
        have hD := hneed s a s' hs hs' hR'
        exact ⟨hD, (ih (hkeep s a s' hs hD hs').1 hr).mp ⟨h.1.2, h.2⟩⟩
      · intro h
        obtain ⟨hP, hC⟩ := hkeep s a s' hs h.1 hs'
        obtain ⟨hrest, ht⟩ := (ih hP hr).mpr h.2
        exact ⟨⟨⟨hR s hs, hC⟩, hrest⟩, ht⟩

/-- The machine that takes only the steps that `p` lets through. -/
def guard (p : S → A → Bool) : Machine S A where
  step s a := if p s a then M.step s a else none

theorem guard_step {p : S → A → Bool} {s s' : S} {a : A}
    (h : (M.guard p).step s a = some s') : p s a = true ∧ M.step s a = some s' := by
  simp only [guard] at h
  split at h
  · exact ⟨‹_›, h⟩
  · cases h

section Observer

variable {R : Type w} {B : Type x} (look : S → R → B → Option R)

/-- The machine together with a reader: either the machine moves and the reader
keeps its place, or the reader moves on what the machine shows it. -/
def observed : Machine (S × R) (A ⊕ B) where
  step
    | (s, r), .inl a => (M.step s a).map fun s' => (s', r)
    | (s, r), .inr b => (look s r b).map fun r' => (s, r')

theorem observed_inl {s : S} {r : R} {a : A} {q : S × R} :
    (M.observed look).step (s, r) (.inl a) = some q ↔
      ∃ s', M.step s a = some s' ∧ q = (s', r) := by
  simp only [observed, Option.map_eq_some_iff]
  exact exists_congr fun s' => and_congr_right fun _ => eq_comm

theorem observed_inr {s : S} {r : R} {b : B} {q : S × R} :
    (M.observed look).step (s, r) (.inr b) = some q ↔
      ∃ r', look s r b = some r' ∧ q = (s, r') := by
  simp only [observed, Option.map_eq_some_iff]
  exact exists_congr fun r' => and_congr_right fun _ => eq_comm

/-- An invariant of the observed machine follows from the moves of each side. -/
theorem observed_invariant_under {C : S × R → A ⊕ B → Prop} {I : S → R → Prop}
    (hmove : ∀ s r a s', I s r → C (s, r) (.inl a) → M.step s a = some s' → I s' r)
    (hlook : ∀ s r b r', I s r → C (s, r) (.inr b) → look s r b = some r' → I s r')
    {p q : S × R} {as : List (A ⊕ B)} (hp : I p.1 p.2)
    (hmeets : (M.observed look).Meets C p as)
    (hrun : (M.observed look).run p as = some q) : I q.1 q.2 := by
  refine (M.observed look).invariant_under (I := fun p => I p.1 p.2) ?_ hp hmeets hrun
  rintro ⟨s, r⟩ (a | b) q' hI hC hstep
  · obtain ⟨s', hs, rfl⟩ := (M.observed_inl look).mp hstep
    exact hmove s r a s' hI hC hs
  · obtain ⟨r', hr, rfl⟩ := (M.observed_inr look).mp hstep
    exact hlook s r b r' hI hC hr

theorem observed_invariant {I : S → R → Prop}
    (hmove : ∀ s r a s', I s r → M.step s a = some s' → I s' r)
    (hlook : ∀ s r b r', I s r → look s r b = some r' → I s r')
    {p q : S × R} {as : List (A ⊕ B)} (hp : I p.1 p.2)
    (hrun : (M.observed look).run p as = some q) : I q.1 q.2 :=
  M.observed_invariant_under look (C := fun _ _ => True)
    (fun s r a s' h _ => hmove s r a s' h) (fun s r b r' h _ => hlook s r b r' h) hp
    ((M.observed look).meets_true p as) hrun

end Observer

end Machine
end AiSsh.Library
