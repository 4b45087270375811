import AiSsh.Library.Groups

/-!
The check that a file is open to its owner alone, on Windows: the DACL of the file is
rendered as text, and the text is taken apart at its parentheses and semicolons. A
conditional entry carries an expression behind its six fields, and the parentheses of the
expression are taken for those of entries.
-/

namespace AiSsh

open Library

namespace Permissions

abbrev Text := List Char

def localSystem : Text := "SY".toList

def administrators : Text := "BA".toList

def creatorOwner : Text := "CO".toList

def allowed (owner : Text) : List Text := [owner, localSystem, administrators, creatorOwner]

/-- The fields of every entry. -/
def aceFields (dacl : Text) : List (List Text) :=
  (groups '(' ')' dacl).map fun ace => ace.splitOn ';'

def aceKind (fields : List Text) : Text := fields.head?.getD []

def aceGranted (fields : List Text) : Text := fields[5]?.getD []

/-- The body of the loop over the entries. -/
def checkAce (owner : Text) (fields : List Text) : Except String Unit :=
  if aceKind fields = "A".toList then
    if aceGranted fields ∈ allowed owner then .ok ()
    else .error (String.ofList (aceGranted fields) ++ " is granted access")
  else if aceKind fields = "OA".toList then
    .error "object ACE on a file that must stay owner-only"
  else .ok ()

def checkAces (owner : Text) : List (List Text) → Except String Unit
  | [] => .ok ()
  | fields :: rest => do
      checkAce owner fields
      checkAces owner rest

/-- `check` of a file whose DACL is rendered as `dacl`, by the account `owner`. -/
def check (dacl owner : Text) : Except String Unit := checkAces owner (aceFields dacl)

end Permissions

open Permissions

/-- An entry of a DACL. The expression of a conditional entry is any text. -/
structure Ace where
  kind : Text
  flags : Text
  rights : Text
  objectGuid : Text
  inheritObjectGuid : Text
  account : Text
  expression : Option Text
  deriving DecidableEq, Repr

namespace Ace

def fields (ace : Ace) : List Text :=
  [ace.kind, ace.flags, ace.rights, ace.objectGuid, ace.inheritObjectGuid, ace.account]

/-- What stands between the parentheses of the entry. -/
def body (ace : Ace) : Text :=
  [';'].intercalate ace.fields ++
    match ace.expression with
    | none => []
    | some expression => ";(".toList ++ expression ++ [')']

def render (ace : Ace) : Text := '(' :: ace.body ++ [')']

/-- The fields are plain, and every entry names an account. -/
structure WellFormed (ace : Ace) : Prop where
  plain : ∀ field ∈ ace.fields, '(' ∉ field ∧ ')' ∉ field ∧ ';' ∉ field
  named : ace.account ≠ []

/-- The types of entries that can grant access. -/
def grants (ace : Ace) : Bool :=
  ["A".toList, "OA".toList, "XA".toList, "ZA".toList].contains ace.kind

/-- The types of entries that grant access under a condition. -/
def grantsConditionally (ace : Ace) : Bool := ["XA".toList, "ZA".toList].contains ace.kind

theorem grants_iff {ace : Ace} : ace.grants = true ↔
    ace.kind = "A".toList ∨ ace.kind = "OA".toList ∨ ace.grantsConditionally = true := by
  simp [grants, grantsConditionally]

/-- What the check takes for entries behind this one. -/
def fragments (ace : Ace) : List (List Text) := (aceFields ace.render).tail

end Ace

structure Dacl where
  flags : Text
  aces : List Ace
  flagsPlain : '(' ∉ flags
  wellFormed : ∀ ace ∈ aces, ace.WellFormed

namespace Dacl

def render (dacl : Dacl) : Text := "D:".toList ++ dacl.flags ++ dacl.aces.flatMap Ace.render

/-- Every entry that grants access names an allowed account, and no account that is
compared is empty or missing. -/
structure OwnerOnly (dacl : Dacl) (owner : Text) : Prop where
  accounts : ∀ ace ∈ dacl.aces, ace.grants = true → ace.account ∈ allowed owner
  compared : ∀ fields ∈ aceFields dacl.render, aceKind fields = "A".toList → aceGranted fields ≠ []

/-- An entry, or a piece of an expression, is refused. -/
def Refused (dacl : Dacl) (owner : Text) : Prop :=
  ∃ ace ∈ dacl.aces, ace.kind = "A".toList ∧ ace.account ∉ allowed owner ∨
    ace.kind = "OA".toList ∨ ∃ fields ∈ ace.fragments, checkAce owner fields ≠ .ok ()

/-- The conditional entries name allowed accounts. -/
def ConditionsAllowed (dacl : Dacl) (owner : Text) : Prop :=
  ∀ ace ∈ dacl.aces, ace.grantsConditionally = true → ace.account ∈ allowed owner

/-- The owner is known, or no piece of an expression is taken for an entry that names no
account. -/
def OwnerKnown (dacl : Dacl) (owner : Text) : Prop :=
  owner ≠ [] ∨ ∀ ace ∈ dacl.aces, ∀ fields ∈ ace.fragments,
    aceKind fields = "A".toList → aceGranted fields ≠ []

end Dacl

namespace Permissions

variable {owner : Text}

theorem checkAces_ok {aces : List (List Text)} :
    checkAces owner aces = .ok () ↔ ∀ fields ∈ aces, checkAce owner fields = .ok () := by
  induction aces with
  | nil => simp [checkAces]
  | cons fields rest ih =>
      rw [checkAces, List.forall_mem_cons, ← ih]
      cases checkAce owner fields with
      | error e => simp [bind, Except.bind]
      | ok u => simp [bind, Except.bind]

theorem checkAce_ok {fields : List Text} :
    checkAce owner fields = .ok () ↔
      (aceKind fields = "A".toList → aceGranted fields ∈ allowed owner) ∧
        aceKind fields ≠ "OA".toList := by
  rw [checkAce]
  split
  · rename_i hkind
    have hne : aceKind fields ≠ "OA".toList := by
      rw [hkind]
      decide
    split <;> simp_all
  · split <;> simp_all

/-- When the owner is known no missing account is allowed. -/
theorem ne_nil_of_allowed {account : Text} (howner : owner ≠ []) (h : account ∈ allowed owner) :
    account ≠ [] := by
  intro hempty
  rw [hempty] at h
  simp [allowed, localSystem, administrators, creatorOwner, howner.symm] at h

end Permissions

namespace Ace

variable {ace : Ace} {owner : Text}

/-- The six fields as they are written. -/
def joined (ace : Ace) : Text := [';'].intercalate ace.fields

theorem closing_not_mem_joined (h : ace.WellFormed) : ')' ∉ ace.joined := by
  have hplain := fun field hfield => (h.plain field hfield).2.1
  simp only [fields, List.forall_mem_cons] at hplain
  simp [joined, fields, List.intercalate, hplain]

theorem splitOn_joined (h : ace.WellFormed) : ace.joined.splitOn ';' = ace.fields :=
  List.splitOn_intercalate ';' (fun field hfield => (h.plain field hfield).2.2)
    (List.cons_ne_nil _ _)

/-- The first group of an entry starts with its six fields. -/
theorem aceFields_render (h : ace.WellFormed) :
    ∃ rest, aceFields ace.render = (ace.fields ++ rest) :: ace.fragments := by
  have hclosing := closing_not_mem_joined h
  cases hexpression : ace.expression with
  | none =>
      have hrender : ace.render = '(' :: ace.joined ++ ')' :: [] := by
        rw [render, body, hexpression, List.append_nil, joined]
      have hfields : aceFields ace.render = ace.fields :: (groups '(' ')' []).map fun ace =>
          ace.splitOn ';' := by
        rw [aceFields, hrender, groups_cons hclosing, List.map_cons, splitOn_joined h]
      exact ⟨[], by rw [fragments, hfields, List.append_nil, List.tail_cons]⟩
  | some expression =>
      obtain ⟨before, after, hsplit, hbefore⟩ := List.eq_append_cons_of_mem
        (show ')' ∈ "(".toList ++ expression ++ [')', ')'] by simp)
      have hrender : ace.render = '(' :: (ace.joined ++ ';' :: before) ++ ')' :: after := by
        rw [render, body, hexpression]
        simp only [List.cons_append, List.append_assoc, ← hsplit, joined]
        rfl
      have hplain : ')' ∉ ace.joined ++ ';' :: before := by
        simp [hclosing, hbefore]
      have hfields : aceFields ace.render = (ace.fields ++ before.splitOn ';') ::
          (groups '(' ')' after).map fun ace => ace.splitOn ';' := by
        rw [aceFields, hrender, groups_cons hplain, List.map_cons, List.splitOn_append_cons_self,
          splitOn_joined h]
      exact ⟨before.splitOn ';', by rw [fragments, hfields, List.tail_cons]⟩

theorem granted_append (rest : List Text) : aceGranted (ace.fields ++ rest) = ace.account := rfl

end Ace

namespace Dacl

theorem aceFields_render (dacl : Dacl) :
    aceFields dacl.render = dacl.aces.flatMap fun ace => aceFields ace.render := by
  have hprefix : '(' ∉ "D:".toList ++ dacl.flags := by
    rw [List.mem_append, not_or]
    exact ⟨by decide, dacl.flagsPlain⟩
  have hrender : dacl.aces.flatMap Ace.render =
      dacl.aces.flatMap fun ace => ('(' :: ace.body) ++ [')'] := rfl
  rw [aceFields, render, groups_skip hprefix, hrender, groups_flatMap _ _ (by decide),
    List.map_flatMap]
  rfl

variable {dacl : Dacl} {owner : Text}

theorem mem_of_fragment {ace : Ace} (hace : ace ∈ dacl.aces) {fields : List Text}
    (h : fields ∈ ace.fragments) : fields ∈ aceFields dacl.render := by
  rw [aceFields_render]
  exact List.mem_flatMap.mpr ⟨ace, hace, List.mem_of_mem_tail h⟩

/-- The check goes over each entry of the DACL, and over the pieces of its expression. -/
theorem entry_or_fragment {fields : List Text} (h : fields ∈ aceFields dacl.render) :
    ∃ ace ∈ dacl.aces, (∃ rest, fields = ace.fields ++ rest) ∨ fields ∈ ace.fragments := by
  rw [aceFields_render] at h
  obtain ⟨ace, hace, hmem⟩ := List.mem_flatMap.mp h
  obtain ⟨rest, hfields⟩ := Ace.aceFields_render (dacl.wellFormed ace hace)
  rw [hfields] at hmem
  exact ⟨ace, hace, (List.mem_cons.mp hmem).imp_left fun h => ⟨rest, h⟩⟩

/-- What the check accepts. -/
theorem check_ok : check dacl.render owner = .ok () ↔
    ∀ ace ∈ dacl.aces, (ace.kind = "A".toList → ace.account ∈ allowed owner) ∧
      ace.kind ≠ "OA".toList ∧ ∀ fields ∈ ace.fragments, checkAce owner fields = .ok () := by
  rw [check, checkAces_ok, aceFields_render]
  simp only [List.mem_flatMap, forall_exists_index, and_imp]
  constructor
  · intro h ace hace
    obtain ⟨rest, hfields⟩ := Ace.aceFields_render (dacl.wellFormed ace hace)
    have hfirst := checkAce_ok.mp (h _ ace hace (hfields ▸ List.mem_cons_self))
    exact ⟨hfirst.1, hfirst.2, fun fields hmem =>
      h fields ace hace (hfields ▸ List.mem_cons_of_mem _ hmem)⟩
  · intro h fields ace hace hmem
    obtain ⟨rest, hfields⟩ := Ace.aceFields_render (dacl.wellFormed ace hace)
    rw [hfields] at hmem
    obtain ⟨hallowed, hobject, hfragments⟩ := h ace hace
    cases List.mem_cons.mp hmem with
    | inl hfirst => exact hfirst ▸ checkAce_ok.mpr ⟨hallowed, hobject⟩
    | inr hfragment => exact hfragments fields hfragment

theorem refused_iff : dacl.Refused owner ↔ check dacl.render owner ≠ .ok () := by
  rw [Ne, check_ok]
  simp only [Refused, not_forall, exists_prop]
  refine exists_congr fun ace => and_congr_right fun _ => ?_
  constructor
  · intro h hall
    obtain ⟨hallowed, hobject, hfragments⟩ := hall
    cases h with
    | inl h => exact h.2 (hallowed h.1)
    | inr h =>
        cases h with
        | inl h => exact hobject h
        | inr h =>
            obtain ⟨fields, hmem, hrefused⟩ := h
            exact hrefused (hfragments fields hmem)
  · intro h
    by_contra hnone
    simp only [not_or, not_and, not_exists, Classical.not_not] at hnone
    exact h ⟨hnone.1, hnone.2.1, hnone.2.2⟩

/-- The check accepts owner-only DACLs alone exactly when it refuses this one, or its
conditional entries name allowed accounts and no missing account passes for the owner. -/
theorem check_sound_iff (dacl : Dacl) (owner : Text) :
    (check dacl.render owner = .ok () → dacl.OwnerOnly owner) ↔
      dacl.Refused owner ∨ dacl.ConditionsAllowed owner ∧ dacl.OwnerKnown owner := by
  by_cases hok : check dacl.render owner = .ok ()
  · rw [refused_iff]
    simp only [hok, forall_const, ne_eq, not_true_eq_false, false_or]
    constructor
    · intro h
      constructor
      · exact fun ace hace hgrants => h.accounts ace hace (Ace.grants_iff.mpr (.inr (.inr hgrants)))
      · exact .inr fun ace hace fields hmem => h.compared fields (mem_of_fragment hace hmem)
    · intro h
      obtain ⟨hconditions, hknown⟩ := h
      have hall := check_ok.mp hok
      constructor
      · intro ace hace hgrants
        obtain ⟨hallowed, hobject, -⟩ := hall ace hace
        cases Ace.grants_iff.mp hgrants with
        | inl hkind => exact hallowed hkind
        | inr hrest =>
            cases hrest with
            | inl hkind => exact absurd hkind hobject
            | inr hconditional => exact hconditions ace hace hconditional
      · intro fields hmem hkind
        obtain ⟨ace, hace, hmem⟩ := entry_or_fragment hmem
        cases hmem with
        | inl hentry =>
            obtain ⟨rest, hfields⟩ := hentry
            rw [hfields, Ace.granted_append]
            exact (dacl.wellFormed ace hace).named
        | inr hfragment =>
            cases hknown with
            | inl howner =>
                have hpasses := (checkAce_ok.mp ((hall ace hace).2.2 fields hfragment)).1 hkind
                exact ne_nil_of_allowed howner hpasses
            | inr hnone => exact hnone ace hace fields hfragment hkind
  · simp only [hok, false_implies, true_iff]
    exact .inl (refused_iff.mpr hok)

/-- Every account is granted access, under a condition. -/
def everyone : Ace where
  kind := "XA".toList
  flags := []
  rights := "FA".toList
  objectGuid := []
  inheritObjectGuid := []
  account := "WD".toList
  expression := some "@User.clearance==\"high\"".toList

/-- `D:P(XA;;FA;;;WD;(@User.clearance=="high"))`. -/
def everyoneDacl : Dacl where
  flags := ['P']
  aces := [everyone]
  flagsPlain := by decide
  wellFormed ace hace := by
    rw [List.mem_singleton.mp hace]
    exact ⟨by decide, by decide⟩

theorem check_passes_everyone :
    check everyoneDacl.render "S-1-5-21-1-2-3-1001".toList = .ok () ∧
      ¬everyoneDacl.OwnerOnly "S-1-5-21-1-2-3-1001".toList := by
  constructor
  · rw [check, aceFields, groups_eq_scan]
    decide
  · intro h
    have haccount := h.accounts everyone (List.mem_singleton_self _) (by decide)
    revert haccount
    decide

end Dacl
end AiSsh
