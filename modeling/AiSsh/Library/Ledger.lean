import AiSsh.Library.Paging

/-!
Accounts beside a journal. An account keeps a running balance for one key; it is balanced
when the balance is the total weight of the journal's entries under that key. Opening an
account, posting an entry, and closing accounts together with their entries keep it so.
-/

namespace AiSsh.Library

universe u v

structure Account (κ : Type u) where
  key : κ
  balance : Nat
  deriving DecidableEq, Repr

namespace Account

variable {κ : Type u} {ε : Type v} [DecidableEq κ] (owner : ε → Option κ) (weight : ε → Nat)

/-- The entries under a key. -/
def entriesOf (entries : List ε) (key : κ) : List ε :=
  entries.filter fun entry => owner entry = some key

/-- Each account's balance is what the journal holds under its key. -/
def Balanced (accounts : List (Account κ)) (entries : List ε) : Prop :=
  ∀ account ∈ accounts, account.balance = total weight (entriesOf owner entries account.key)

/-- A new entry, added to the balance of its owner. -/
def post (entry : ε) (accounts : List (Account κ)) : List (Account κ) :=
  accounts.map fun account =>
    if owner entry = some account.key then
      { account with balance := account.balance + weight entry }
    else account

variable {owner weight} {accounts accounts' : List (Account κ)} {entries : List ε}

theorem balanced_nil : Balanced owner weight ([] : List (Account κ)) entries := by
  intro account h
  cases h

theorem Balanced.openAccount (h : Balanced owner weight accounts entries) {key : κ}
    (hnew : ∀ entry ∈ entries, owner entry ≠ some key) :
    Balanced owner weight (accounts ++ [⟨key, 0⟩]) entries := by
  intro account haccount
  cases List.mem_append.mp haccount with
  | inl hold => exact h account hold
  | inr hlast =>
      have hnone : entriesOf owner entries key = [] := by
        simpa [entriesOf, List.filter_eq_nil_iff] using hnew
      rw [List.mem_singleton.mp hlast, hnone, total_nil]

theorem Balanced.post (h : Balanced owner weight accounts entries) (entry : ε) :
    Balanced owner weight (Account.post owner weight entry accounts) (entries ++ [entry]) := by
  intro account haccount
  obtain ⟨old, hold, rfl⟩ := List.mem_map.mp haccount
  have hbalance := h old hold
  by_cases howner : owner entry = some old.key
  · simp only [if_pos howner, entriesOf, List.filter_append, total_append]
    simp only [entriesOf] at hbalance
    simp [hbalance, howner]
  · simp only [if_neg howner, entriesOf, List.filter_append, total_append]
    simp only [entriesOf] at hbalance
    simp [hbalance, howner]

@[simp] theorem post_keys (entry : ε) :
    (Account.post owner weight entry accounts).map Account.key = accounts.map Account.key := by
  simp only [Account.post, List.map_map]
  refine List.map_congr_left fun account _ => ?_
  simp only [Function.comp_apply]
  split
  · rfl
  · rfl

/-- Entries may go as long as no account that stays has one among them. -/
theorem Balanced.close (h : Balanced owner weight accounts entries) {keep : ε → Bool}
    (hsub : ∀ account ∈ accounts', account ∈ accounts)
    (hkeep : ∀ account ∈ accounts', ∀ entry ∈ entries, owner entry = some account.key →
      keep entry = true) :
    Balanced owner weight accounts' (entries.filter keep) := by
  intro account haccount
  rw [h account (hsub account haccount)]
  congr 1
  rw [entriesOf, entriesOf, List.filter_filter]
  refine List.filter_congr fun entry hentry => ?_
  by_cases howner : owner entry = some account.key
  · simp [howner, hkeep account haccount entry hentry howner]
  · simp [howner]

end Account
end AiSsh.Library
