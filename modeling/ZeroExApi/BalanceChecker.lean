/-
# ZeroExApi.BalanceChecker — balances and allowances of many pairs in one call

`contracts/src/BalanceChecker.sol`.  Each function goes through arrays of one length and asks the
token at each place about the account there; the address that stands for ETH is no token.  The call
reverts where the lengths differ or where a token does.

The lesser of balance and allowance is what `balances` and `allowances` say, pair by pair, except
that ETH needs no allowance (`getMinOfBalancesOrAllowances_eq_ok`).
-/

import Mathlib.Data.List.Zip
import ZeroExApi.Lib.Fallible

namespace ZeroExApi.BalanceChecker

open ZeroExApi.Lib.Fallible

/-! ## The chain -/

/-- Why a call reverts. -/
inductive Revert where
  | reason (text : String)
  | tokenCall
  deriving DecidableEq

/-- `IToken`; a call may revert. -/
structure IToken (Address : Type) where
  balanceOf : Address → Except Revert ℕ
  allowance : Address → Address → Except Revert ℕ

/-- What the functions read of the chain: tokens, and what accounts have of ETH, whose address is
`ETH`. -/
structure ChainState (Address : Type) where
  ETH : Address
  token : Address → IToken Address
  ethBalance : Address → ℕ

variable {Address : Type} [DecidableEq Address]

/-! ## The functions -/

/-- The loop that `balances` and `getMinOfBalancesOrAllowances` share. -/
def forEachPair (body : Address → Address → Except Revert ℕ) (users tokens : List Address) :
    Except Revert (List ℕ) :=
  if users.length = tokens.length then
    (users.zip tokens).mapM fun pair => body pair.1 pair.2
  else
    .error (.reason "users array is a different length than the tokens array")

/-- The body of the loop of `balances`. -/
def balance (chain : ChainState Address) (user token : Address) : Except Revert ℕ :=
  if token ≠ chain.ETH then
    (chain.token token).balanceOf user
  else
    .ok (chain.ethBalance user)

/-- `balances`. -/
def balances (chain : ChainState Address) (users tokens : List Address) : Except Revert (List ℕ) :=
  forEachPair (balance chain) users tokens

/-- The body of the loop of `getMinOfBalancesOrAllowances`. -/
def minOfBalanceOrAllowance (chain : ChainState Address) (spender user token : Address) :
    Except Revert ℕ :=
  if token ≠ chain.ETH then do
    let balance ← (chain.token token).balanceOf user
    let allowance ← (chain.token token).allowance user spender
    if allowance < balance then .ok allowance else .ok balance
  else
    .ok (chain.ethBalance user)

/-- `getMinOfBalancesOrAllowances`. -/
def getMinOfBalancesOrAllowances (chain : ChainState Address) (users tokens : List Address)
    (spender : Address) : Except Revert (List ℕ) :=
  forEachPair (minOfBalanceOrAllowance chain spender) users tokens

/-- The body of the loop of `allowances`. -/
def allowance (chain : ChainState Address) (owner spender token : Address) : Except Revert ℕ :=
  if token ≠ chain.ETH then
    (chain.token token).allowance owner spender
  else
    .ok 0

/-- `allowances`. -/
def allowances (chain : ChainState Address) (owners spenders tokens : List Address) :
    Except Revert (List ℕ) :=
  if owners.length = spenders.length then
    if owners.length = tokens.length then
      (owners.zip (spenders.zip tokens)).mapM fun triple =>
        allowance chain triple.1 triple.2.1 triple.2.2
    else
      .error (.reason "all arrays must be of equal length")
  else
    .error (.reason "all arrays must be of equal length")

/-! ## Their results -/

section Results

variable {chain : ChainState Address} {users tokens : List Address} {spender : Address}
  {amounts : List ℕ}

omit [DecidableEq Address] in
/-- The call succeeds with one amount for each pair, in order. -/
theorem forEachPair_eq_ok {body : Address → Address → Except Revert ℕ} :
    forEachPair body users tokens = .ok amounts ↔ users.length = tokens.length ∧
      List.Forall₂ (fun pair amount => body pair.1 pair.2 = .ok amount) (users.zip tokens)
        amounts := by
  unfold forEachPair
  split
  · rename_i hlen
    rw [mapM_eq_ok_iff, and_iff_right hlen]
  · rename_i hlen
    exact iff_of_false nofun fun h => hlen h.1

/-- What the lesser of a balance and an allowance is, where ETH needs no allowance. -/
def lesser (chain : ChainState Address) (token : Address) (balance allowance : ℕ) : ℕ :=
  if token = chain.ETH then balance else min balance allowance

/-- One pair is asked for its balance and its allowance, and either may revert. -/
theorem minOfBalanceOrAllowance_eq_ok {user token : Address} {amount : ℕ} :
    minOfBalanceOrAllowance chain spender user token = .ok amount ↔
      ∃ b a, balance chain user token = .ok b ∧ allowance chain user spender token = .ok a ∧
        amount = lesser chain token b a := by
  unfold minOfBalanceOrAllowance balance allowance lesser
  by_cases htoken : token = chain.ETH
  · simp only [htoken, ne_eq, not_true_eq_false, if_false, if_true]
    constructor
    · intro h
      cases h
      exact ⟨_, _, rfl, rfl, rfl⟩
    · rintro ⟨b, a, hb, _, rfl⟩
      exact hb
  · simp only [htoken, ne_eq, not_false_eq_true, if_false, if_true, bind_eq_ok]
    constructor
    · rintro ⟨b, hb, a, ha, h⟩
      refine ⟨b, a, hb, ha, ?_⟩
      split at h
      · rename_i hlt
        cases h
        exact (min_eq_right (Nat.le_of_lt hlt)).symm
      · rename_i hge
        cases h
        exact (min_eq_left (not_lt.mp hge)).symm
    · rintro ⟨b, a, hb, ha, rfl⟩
      refine ⟨b, hb, a, ha, ?_⟩
      split
      · rename_i hlt
        rw [min_eq_right (Nat.le_of_lt hlt)]
      · rename_i hge
        rw [min_eq_left (not_lt.mp hge)]

/-- The lesser of balance and allowance, pair by pair, is what `balances` and `allowances` say of
the same pairs; the call reverts exactly if one of these two does. -/
theorem getMinOfBalancesOrAllowances_eq_ok :
    getMinOfBalancesOrAllowances chain users tokens spender = .ok amounts ↔
      ∃ bs as, balances chain users tokens = .ok bs ∧
        allowances chain users (users.map fun _ => spender) tokens = .ok as ∧
        amounts =
          List.zipWith (fun token ba => lesser chain token ba.1 ba.2) tokens (bs.zip as) := by
  unfold getMinOfBalancesOrAllowances balances allowances
  simp only [forEachPair_eq_ok, List.length_map, if_true]
  by_cases hlen : users.length = tokens.length
  · simp only [hlen, true_and, if_true, mapM_eq_ok_iff]
    induction users generalizing tokens amounts with
    | nil =>
      simp
    | cons user users ih =>
      cases tokens with
      | nil => cases hlen
      | cons token tokens =>
        have hrest : users.length = tokens.length := Nat.succ.inj hlen
        simp only [List.zip_cons_cons, List.map_cons, List.forall₂_cons_left_iff, ih hrest]
        simp only [minOfBalanceOrAllowance_eq_ok]
        constructor
        · rintro ⟨_, _, ⟨b, a, hb, ha, rfl⟩, ⟨bs, as, hbs, has, rfl⟩, rfl⟩
          exact ⟨b :: bs, a :: as, ⟨b, bs, hb, hbs, rfl⟩, ⟨a, as, ha, has, rfl⟩, rfl⟩
        · rintro ⟨_, _, ⟨b, bs, hb, hbs, rfl⟩, ⟨a, as, ha, has, rfl⟩, rfl⟩
          exact ⟨_, _, ⟨b, a, hb, ha, rfl⟩, ⟨bs, as, hbs, has, rfl⟩, rfl⟩
  · constructor
    · intro h
      exact absurd h.1 hlen
    · rintro ⟨_, _, ⟨h, _⟩, _⟩
      exact absurd h hlen

end Results

end ZeroExApi.BalanceChecker
