/-
# ZeroExApi.MakerPsmSampler — sell and buy quotes of a peg stability module

A module swaps DAI and one other token, the gem, at par less a fee.  DAI has 18 decimals and the gem
six; `MakerPSMSampler.sol` tests what a swap does to the module's debt against a ceiling and a
floor, and quotes nothing where it would cross them.

A buy quote asks how much to sell for an amount; the sell quote of that is compared with the amount
by `samplePSMSell_covers_iff`.  From the gem to DAI the amount is rounded up to whole gem units
after the debt was tested, so the sell quote may find the ceiling crossed.  From DAI to the gem the
fee is rounded down, and then the sell quote falls short.

Arithmetic is checked: what overflows reverts.
-/

import Mathlib.Data.List.Forall2
import Mathlib.Tactic.Ring
import ZeroExApi.Lib.Fallible

namespace ZeroExApi.MakerPsmSampler

open ZeroExApi.Lib.Fallible

/-! ## Checked arithmetic -/

/-- Why a call reverts: a `require`, or an operation of `LibSafeMathV06`. -/
inductive Revert where
  | reason (text : String)
  | additionOverflow
  | multiplicationOverflow
  | subtractionUnderflow
  | divisionByZero
  deriving DecidableEq

def safeAdd (a b : ℕ) : Except Revert ℕ :=
  if a + b < 2 ^ 256 then .ok (a + b) else .error .additionOverflow

def safeMul (a b : ℕ) : Except Revert ℕ :=
  if a * b < 2 ^ 256 then .ok (a * b) else .error .multiplicationOverflow

def safeSub (a b : ℕ) : Except Revert ℕ :=
  if b ≤ a then .ok (a - b) else .error .subtractionUnderflow

def safeDiv (a b : ℕ) : Except Revert ℕ :=
  if b = 0 then .error .divisionByZero else .ok (a / b)

theorem eq_of_guarded {c : Prop} [Decidable c] {v r : ℕ} {e : Revert}
    (h : (if c then .ok v else .error e : Except Revert ℕ) = .ok r) : r = v := by
  split at h
  · cases h
    rfl
  · cases h

theorem eq_of_safeAdd {a b r : ℕ} (h : safeAdd a b = .ok r) : r = a + b := eq_of_guarded h

theorem eq_of_safeMul {a b r : ℕ} (h : safeMul a b = .ok r) : r = a * b := eq_of_guarded h

theorem eq_of_safeSub {a b r : ℕ} (h : safeSub a b = .ok r) : r = a - b := eq_of_guarded h

theorem eq_of_safeDiv {a b r : ℕ} (h : safeDiv a b = .ok r) : r = a / b := by
  unfold safeDiv at h
  split at h
  · cases h
  · cases h
    rfl

section Bind

variable {a b r : ℕ} {f : ℕ → Except Revert ℕ}

/-- What goes on behind an operation that does not revert goes on with its value. -/
theorem of_bind {x : Except Revert ℕ} {v : ℕ} (hx : ∀ {r}, x = .ok r → r = v)
    (h : (x >>= f) = .ok r) : f v = .ok r := by
  obtain ⟨w, hw, h⟩ := bind_eq_ok.mp h
  rwa [hx hw] at h

theorem of_safeAdd (h : (safeAdd a b >>= f) = .ok r) : f (a + b) = .ok r := of_bind eq_of_safeAdd h

theorem of_safeMul (h : (safeMul a b >>= f) = .ok r) : f (a * b) = .ok r := of_bind eq_of_safeMul h

theorem of_safeSub (h : (safeSub a b >>= f) = .ok r) : f (a - b) = .ok r := of_bind eq_of_safeSub h

theorem of_safeDiv (h : (safeDiv a b >>= f) = .ok r) : f (a / b) = .ok r := of_bind eq_of_safeDiv h

end Bind

/-! ## The module -/

def WAD : ℕ := 10 ^ 18
def RAY : ℕ := 10 ^ 27

/-- What the sampler reads of a collateral type: its debt in wad, its ceiling and floor in rad. -/
structure Ilk where
  Art : ℕ
  line : ℕ
  dust : ℕ

/-- `IVAT`. -/
structure IVAT where
  ilks : String → Ilk

/-- `IPSM`: the fees in wad, for selling and for buying the gem; the first is below one. -/
structure IPSM where
  tin : ℕ
  tin_lt : tin < WAD
  tout : ℕ
  dai : String
  vat : IVAT

/-- `MakerPsmInfo`. -/
structure MakerPsmInfo where
  psmAddress : String
  ilkIdentifier : String
  gemTokenAddress : String

/-! ## `MakerPSMSampler.sol` -/

section Source

variable (psmInfo : MakerPsmInfo) (makerToken takerToken : String)

/-- `_samplePSMSell`. -/
def samplePSMSell (takerTokenAmount : ℕ) (psm : IPSM) (vat : IVAT) : Except Revert ℕ :=
  let ilk := vat.ilks psmInfo.ilkIdentifier
  let gemTokenBaseUnit := 10 ^ 6
  if takerToken = psmInfo.gemTokenAddress then do
    -- sellGem increases the debt
    let takerTokenAmountInWad ← safeMul takerTokenAmount (10 ^ 12)
    let newTotalDebt ← safeAdd ilk.Art takerTokenAmountInWad
    let newTotalDebtInRad ← safeMul newTotalDebt RAY
    if newTotalDebtInRad ≥ ilk.line then return 0
    else do
      let fee ← safeMul takerTokenAmountInWad psm.tin
      let feeInWad ← safeDiv fee WAD
      safeSub takerTokenAmountInWad feeInWad
  else if makerToken = psmInfo.gemTokenAddress then
    -- buyGem decreases the debt
    let takerTokenAmountInWad := takerTokenAmount
    if takerTokenAmountInWad > ilk.Art then .ok 0
    else do
      let newTotalDebt ← safeSub ilk.Art takerTokenAmountInWad
      let newTotalDebtInRad ← safeMul newTotalDebt RAY
      if newTotalDebtInRad ≤ ilk.dust then return 0
      else do
        let feeDivisorInWad ← safeAdd WAD psm.tout
        let scaled ← safeMul takerTokenAmountInWad gemTokenBaseUnit
        safeDiv scaled feeDivisorInWad
  else .ok 0

/-- `_samplePSMBuy`. -/
def samplePSMBuy (makerTokenAmount : ℕ) (psm : IPSM) (vat : IVAT) : Except Revert ℕ :=
  let ilk := vat.ilks psmInfo.ilkIdentifier
  if takerToken = psmInfo.gemTokenAddress then do
    let makerTokenAmountInWad := makerTokenAmount
    let feeDivisorInWad ← safeSub WAD psm.tin
    let scaled ← safeMul makerTokenAmountInWad WAD
    let takerTokenAmountInWad ← safeDiv scaled feeDivisorInWad
    let newTotalDebt ← safeAdd ilk.Art takerTokenAmountInWad
    let newTotalDebtInRad ← safeMul newTotalDebt RAY
    if newTotalDebtInRad ≥ ilk.line then return 0
    else do
      -- one is added for the decimals that are cut off
      let takerTokenAmountInGem ← safeDiv takerTokenAmountInWad (10 ^ 12)
      safeAdd takerTokenAmountInGem 1
  else if makerToken = psmInfo.gemTokenAddress then do
    let makerTokenAmountInWad ← safeMul makerTokenAmount (10 ^ 12)
    let feeMultiplierInWad ← safeAdd WAD psm.tout
    let scaled ← safeMul makerTokenAmountInWad feeMultiplierInWad
    let takerTokenAmountInWad ← safeDiv scaled WAD
    if takerTokenAmountInWad > ilk.Art then return 0
    else do
      let newTotalDebt ← safeSub ilk.Art takerTokenAmountInWad
      let newTotalDebtInRad ← safeMul newTotalDebt RAY
      if newTotalDebtInRad ≤ ilk.dust then return 0 else return takerTokenAmountInWad
  else .ok 0

/-- The loop of both samplers: the samples from the first that is zero on stay zero. -/
def sampleUntilZero (samplePSM : ℕ → Except Revert ℕ) : List ℕ → Except Revert (List ℕ)
  | [] => .ok []
  | amount :: amounts => do
    let quote ← samplePSM amount
    if quote = 0 then return List.replicate (amounts.length + 1) 0
    else do
      let quotes ← sampleUntilZero samplePSM amounts
      return quote :: quotes

/-- What both samplers do with the sampling of one amount. -/
def sampleFromMakerPsm (samplePSM : ℕ → IPSM → IVAT → Except Revert ℕ) (psmAt : String → IPSM)
    (amounts : List ℕ) : Except Revert (List ℕ) :=
  -- _assertValidPair
  if makerToken = takerToken then .error (.reason "ERC20BridgeSampler/INVALID_TOKEN_PAIR")
  else
    let psm := psmAt psmInfo.psmAddress
    let vat := psm.vat
    if makerToken ≠ psm.dai ∧ takerToken ≠ psm.dai then .ok (List.replicate amounts.length 0)
    else sampleUntilZero (fun amount => samplePSM amount psm vat) amounts

/-- `sampleSellsFromMakerPsm`. -/
def sampleSellsFromMakerPsm (psmAt : String → IPSM) (takerTokenAmounts : List ℕ) :
    Except Revert (List ℕ) :=
  sampleFromMakerPsm psmInfo makerToken takerToken
    (samplePSMSell psmInfo makerToken takerToken) psmAt takerTokenAmounts

/-- `sampleBuysFromMakerPsm`. -/
def sampleBuysFromMakerPsm (psmAt : String → IPSM) (makerTokenAmounts : List ℕ) :
    Except Revert (List ℕ) :=
  sampleFromMakerPsm psmInfo makerToken takerToken
    (samplePSMBuy psmInfo makerToken takerToken) psmAt makerTokenAmounts

end Source

/-! ## Samples -/

/-- What is reported for an amount is its quote. -/
theorem sampleUntilZero_spec {samplePSM : ℕ → Except Revert ℕ} {amounts quotes : List ℕ}
    (h : sampleUntilZero samplePSM amounts = .ok quotes) :
    List.Forall₂ (fun amount quote => quote ≠ 0 → samplePSM amount = .ok quote) amounts quotes := by
  have hzeros : ∀ amounts : List ℕ, List.Forall₂
      (fun amount quote => quote ≠ 0 → samplePSM amount = .ok quote) amounts
      (List.replicate amounts.length 0) := by
    intro amounts
    induction amounts with
    | nil => exact List.Forall₂.nil
    | cons amount amounts ih => exact List.Forall₂.cons (fun hne => absurd rfl hne) ih
  induction amounts generalizing quotes with
  | nil =>
    cases h
    exact List.Forall₂.nil
  | cons amount amounts ih =>
    unfold sampleUntilZero at h
    obtain ⟨quote, hquote, h⟩ := bind_eq_ok.mp h
    split at h
    · cases h
      exact hzeros (amount :: amounts)
    · obtain ⟨rest, hrest, h⟩ := bind_eq_ok.mp h
      cases h
      exact List.Forall₂.cons (fun _ => hquote) (ih hrest)

/-- Both samplers report, for each amount, its quote at the module, or zero. -/
theorem sampleFromMakerPsm_spec {psmInfo : MakerPsmInfo} {makerToken takerToken : String}
    {samplePSM : ℕ → IPSM → IVAT → Except Revert ℕ} {psmAt : String → IPSM}
    {amounts quotes : List ℕ}
    (h : sampleFromMakerPsm psmInfo makerToken takerToken samplePSM psmAt amounts = .ok quotes) :
    List.Forall₂ (fun amount quote => quote ≠ 0 →
      samplePSM amount (psmAt psmInfo.psmAddress) (psmAt psmInfo.psmAddress).vat = .ok quote)
      amounts quotes := by
  unfold sampleFromMakerPsm at h
  split at h
  · cases h
  · dsimp only at h
    split at h
    · cases h
      apply List.forall₂_iff_get.mpr
      refine ⟨by simp, ?_⟩
      intro i hi hi' hne
      simp at hne
    · exact sampleUntilZero_spec h

/-! ## What one call does -/

section Calls

variable {psmInfo : MakerPsmInfo} {makerToken takerToken : String} {psm : IPSM} {vat : IVAT}

/-- The wad amount that pays for an amount of DAI, before it is rounded to gem units. -/
def paidInWad (tin makerTokenAmount : ℕ) : ℕ := makerTokenAmount * WAD / (WAD - tin)

/-- The same after rounding. -/
def roundedInWad (tin makerTokenAmount : ℕ) : ℕ :=
  (paidInWad tin makerTokenAmount / 10 ^ 12 + 1) * 10 ^ 12

/-- A sell of the gem: nothing where the ceiling is reached, else the amount less the fee. -/
theorem sell_gem {takerTokenAmount out : ℕ} (hgem : takerToken = psmInfo.gemTokenAddress)
    (h : samplePSMSell psmInfo makerToken takerToken takerTokenAmount psm vat = .ok out) :
    out =
      if (vat.ilks psmInfo.ilkIdentifier).line ≤
          ((vat.ilks psmInfo.ilkIdentifier).Art + takerTokenAmount * 10 ^ 12) * RAY then 0
      else takerTokenAmount * 10 ^ 12 - takerTokenAmount * 10 ^ 12 * psm.tin / WAD := by
  simp only [samplePSMSell, if_pos hgem] at h
  have hwad := of_safeMul h
  have hdebt := of_safeAdd hwad
  have hrad := of_safeMul hdebt
  split at hrad
  · rename_i hfull
    cases hrad
    rw [if_pos hfull]
  · rename_i hroom
    have hscaled := of_safeMul hrad
    have hfee := of_safeDiv hscaled
    rw [if_neg hroom, eq_of_safeSub hfee]

/-- A buy of DAI that is quoted. -/
theorem buy_dai {makerTokenAmount t : ℕ} (hgem : takerToken = psmInfo.gemTokenAddress)
    (h : samplePSMBuy psmInfo makerToken takerToken makerTokenAmount psm vat = .ok t)
    (ht : t ≠ 0) : t * 10 ^ 12 = roundedInWad psm.tin makerTokenAmount := by
  simp only [samplePSMBuy, if_pos hgem] at h
  have hdivisor := of_safeSub h
  have hscaled := of_safeMul hdivisor
  have hwad := of_safeDiv hscaled
  -- the ceiling is tested before the amount is rounded
  have hdebt := of_safeAdd hwad
  have hrad := of_safeMul hdebt
  split at hrad
  · cases hrad
    exact absurd rfl ht
  · have hgemUnits := of_safeDiv hrad
    rw [eq_of_safeAdd hgemUnits]
    rfl

/-- A sell of DAI: nothing where there is too little debt, else the amount less the fee. -/
theorem sell_dai {takerTokenAmount out : ℕ} (htaker : takerToken ≠ psmInfo.gemTokenAddress)
    (hmaker : makerToken = psmInfo.gemTokenAddress)
    (h : samplePSMSell psmInfo makerToken takerToken takerTokenAmount psm vat = .ok out) :
    out =
      if (vat.ilks psmInfo.ilkIdentifier).Art < takerTokenAmount ∨
          ((vat.ilks psmInfo.ilkIdentifier).Art - takerTokenAmount) * RAY ≤
            (vat.ilks psmInfo.ilkIdentifier).dust then 0
      else takerTokenAmount * 10 ^ 6 / (WAD + psm.tout) := by
  simp only [samplePSMSell, if_neg htaker, if_pos hmaker] at h
  split at h
  · rename_i hmore
    cases h
    rw [if_pos (Or.inl hmore)]
  · rename_i hle
    have hdebt := of_safeSub h
    have hrad := of_safeMul hdebt
    split at hrad
    · rename_i hempty
      cases hrad
      rw [if_pos (Or.inr hempty)]
    · rename_i hroom
      have hdivisor := of_safeAdd hrad
      have hscaled := of_safeMul hdivisor
      rw [if_neg (not_or.mpr ⟨hle, hroom⟩), eq_of_safeDiv hscaled]

/-- A buy of the gem that is quoted: the debt covers it. -/
theorem buy_gem {makerTokenAmount t : ℕ} (htaker : takerToken ≠ psmInfo.gemTokenAddress)
    (hmaker : makerToken = psmInfo.gemTokenAddress)
    (h : samplePSMBuy psmInfo makerToken takerToken makerTokenAmount psm vat = .ok t)
    (ht : t ≠ 0) :
    t = makerTokenAmount * 10 ^ 12 * (WAD + psm.tout) / WAD ∧
      ¬ ((vat.ilks psmInfo.ilkIdentifier).Art < t ∨
        ((vat.ilks psmInfo.ilkIdentifier).Art - t) * RAY ≤
          (vat.ilks psmInfo.ilkIdentifier).dust) := by
  simp only [samplePSMBuy, if_neg htaker, if_pos hmaker] at h
  have hwad := of_safeMul h
  have hmultiplier := of_safeAdd hwad
  have hscaled := of_safeMul hmultiplier
  have hpaid := of_safeDiv hscaled
  split at hpaid
  · cases hpaid
    exact absurd rfl ht
  · rename_i hle
    -- the debt covers the amount
    have hdebt := of_safeSub hpaid
    have hrad := of_safeMul hdebt
    split at hrad
    · cases hrad
      exact absurd rfl ht
    · rename_i hroom
      cases hrad
      exact ⟨rfl, not_or.mpr ⟨hle, hroom⟩⟩

end Calls

/-! ## Rounding -/

/-- The rounded amount less its fee is enough. -/
theorem le_roundedInWad_sub_fee {tin : ℕ} (htin : tin < WAD) (makerTokenAmount : ℕ) :
    makerTokenAmount ≤ roundedInWad tin makerTokenAmount -
      roundedInWad tin makerTokenAmount * tin / WAD := by
  have hpaid : makerTokenAmount * WAD < (paidInWad tin makerTokenAmount + 1) * (WAD - tin) := by
    rw [Nat.mul_comm (_ + 1)]
    exact Nat.lt_mul_div_succ _ (Nat.sub_pos_of_lt htin)
  -- rounding adds at least one
  have hround : paidInWad tin makerTokenAmount + 1 ≤ roundedInWad tin makerTokenAmount := by
    unfold roundedInWad
    omega
  generalize roundedInWad tin makerTokenAmount = w at hround ⊢
  have hfee : w * tin / WAD * WAD ≤ w * tin := Nat.div_mul_le_self _ _
  have henough : makerTokenAmount * WAD ≤ (w - w * tin / WAD) * WAD := by
    calc makerTokenAmount * WAD ≤ (paidInWad tin makerTokenAmount + 1) * (WAD - tin) := hpaid.le
      _ ≤ w * (WAD - tin) := Nat.mul_le_mul_right _ hround
      _ = w * WAD - w * tin := Nat.mul_sub w WAD tin
      _ ≤ w * WAD - w * tin / WAD * WAD := Nat.sub_le_sub_left hfee _
      _ = (w - w * tin / WAD) * WAD := (Nat.sub_mul w _ WAD).symm
  exact Nat.le_of_mul_le_mul_right henough (by decide)

/-- The fee that was rounded down is missed, unless there was nothing to round. -/
theorem le_gem_iff (makerTokenAmount tout : ℕ) :
    makerTokenAmount ≤
        makerTokenAmount * 10 ^ 12 * (WAD + tout) / WAD * 10 ^ 6 / (WAD + tout) ↔
      10 ^ 6 ∣ makerTokenAmount * tout := by
  have hcut : makerTokenAmount * 10 ^ 12 * (WAD + tout) / WAD =
      makerTokenAmount * (WAD + tout) / 10 ^ 6 := by
    have hsplit : makerTokenAmount * 10 ^ 12 * (WAD + tout) =
        makerTokenAmount * (WAD + tout) * 10 ^ 12 := by ring
    rw [hsplit, show WAD = 10 ^ 6 * 10 ^ 12 by decide]
    exact Nat.mul_div_mul_right _ _ (by decide)
  have hpos : 0 < WAD + tout := Nat.add_pos_left (by decide) tout
  -- the amount itself is whole, so only its fee is cut off
  have hwhole : 10 ^ 6 ∣ makerTokenAmount * WAD := Dvd.dvd.mul_left (by decide) _
  rw [hcut, Nat.le_div_iff_mul_le hpos]
  constructor
  · intro hle
    have hdvd : 10 ^ 6 ∣ makerTokenAmount * (WAD + tout) := by
      have hge := Nat.div_mul_le_self (makerTokenAmount * (WAD + tout)) (10 ^ 6)
      exact Dvd.intro_left _ (le_antisymm hge hle)
    rw [Nat.mul_add] at hdvd
    exact (Nat.dvd_add_right hwhole).mp hdvd
  · intro hdvd
    have hsum : 10 ^ 6 ∣ makerTokenAmount * (WAD + tout) := by
      rw [Nat.mul_add]
      exact Nat.dvd_add hwhole hdvd
    exact (Nat.div_mul_cancel hsum).ge

/-! ## Buy quotes against sell quotes -/

/-- The rounding of a buy quote loses nothing.  To DAI: nothing is asked for, or the debt is below
the ceiling with the amount rounded up to gem units too.  To the gem: the fee is a whole number of
wad. -/
def RoundingCovered (psmInfo : MakerPsmInfo) (takerToken : String) (makerTokenAmount : ℕ)
    (psm : IPSM) (vat : IVAT) : Prop :=
  if takerToken = psmInfo.gemTokenAddress then
    makerTokenAmount = 0 ∨
      ((vat.ilks psmInfo.ilkIdentifier).Art + roundedInWad psm.tin makerTokenAmount) * RAY <
        (vat.ilks psmInfo.ilkIdentifier).line
  else 10 ^ 6 ∣ makerTokenAmount * psm.tout

/-- Where a buy is quoted and the sell of what it asks for does not overflow, that sell yields the
amount that was asked for if and only if the rounding is covered. -/
theorem samplePSMSell_covers_iff (psmInfo : MakerPsmInfo) (makerToken takerToken : String)
    (makerTokenAmount : ℕ) (psm : IPSM) (vat : IVAT) (t out : ℕ)
    (hbuy : samplePSMBuy psmInfo makerToken takerToken makerTokenAmount psm vat = .ok t)
    (ht : t ≠ 0) (hsell : samplePSMSell psmInfo makerToken takerToken t psm vat = .ok out) :
    makerTokenAmount ≤ out ↔ RoundingCovered psmInfo takerToken makerTokenAmount psm vat := by
  unfold RoundingCovered
  by_cases hgem : takerToken = psmInfo.gemTokenAddress
  · rw [if_pos hgem, sell_gem hgem hsell, buy_dai hgem hbuy ht]
    split
    · rename_i hfull
      constructor
      · intro hle
        exact Or.inl (Nat.le_zero.mp hle)
      · rintro (hzero | hroom)
        · exact hzero.le
        · exact absurd hroom (not_lt.mpr hfull)
    · rename_i hroom
      exact iff_of_true (le_roundedInWad_sub_fee psm.tin_lt makerTokenAmount)
        (Or.inr (not_le.mp hroom))
  · rw [if_neg hgem]
    by_cases hmaker : makerToken = psmInfo.gemTokenAddress
    · obtain ⟨heq, hdebt⟩ := buy_gem hgem hmaker hbuy ht
      rw [sell_dai hgem hmaker hsell, if_neg hdebt, heq]
      exact le_gem_iff makerTokenAmount psm.tout
    · -- neither token is the gem, and nothing is quoted
      simp only [samplePSMBuy, if_neg hgem, if_neg hmaker] at hbuy
      cases hbuy
      exact absurd rfl ht

/-- A module with a fee for selling the gem and one for buying it, and a debt of a million. -/
def sampleVat (line : ℕ) : IVAT where
  ilks := fun _ => { Art := 10 ^ 24, line := line, dust := 0 }

def samplePsm (tout line : ℕ) : IPSM where
  tin := 10 ^ 15
  tin_lt := by decide
  tout := tout
  dai := "DAI"
  vat := sampleVat line

def usdcInfo : MakerPsmInfo where
  psmAddress := "PSM"
  ilkIdentifier := "PSM-USDC-A"
  gemTokenAddress := "USDC"

theorem samplePSMSell_covers_iff_usdc :
    10 ^ 20 ≤ 100000000899000000000 ↔
      RoundingCovered usdcInfo "USDC" (10 ^ 20) (samplePsm 0 (10 ^ 54)) (sampleVat (10 ^ 54)) :=
  samplePSMSell_covers_iff usdcInfo "DAI" "USDC" (10 ^ 20) (samplePsm 0 (10 ^ 54))
    (sampleVat (10 ^ 54)) 100100101 100000000899000000000 (by decide +kernel) (by decide)
    (by decide +kernel)

/-- With a fee of one unit in the last place, a buy of one gem unit asks for `10 ^ 12` wad, whose
sell quote is zero.  And where the debt is just below the ceiling, what a buy of `10 ^ 12` wad asks
for is not taken. -/
theorem buyQuote_notCovered :
    ¬ (∀ t out, samplePSMBuy usdcInfo "USDC" "DAI" 1 (samplePsm 1 (10 ^ 54))
        (sampleVat (10 ^ 54)) = .ok t → t ≠ 0 →
        samplePSMSell usdcInfo "USDC" "DAI" t (samplePsm 1 (10 ^ 54)) (sampleVat (10 ^ 54)) =
          .ok out → 1 ≤ out) ∧
      ¬ (∀ t out, samplePSMBuy usdcInfo "DAI" "USDC" (10 ^ 12) (samplePsm 0 (10 ^ 51 + 2 * 10 ^ 39))
        (sampleVat (10 ^ 51 + 2 * 10 ^ 39)) = .ok t → t ≠ 0 →
        samplePSMSell usdcInfo "DAI" "USDC" t (samplePsm 0 (10 ^ 51 + 2 * 10 ^ 39))
          (sampleVat (10 ^ 51 + 2 * 10 ^ 39)) = .ok out → 10 ^ 12 ≤ out) := by
  constructor
  · intro h
    have hle := h (10 ^ 12) 0 (by decide +kernel) (by decide) (by decide +kernel)
    exact absurd hle (by decide)
  · intro h
    have hle := h 2 0 (by decide +kernel) (by decide) (by decide +kernel)
    exact absurd hle (by decide)

end ZeroExApi.MakerPsmSampler
