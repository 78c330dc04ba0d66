/-
# ZeroExApi.GasFee — the gas fee pays for the transfers that are made

`utils/fee_calculator.ts` predicts the number of transfers before the gas fee is known, and counts
one for the gas fee itself where the sell token has a rate.  The transfers that are made are merged
by recipient, and one is made for the gas fee where it is more than zero.

Both are numbers of distinct recipients (`length_transfers`), and they differ only where the gas fee
is zero in spite of the rate.  Then it is zero as well with the transfers that are made, which are
fewer (`gasFee_of_transfers`).
-/

import ZeroExApi.FeeCalculator
import Mathlib.Data.Finset.Card

namespace ZeroExApi.FeeCalculator

open ZeroExApi.Lib ZeroExApi.Lib.BigNumber

/-! ## The transfers that are made -/

/-- The recipients of the fees that are transferred, one for each fee. -/
def paidRecipients (fees : Fees) : List String :=
  (allFees fees).filterMap FeeBase.transferRecipient

theorem mem_keys_foldl_creditFee {transfers : JsMap String OnChainTransfer}
    {cs : List (FeeBase × BigNumber)} {recipient : String} :
    recipient ∈ (cs.foldl creditFee transfers).entries.map Prod.fst ↔
      recipient ∈ transfers.entries.map Prod.fst ∨
        recipient ∈ (cs.map Prod.fst).filterMap FeeBase.transferRecipient := by
  induction cs generalizing transfers with
  | nil => simp
  | cons c cs ih =>
    rw [List.foldl_cons, ih, List.map_cons]
    unfold creditFee
    cases hto : c.1.transferRecipient with
    | none => rw [List.filterMap_cons_none hto]
    | some payee =>
      rw [List.filterMap_cons_some hto, List.mem_cons]
      show recipient ∈ (JsMap.assign payee _ transfers.entries).map Prod.fst ∨ _ ↔ _
      rw [JsMap.mem_keys_assign]
      tauto

/-- There is one transfer for each recipient that is paid. -/
theorem length_transfers (fees : Fees) :
    ((charges fees).foldl creditFee JsMap.empty).entries.length =
      (paidRecipients fees).dedup.length := by
  have hperm : (((charges fees).foldl creditFee JsMap.empty).entries.map Prod.fst).Perm
      (paidRecipients fees).dedup := by
    refine (List.perm_ext_iff_of_nodup (JsMap.nodup _) (List.nodup_dedup _)).mpr ?_
    intro recipient
    rw [mem_keys_foldl_creditFee, charges_map_fst, List.mem_dedup]
    simp [JsMap.empty, paidRecipients]
  rw [← hperm.length_eq, List.length_map]

/-! ## The transfers that are predicted -/

/-- The recipients that are counted for gas: the last one where gas has a rate. -/
def predictedRecipients (integratorFee : Option VolumeBasedFee) (zeroExFee : Option ZeroExFee)
    (config : GasFeeConfig) (sellTokenAmountPerWei : BigNumber) : List String :=
  (integratorFee.bind (·.transferRecipient)).toList ++
    (zeroExFee.bind (·.base.transferRecipient)).toList ++
      (if sellTokenAmountPerWei.gt ZERO_AMOUNT then
        onChainRecipient config.billingType config.feeRecipient
      else
        none).toList

/-- The gas fee for so many transfers. -/
def gasFeeAmount (opts : CalculateFeesOpts) (rate : BigNumber) (numOnChainTransfer : ℕ) :
    BigNumber :=
  ((rate.times opts.gasPrice).times
    (opts.quoteGasEstimate.plus
      (opts.gasPerOnChainTransfer.times (.fin numOnChainTransfer)))).integerValue .floor

/-- The recipients that are paid, fee by fee. -/
theorem paidRecipients_eq (fees : Fees) :
    paidRecipients fees =
      (fees.integratorFee.bind (·.transferRecipient)).toList ++
        (fees.zeroExFee.bind (·.base.transferRecipient)).toList ++
          (fees.gasFee.bind (·.transferRecipient)).toList := by
  have hfee : ∀ {α : Type} (fee : Option α) (base : α → FeeBase),
      (fee.toList.map base).filterMap FeeBase.transferRecipient =
        (fee.bind fun a => (base a).transferRecipient).toList := by
    intro α fee base
    cases fee with
    | none => rfl
    | some a =>
      show [base a].filterMap FeeBase.transferRecipient = (base a).transferRecipient.toList
      cases hto : (base a).transferRecipient with
      | none => rw [List.filterMap_cons_none hto]; rfl
      | some payee => rw [List.filterMap_cons_some hto]; rfl
  unfold paidRecipients allFees
  rw [List.filterMap_append, List.filterMap_append, hfee, hfee, hfee]

/-- Fewer of the same recipients are no more. -/
theorem length_dedup_append_le (xs ys : List String) :
    xs.dedup.length ≤ (xs ++ ys).dedup.length := by
  rw [← List.card_toFinset, ← List.card_toFinset]
  apply Finset.card_le_card
  intro x hx
  rw [List.mem_toFinset] at hx ⊢
  exact List.mem_append_left ys hx

/-! ## The gas fee -/

/-- More transfers cost no less. -/
theorem gasFeeAmount_mono {opts : CalculateFeesOpts} (hopts : opts.Valid) {rate : BigNumber}
    (hrate : IsAmount rate) {m n : ℕ} (hmn : m ≤ n) :
    AmountLe (gasFeeAmount opts rate m) (gasFeeAmount opts rate n) := by
  obtain ⟨r, rfl, hr⟩ := hrate
  obtain ⟨p, hp, hp₀⟩ := hopts.gasPrice
  obtain ⟨q, hq, hq₀⟩ := hopts.quoteGasEstimate
  obtain ⟨g, hg, hg₀⟩ := hopts.gasPerOnChainTransfer
  unfold gasFeeAmount
  rw [hp, hq, hg]
  simp only [times_fin, plus_fin]
  apply AmountLe.integerValue
  have hcast : (m : ℚ) ≤ n := Nat.cast_le.mpr hmn
  have hm : (0 : ℚ) ≤ m := Nat.cast_nonneg m
  refine ⟨_, _, rfl, rfl, by positivity, ?_⟩
  gcongr

/-- Without a rate there is no gas fee. -/
theorem rate_pos_of_gasFeeAmount {opts : CalculateFeesOpts} (hopts : opts.Valid) {rate : BigNumber}
    (hrate : IsAmount rate) {n : ℕ} (hpos : (gasFeeAmount opts rate n).gt ZERO_AMOUNT = true) :
    rate.gt ZERO_AMOUNT = true := by
  obtain ⟨r, rfl, hr⟩ := hrate
  rcases hr.lt_or_eq with hr | rfl
  · exact decide_eq_true hr
  · obtain ⟨p, hp, _⟩ := hopts.gasPrice
    obtain ⟨q, hq, _⟩ := hopts.quoteGasEstimate
    obtain ⟨g, hg, _⟩ := hopts.gasPerOnChainTransfer
    unfold gasFeeAmount at hpos
    rw [hp, hq, hg] at hpos
    simp [ZERO_AMOUNT] at hpos

/-- The fee for the transfers that are predicted is the one for the transfers that are made, the
gas fee being made where it is more than zero. -/
theorem gasFeeAmount_eq {opts : CalculateFeesOpts} (hopts : opts.Valid) {rate : BigNumber}
    (hrate : IsAmount rate) (recipients : List String) (recipient : Option String) :
    let predicted := recipients ++ (if rate.gt ZERO_AMOUNT then recipient else none).toList
    let amount := gasFeeAmount opts rate predicted.dedup.length
    amount = gasFeeAmount opts rate
      (recipients ++
        (if amount.gt ZERO_AMOUNT then recipient else none).toList).dedup.length := by
  intro predicted amount
  by_cases hpos : amount.gt ZERO_AMOUNT = true
  · -- where gas is paid for there is a rate, and its transfer was predicted
    rw [if_pos hpos, ← if_pos (rate_pos_of_gasFeeAmount hopts hrate hpos) (t := recipient)
      (e := none)]
  · rw [if_neg hpos, Option.toList_none, List.append_nil]
    -- nothing is charged for more recipients, so nothing for fewer
    obtain ⟨a, b, ha, hb, ha₀, hab⟩ :=
      gasFeeAmount_mono hopts hrate (length_dedup_append_le recipients
        (if rate.gt ZERO_AMOUNT then recipient else none).toList)
    have hamount : amount = .fin b := hb
    rw [hamount] at hpos ⊢
    have hb₀ : b ≤ 0 := not_lt.mp fun hlt => hpos (decide_eq_true hlt)
    rw [ha, le_antisymm hb₀ (ha₀.trans hab), le_antisymm (hab.trans hb₀) ha₀]

/-- For every configuration the parser accepts with a gas fee, the fees can be calculated, and the
gas fee is the one for the quote and for the gas of the transfers that are returned, of which each
is charged for once. -/
theorem gasFee_of_transfers {body : Option FeeConfigsBody} {opts : CalculateFeesOpts}
    (hbody : _parseFeeConfigs body = .ok opts.feeConfigs) (hopts : opts.Valid)
    {configs : FeeConfigs} (hconfigs : opts.feeConfigs = some configs)
    (hgas : configs.gasFee ≠ none) :
    ∃ out fees gasFee rate,
      calculateFees opts = .ok out ∧ out.fees = some fees ∧ fees.gasFee = some gasFee ∧
        opts.sellTokenAmountPerWei = some rate ∧
          gasFee.feeAmount =
            ((rate.times opts.gasPrice).times
              (opts.quoteGasEstimate.plus out.onChainTransfersGas)).integerValue .floor ∧
          out.onChainTransfersGas =
            opts.gasPerOnChainTransfer.times (.fin out.onChainTransfers.length) := by
  obtain ⟨config, hconfig⟩ := Option.ne_none_iff_exists'.mp hgas
  obtain ⟨rate, hrate⟩ := Option.ne_none_iff_exists'.mp (hopts.rate_known configs hconfigs hgas)
  rw [hconfigs] at hbody
  obtain ⟨zeroExFee, hzeroEx, _, _⟩ := calculateZeroExFee_ok opts.sellToken
    opts.sellTokenAmount fun _ hshare => parsed_share hbody hshare
  let integratorFee :=
    _calculateIntegratorFee configs.integratorFee opts.sellToken opts.sellTokenAmount
  -- the gas is estimated for one transfer to each of these, without repetitions
  let predicted := predictedRecipients integratorFee zeroExFee config rate
  let gasFee : GasFee :=
    { feeToken := opts.sellToken
      feeAmount := gasFeeAmount opts rate predicted.dedup.length
      feeRecipient := config.feeRecipient
      billingType := config.billingType
      gasPrice := opts.gasPrice
      estimatedGas :=
        opts.quoteGasEstimate.plus
          (opts.gasPerOnChainTransfer.times (.fin predicted.dedup.length))
      feeTokenAmountPerWei := rate }
  let fees : Fees := ⟨integratorFee, zeroExFee, some gasFee⟩
  have hgasFee : _calculateGasFee configs.gasFee opts.sellToken opts.sellTokenAmountPerWei
      opts.gasPrice opts.quoteGasEstimate opts.gasPerOnChainTransfer integratorFee zeroExFee =
        .ok (some gasFee) := by
    rw [hconfig, hrate]
    rfl
  refine ⟨_calculateTotalOnChainFees fees opts.gasPerOnChainTransfer, fees, gasFee, rate, ?_, rfl,
    rfl, hrate, ?_, ?_⟩
  · unfold calculateFees
    rw [hconfigs]
    exact Fallible.bind_eq_ok.mpr ⟨_, hzeroEx, Fallible.bind_eq_ok.mpr ⟨_, hgasFee, rfl⟩⟩
  · have hmade := gasFeeAmount_eq hopts (hopts.rate rate hrate)
      ((integratorFee.bind (·.transferRecipient)).toList ++
        (zeroExFee.bind (·.base.transferRecipient)).toList)
      (onChainRecipient config.billingType config.feeRecipient)
    have hpaid := paidRecipients_eq fees
    show gasFee.feeAmount = gasFeeAmount opts rate
      ((charges fees).foldl creditFee JsMap.empty).entries.length
    rw [length_transfers, hpaid]
    exact hmade
  · unfold _calculateTotalOnChainFees
    dsimp only
    rw [List.length_map]

/-- A request for an integrator fee of one in a hundred and for gas. -/
def gasBody : Option FeeConfigsBody :=
  some
    { integratorFee := some
        { type := .volume
          feeRecipient := some "0xa"
          billingType := .onChain
          volumePercentage := .fin (1 / 100) }
      gasFee := some { type := .gas, feeRecipient := some "0xb", billingType := .onChain } }

/-- The configuration parsed from that request. -/
def gasConfigs : FeeConfigs where
  integratorFee := some ⟨⟨some "0xa", .onChain⟩, .fin (1 / 100)⟩
  zeroExFee := none
  gasFee := some ⟨⟨some "0xb", .onChain⟩⟩

/-- The options for a sell of a thousand under it. -/
def gasOpts : CalculateFeesOpts :=
  { shareOpts 0 with feeConfigs := some gasConfigs }

theorem gasOpts_valid : gasOpts.Valid :=
  { shareOpts_valid 0 with rate_known := fun _ _ _ => Option.some_ne_none _ }

/-- Gas is charged for the quote and two transfers. -/
theorem gasOpts_charged :
    ∃ out fees gasFee rate,
      calculateFees gasOpts = .ok out ∧ out.fees = some fees ∧ fees.gasFee = some gasFee ∧
        gasOpts.sellTokenAmountPerWei = some rate ∧
          gasFee.feeAmount =
            ((rate.times gasOpts.gasPrice).times
              (gasOpts.quoteGasEstimate.plus out.onChainTransfersGas)).integerValue .floor ∧
          out.onChainTransfersGas =
            gasOpts.gasPerOnChainTransfer.times (.fin out.onChainTransfers.length) := by
  have hbody : _parseFeeConfigs gasBody = .ok gasOpts.feeConfigs := by decide +kernel
  exact gasFee_of_transfers hbody gasOpts_valid rfl (Option.some_ne_none _)

end ZeroExApi.FeeCalculator
