/-
# ZeroExApi.FeeCalculator — the fees of a gasless swap and who is paid them on chain

`_parseFeeConfigs` of `handlers/meta_transaction_handlers.ts` and `calculateFees` of
`utils/fee_calculator.ts`.  Up to three fees are charged: the integrator's, the one of 0x, which may
be a share of the integrator's, and one for gas.  Those billed on chain are merged by recipient.

The transfers are a fold of three charges over a map, so what they add up to and what a recipient is
paid are sums over the charges (`total_foldl_creditFee`, `amountOf_foldl_creditFee`).  The parser
bounds percentages from above only, and the books balance exactly when no fee that is due on chain
is negative or not a number (`conserves_iff`).
-/

import ZeroExApi.AffiliateFees
import ZeroExApi.Lib.JsMap

namespace ZeroExApi.FeeCalculator

open ZeroExApi.Lib ZeroExApi.Lib.BigNumber ZeroExApi.AffiliateFees

/-! ## Configurations -/

/-- How a fee is billed; only `'on-chain'` is ever looked for. -/
inductive BillingType where
  | onChain
  | offChain
  deriving DecidableEq

/-- The `type` of a fee in a request body. -/
inductive FeeType where
  | volume
  | integratorShare
  | gas
  | other (name : String)
  deriving DecidableEq

/-- One fee of `req.body.feeConfigs`; a percentage is what `new BigNumber` makes of the text. -/
structure FeeConfigBody where
  type : FeeType
  feeRecipient : Option String
  billingType : BillingType
  volumePercentage : BigNumber := .nan
  integratorSharePercentage : BigNumber := .nan

/-- `req.body.feeConfigs`. -/
structure FeeConfigsBody where
  integratorFee : Option FeeConfigBody := none
  zeroExFee : Option FeeConfigBody := none
  gasFee : Option FeeConfigBody := none

/-- `FeeConfigBase`. -/
structure FeeConfigBase where
  feeRecipient : Option String
  billingType : BillingType
  deriving DecidableEq

/-- `VolumeBasedFeeConfig`. -/
structure VolumeBasedFeeConfig extends FeeConfigBase where
  volumePercentage : BigNumber
  deriving DecidableEq

/-- `IntegratorShareFeeConfig`. -/
structure IntegratorShareFeeConfig extends FeeConfigBase where
  integratorSharePercentage : BigNumber
  deriving DecidableEq

/-- `VolumeBasedFeeConfig | IntegratorShareFeeConfig`. -/
inductive ZeroExFeeConfig where
  | volume (config : VolumeBasedFeeConfig)
  | integratorShare (config : IntegratorShareFeeConfig)
  deriving DecidableEq

/-- `GasFeeConfig`. -/
structure GasFeeConfig extends FeeConfigBase
  deriving DecidableEq

/-- `FeeConfigs`. -/
structure FeeConfigs where
  integratorFee : Option VolumeBasedFeeConfig
  zeroExFee : Option ZeroExFeeConfig
  gasFee : Option GasFeeConfig
  deriving DecidableEq

def INVALID_GASLESS_FEE_TYPE : ValidationErrorItem :=
  ⟨"feeConfigs", .incorrectFormat, "INVALID_GASLESS_FEE_TYPE"⟩

def PERCENTAGE_OUT_OF_RANGE : ValidationErrorItem :=
  ⟨"feeConfigs", .valueOutOfRange, "MUST_BE_LESS_THAN_OR_EQUAL_TO_ONE"⟩

/-- The integrator fee of `_parseFeeConfigs`. -/
def parseIntegratorFee (integratorFee : FeeConfigBody) :
    Except ValidationErrorItem VolumeBasedFeeConfig :=
  if integratorFee.type ≠ .volume then
    .error INVALID_GASLESS_FEE_TYPE
  else if integratorFee.volumePercentage.gte 1 then
    .error PERCENTAGE_OUT_OF_RANGE
  else
    .ok ⟨⟨integratorFee.feeRecipient, integratorFee.billingType⟩, integratorFee.volumePercentage⟩

/-- The 0x fee of `_parseFeeConfigs`, which may be a share only where there is an integrator fee. -/
def parseZeroExFee (integratorFee : Option VolumeBasedFeeConfig) (zeroExFee : FeeConfigBody) :
    Except ValidationErrorItem ZeroExFeeConfig :=
  match zeroExFee.type with
  | .volume =>
    if zeroExFee.volumePercentage.gte 1 then
      .error PERCENTAGE_OUT_OF_RANGE
    else
      .ok (.volume ⟨⟨zeroExFee.feeRecipient, zeroExFee.billingType⟩, zeroExFee.volumePercentage⟩)
  | .integratorShare =>
    if integratorFee.isNone then
      .error INVALID_GASLESS_FEE_TYPE
    else if zeroExFee.integratorSharePercentage.gte 1 then
      .error PERCENTAGE_OUT_OF_RANGE
    else
      .ok (.integratorShare
        ⟨⟨zeroExFee.feeRecipient, zeroExFee.billingType⟩, zeroExFee.integratorSharePercentage⟩)
  | _ => .error INVALID_GASLESS_FEE_TYPE

/-- The gas fee of `_parseFeeConfigs`. -/
def parseGasFee (gasFee : FeeConfigBody) : Except ValidationErrorItem GasFeeConfig :=
  if gasFee.type ≠ .gas then
    .error INVALID_GASLESS_FEE_TYPE
  else
    .ok ⟨⟨gasFee.feeRecipient, gasFee.billingType⟩⟩

/-- Parse a part of the body that may be missing. -/
def parseOptional {α β : Type} (parse : α → Except ValidationErrorItem β) :
    Option α → Except ValidationErrorItem (Option β)
  | none => .ok none
  | some a => (parse a).map some

/-- `_parseFeeConfigs`. -/
def _parseFeeConfigs (body : Option FeeConfigsBody) :
    Except ValidationErrorItem (Option FeeConfigs) :=
  match body with
  | none => .ok none
  | some feeConfigs => do
    let integratorFee ← parseOptional parseIntegratorFee feeConfigs.integratorFee
    let zeroExFee ← parseOptional (parseZeroExFee integratorFee) feeConfigs.zeroExFee
    let gasFee ← parseOptional parseGasFee feeConfigs.gasFee
    .ok (some ⟨integratorFee, zeroExFee, gasFee⟩)

/-! ## Fees -/

/-- `FeeBase`. -/
structure FeeBase where
  feeToken : String
  feeAmount : BigNumber
  feeRecipient : Option String
  billingType : BillingType

/-- `VolumeBasedFee`. -/
structure VolumeBasedFee extends FeeBase where
  volumePercentage : BigNumber

/-- `IntegratorShareFee`. -/
structure IntegratorShareFee extends FeeBase where
  integratorSharePercentage : BigNumber

/-- `VolumeBasedFee | IntegratorShareFee`. -/
inductive ZeroExFee where
  | volume (fee : VolumeBasedFee)
  | integratorShare (fee : IntegratorShareFee)

/-- `GasFee`. -/
structure GasFee extends FeeBase where
  gasPrice : BigNumber
  estimatedGas : BigNumber
  feeTokenAmountPerWei : BigNumber

/-- `Fees`. -/
structure Fees where
  integratorFee : Option VolumeBasedFee
  zeroExFee : Option ZeroExFee
  gasFee : Option GasFee

/-- What the two kinds of 0x fee share. -/
def ZeroExFee.base : ZeroExFee → FeeBase
  | .volume fee => fee.toFeeBase
  | .integratorShare fee => fee.toFeeBase

/-- What the two kinds of 0x fee configuration share. -/
def ZeroExFeeConfig.base : ZeroExFeeConfig → FeeConfigBase
  | .volume config => config.toFeeConfigBase
  | .integratorShare config => config.toFeeConfigBase

/-- `billingType === 'on-chain' && feeRecipient`: an empty recipient counts as none. -/
def onChainRecipient (billingType : BillingType) (feeRecipient : Option String) : Option String :=
  match billingType, feeRecipient with
  | .onChain, some recipient => if recipient = "" then none else some recipient
  | _, _ => none

/-- The recipient of a fee that is billed on chain, if it has one. -/
def FeeBase.recipient (fee : FeeBase) : Option String :=
  onChainRecipient fee.billingType fee.feeRecipient

/-- The recipient of a fee that is transferred: billed on chain and more than zero. -/
def FeeBase.transferRecipient (fee : FeeBase) : Option String :=
  if fee.feeAmount.gt ZERO_AMOUNT then fee.recipient else none

/-- `_calculateIntegratorFee`. -/
def _calculateIntegratorFee (integratorFeeConfig : Option VolumeBasedFeeConfig)
    (sellToken : String) (sellTokenAmount : BigNumber) : Option VolumeBasedFee :=
  integratorFeeConfig.map fun config =>
    { feeToken := sellToken
      feeAmount := (sellTokenAmount.times config.volumePercentage).integerValue .floor
      feeRecipient := config.feeRecipient
      billingType := config.billingType
      volumePercentage := config.volumePercentage }

/-- `_calculateZeroExFee`. -/
def _calculateZeroExFee (zeroExFeeConfig : Option ZeroExFeeConfig) (sellToken : String)
    (sellTokenAmount : BigNumber) (integratorFee : Option VolumeBasedFee) :
    Except String (Option ZeroExFee) :=
  match zeroExFeeConfig with
  | none => .ok none
  | some (.volume config) =>
    .ok (some (.volume
      { feeToken := sellToken
        feeAmount := (sellTokenAmount.times config.volumePercentage).integerValue .floor
        feeRecipient := config.feeRecipient
        billingType := config.billingType
        volumePercentage := config.volumePercentage }))
  | some (.integratorShare config) =>
    match integratorFee with
    | none => .error "Integrator fee is undefined"
    | some integratorFee =>
      .ok (some (.integratorShare
        { feeToken := sellToken
          feeAmount := (integratorFee.feeAmount.times config.integratorSharePercentage).integerValue
            .floor
          feeRecipient := config.feeRecipient
          billingType := config.billingType
          integratorSharePercentage := config.integratorSharePercentage }))

/-- `_calculateGasFee`. -/
def _calculateGasFee (gasFeeConfig : Option GasFeeConfig) (sellToken : String)
    (sellTokenAmountPerWei : Option BigNumber)
    (gasPrice quoteGasEstimate gasPerOnChainTransfer : BigNumber)
    (integratorFee : Option VolumeBasedFee) (zeroExFee : Option ZeroExFee) :
    Except String (Option GasFee) :=
  match gasFeeConfig with
  | none => .ok none
  | some config =>
    match sellTokenAmountPerWei with
    | none =>
      .error
        "Undefined sellTokenAmountPerWei when gas fee config is not undefined [object Object]"
    | some sellTokenAmountPerWei =>
      -- the set of recipients a fee is transferred to, the gas fee counting as one where it will be
      let feeRecipients :=
        (integratorFee.bind (·.transferRecipient)).toList ++
          (zeroExFee.bind (·.base.transferRecipient)).toList ++
            (if sellTokenAmountPerWei.gt ZERO_AMOUNT then
              onChainRecipient config.billingType config.feeRecipient
            else
              none).toList
      let numOnChainTransfer : BigNumber := .fin feeRecipients.dedup.length
      let estimatedGas := quoteGasEstimate.plus (gasPerOnChainTransfer.times numOnChainTransfer)
      .ok (some
        { feeToken := sellToken
          feeAmount :=
            ((sellTokenAmountPerWei.times gasPrice).times estimatedGas).integerValue .floor
          feeRecipient := config.feeRecipient
          billingType := config.billingType
          gasPrice := gasPrice
          estimatedGas := estimatedGas
          feeTokenAmountPerWei := sellTokenAmountPerWei })

/-! ## Transfers -/

/-- `OnChainTransfer`. -/
structure OnChainTransfer where
  feeToken : String
  feeAmount : BigNumber
  feeRecipient : String
  deriving DecidableEq

/-- What a recipient has been credited so far. -/
def amountOf (transfers : JsMap String OnChainTransfer) (recipient : String) : BigNumber :=
  match transfers.get recipient with
  | some transfer => transfer.feeAmount
  | none => ZERO_AMOUNT

/-- One branch of `_calculateTotalOnChainFees`: credit an amount for a fee that is transferred. -/
def creditFee (transfers : JsMap String OnChainTransfer) (charge : FeeBase × BigNumber) :
    JsMap String OnChainTransfer :=
  match charge.1.transferRecipient with
  | some recipient =>
    transfers.set recipient
      { feeToken := charge.1.feeToken
        feeAmount := (amountOf transfers recipient).plus charge.2
        feeRecipient := recipient }
  | none => transfers

/-- What is taken out of the integrator's transfer: the share of 0x, where it is due on chain. -/
def zeroExFeeAdjustment : Option ZeroExFee → BigNumber
  | some (.integratorShare fee) => if fee.recipient.isSome then fee.feeAmount else ZERO_AMOUNT
  | _ => ZERO_AMOUNT

/-- The fees in the order they are charged, with the amounts that are credited for them. -/
def charges (fees : Fees) : List (FeeBase × BigNumber) :=
  (fees.integratorFee.toList.map fun fee =>
      (fee.toFeeBase, fee.feeAmount.minus (zeroExFeeAdjustment fees.zeroExFee))) ++
    (fees.zeroExFee.toList.map fun fee => (fee.base, fee.base.feeAmount)) ++
      fees.gasFee.toList.map fun fee => (fee.toFeeBase, fee.feeAmount)

/-- What `calculateFees` returns. -/
structure CalculatedFees where
  fees : Option Fees
  totalOnChainFeeAmount : BigNumber
  onChainTransfers : List OnChainTransfer
  onChainTransfersGas : BigNumber

/-- The sum of what is transferred. -/
def sumFeeAmounts (transfers : List OnChainTransfer) : BigNumber :=
  transfers.foldl (fun total transfer => total.plus transfer.feeAmount) ZERO_AMOUNT

/-- `_calculateTotalOnChainFees`. -/
def _calculateTotalOnChainFees (fees : Fees) (gasPerOnChainTransfer : BigNumber) :
    CalculatedFees :=
  let feeRecipientToOnChainTransfer := (charges fees).foldl creditFee JsMap.empty
  let onChainTransfers := feeRecipientToOnChainTransfer.entries.map Prod.snd
  { fees := some fees
    totalOnChainFeeAmount := sumFeeAmounts onChainTransfers
    onChainTransfers := onChainTransfers
    onChainTransfersGas :=
      gasPerOnChainTransfer.times (.fin feeRecipientToOnChainTransfer.entries.length) }

/-- The options of `calculateFees`. -/
structure CalculateFeesOpts where
  feeConfigs : Option FeeConfigs
  sellToken : String
  sellTokenAmount : BigNumber
  sellTokenAmountPerWei : Option BigNumber
  gasPrice : BigNumber
  quoteGasEstimate : BigNumber
  gasPerOnChainTransfer : BigNumber

/-- `calculateFees`. -/
def calculateFees (opts : CalculateFeesOpts) : Except String CalculatedFees :=
  match opts.feeConfigs with
  | none => .ok ⟨none, ZERO_AMOUNT, [], ZERO_AMOUNT⟩
  | some feeConfigs => do
    let integratorFee :=
      _calculateIntegratorFee feeConfigs.integratorFee opts.sellToken opts.sellTokenAmount
    let zeroExFee ←
      _calculateZeroExFee feeConfigs.zeroExFee opts.sellToken opts.sellTokenAmount integratorFee
    let gasFee ← _calculateGasFee feeConfigs.gasFee opts.sellToken opts.sellTokenAmountPerWei
      opts.gasPrice opts.quoteGasEstimate opts.gasPerOnChainTransfer integratorFee zeroExFee
    .ok (_calculateTotalOnChainFees ⟨integratorFee, zeroExFee, gasFee⟩ opts.gasPerOnChainTransfer)

/-! ## What the fold of charges adds up to -/

/-- Every transfer stands under its recipient. -/
def Keyed (transfers : JsMap String OnChainTransfer) : Prop :=
  ∀ e ∈ transfers.entries, e.2.feeRecipient = e.1

theorem keyed_empty : Keyed JsMap.empty := fun _ he => absurd he List.not_mem_nil

theorem keyed_creditFee {transfers : JsMap String OnChainTransfer} (h : Keyed transfers)
    (charge : FeeBase × BigNumber) : Keyed (creditFee transfers charge) := by
  unfold creditFee
  split
  · rename_i recipient _
    intro e he
    rcases JsMap.mem_entries_set he with rfl | hold
    · rfl
    · exact h e hold
  · exact h

theorem keyed_foldl_creditFee {transfers : JsMap String OnChainTransfer} (h : Keyed transfers)
    (cs : List (FeeBase × BigNumber)) : Keyed (cs.foldl creditFee transfers) := by
  induction cs generalizing transfers with
  | nil => exact h
  | cons c cs ih => exact ih (keyed_creditFee h c)

/-- What a charge credits a recipient. -/
def creditTo (recipient : String) (charge : FeeBase × BigNumber) : BigNumber :=
  if charge.1.transferRecipient = some recipient then charge.2 else ZERO_AMOUNT

/-- What a charge credits anyone. -/
def credited (charge : FeeBase × BigNumber) : BigNumber :=
  if charge.1.transferRecipient.isSome then charge.2 else ZERO_AMOUNT

theorem sumFeeAmounts_eq (transfers : List OnChainTransfer) :
    sumFeeAmounts transfers = sumAmounts (transfers.map (·.feeAmount)) := by
  unfold sumFeeAmounts sumAmounts
  rw [List.foldl_map]
  rfl

theorem amountOf_creditFee (transfers : JsMap String OnChainTransfer)
    (charge : FeeBase × BigNumber) (recipient : String) :
    amountOf (creditFee transfers charge) recipient
      = (amountOf transfers recipient).plus (creditTo recipient charge) := by
  unfold creditFee creditTo
  cases hto : charge.1.transferRecipient with
  | none =>
    simp only [reduceCtorEq, if_false]
    exact (BigNumber.plus_zero _).symm
  | some payee =>
    by_cases heq : recipient = payee
    · subst heq
      simp only [amountOf, JsMap.get_set, if_true]
    · have hne : some payee ≠ some recipient := fun h => heq (Option.some.inj h).symm
      simp only [amountOf, JsMap.get_set, heq, if_false, hne]
      exact (BigNumber.plus_zero _).symm

/-- A recipient is paid the sum of what the charges credit it. -/
theorem amountOf_foldl_creditFee (transfers : JsMap String OnChainTransfer)
    (cs : List (FeeBase × BigNumber)) (recipient : String) :
    amountOf (cs.foldl creditFee transfers) recipient
      = (amountOf transfers recipient).plus (sumAmounts (cs.map (creditTo recipient))) := by
  induction cs generalizing transfers with
  | nil => exact (BigNumber.plus_zero _).symm
  | cons c cs ih =>
    rw [List.foldl_cons, ih, amountOf_creditFee, List.map_cons, sumAmounts_cons,
      BigNumber.plus_assoc]

/-- The sum of the transfers of a map. -/
def total (transfers : JsMap String OnChainTransfer) : BigNumber :=
  sumAmounts (transfers.entries.map fun e => e.2.feeAmount)

/-- Replacing the amount under a key by that amount and more adds what is more to the sum. -/
theorem sumAmounts_assign (recipient : String) (transfer : OnChainTransfer) (amount : BigNumber)
    (es : List (String × OnChainTransfer))
    (h : transfer.feeAmount
      = BigNumber.plus
          (match JsMap.lookup recipient es with
            | some t => t.feeAmount
            | none => ZERO_AMOUNT) amount) :
    sumAmounts ((JsMap.assign recipient transfer es).map fun e => e.2.feeAmount)
      = (sumAmounts (es.map fun e => e.2.feeAmount)).plus amount := by
  induction es with
  | nil =>
    show (BigNumber.fin 0).plus transfer.feeAmount = (BigNumber.fin 0).plus amount
    rw [h]
    show (BigNumber.fin 0).plus ((BigNumber.fin 0).plus amount) = (BigNumber.fin 0).plus amount
    rw [BigNumber.zero_plus]
  | cons e es ih =>
    by_cases he : e.1 = recipient
    · simp only [JsMap.lookup, he, if_true] at h
      simp only [JsMap.assign, he, if_true, List.map_cons, sumAmounts_cons, h]
      rw [BigNumber.plus_assoc, BigNumber.plus_comm amount, ← BigNumber.plus_assoc]
    · simp only [JsMap.lookup, he, if_false] at h
      simp only [JsMap.assign, he, if_false, List.map_cons, sumAmounts_cons, ih h]
      rw [BigNumber.plus_assoc]

theorem total_creditFee (transfers : JsMap String OnChainTransfer)
    (charge : FeeBase × BigNumber) :
    total (creditFee transfers charge) = (total transfers).plus (credited charge) := by
  unfold creditFee credited
  cases charge.1.transferRecipient with
  | none => exact (BigNumber.plus_zero _).symm
  | some payee => exact sumAmounts_assign payee _ _ _ rfl

/-- The transfers add up to what the charges credit. -/
theorem total_foldl_creditFee (transfers : JsMap String OnChainTransfer)
    (cs : List (FeeBase × BigNumber)) :
    total (cs.foldl creditFee transfers)
      = (total transfers).plus (sumAmounts (cs.map credited)) := by
  induction cs generalizing transfers with
  | nil => exact (BigNumber.plus_zero _).symm
  | cons c cs ih =>
    rw [List.foldl_cons, ih, total_creditFee, List.map_cons, sumAmounts_cons,
      BigNumber.plus_assoc]

/-! ## Books that balance -/

/-- The fees that are charged, in order. -/
def allFees (fees : Fees) : List FeeBase :=
  (fees.integratorFee.toList.map fun fee => fee.toFeeBase) ++
    (fees.zeroExFee.toList.map fun fee => fee.base) ++
      fees.gasFee.toList.map fun fee => fee.toFeeBase

/-- What a fee adds to the total: its amount, where it is due on chain and has a recipient. -/
def due : Option FeeBase → BigNumber
  | some fee => if fee.recipient.isSome then fee.feeAmount else ZERO_AMOUNT
  | none => ZERO_AMOUNT

/-- Whether a 0x fee is a share of the integrator's. -/
def isIntegratorShare : Option ZeroExFee → Bool
  | some (.integratorShare _) => true
  | _ => false

/-- The integrator fee, the 0x fee and the gas fee that are due, but for a share that is taken out
of an integrator fee which is transferred itself. -/
def totalDue (fees : Fees) : BigNumber :=
  ((due (fees.integratorFee.map (·.toFeeBase))).plus
    (if isIntegratorShare fees.zeroExFee ∧
        (fees.integratorFee.bind (·.transferRecipient)).isSome then
      ZERO_AMOUNT
    else
      due (fees.zeroExFee.map (·.base)))).plus
    (due (fees.gasFee.map (·.toFeeBase)))

/-- The fees that are configured for a recipient. -/
def configuredFor (fees : Fees) (recipient : String) : BigNumber :=
  sumAmounts ((allFees fees).map fun fee =>
    if fee.recipient = some recipient then fee.feeAmount else ZERO_AMOUNT)

/-- The charged amounts are conserved: the recipients are distinct, their amounts are not negative
and add up to the total, the total is what is due, and nobody receives more than is configured. -/
structure Conserves (out : CalculatedFees) : Prop where
  distinct : (out.onChainTransfers.map (·.feeRecipient)).Nodup
  amounts : ∀ transfer ∈ out.onChainTransfers, IsAmount transfer.feeAmount
  total_eq : out.totalOnChainFeeAmount = sumFeeAmounts out.onChainTransfers
  total_due : out.totalOnChainFeeAmount = totalDue (out.fees.getD ⟨none, none, none⟩)
  bounded : ∀ transfer ∈ out.onChainTransfers, transfer.feeAmount.lte
    (configuredFor (out.fees.getD ⟨none, none, none⟩) transfer.feeRecipient) = true

/-- The amount of the 0x fee before it is rounded. -/
def unroundedZeroExFee (configs : FeeConfigs) (sellTokenAmount : BigNumber) :
    ZeroExFeeConfig → BigNumber
  | .volume config => sellTokenAmount.times config.volumePercentage
  | .integratorShare config =>
    match configs.integratorFee with
    | some integratorFee =>
      ((sellTokenAmount.times integratorFee.volumePercentage).integerValue .floor).times
        config.integratorSharePercentage
    | none => .nan

/-- No percentage that is charged on chain makes for a fee that is negative or not a number. -/
structure Chargeable (configs : FeeConfigs) (sellTokenAmount : BigNumber) : Prop where
  integratorFee : ∀ config, configs.integratorFee = some config →
    onChainRecipient config.billingType config.feeRecipient ≠ none →
      IsAmount (sellTokenAmount.times config.volumePercentage)
  zeroExFee : ∀ config, configs.zeroExFee = some config →
    onChainRecipient config.base.billingType config.base.feeRecipient ≠ none →
      IsAmount (unroundedZeroExFee configs sellTokenAmount config)

/-- Amounts, prices and gas as the callers give them; the rate is known where gas is charged for. -/
structure CalculateFeesOpts.Valid (opts : CalculateFeesOpts) : Prop where
  sellTokenAmount : IsAmount opts.sellTokenAmount
  rate : ∀ rate, opts.sellTokenAmountPerWei = some rate → IsAmount rate
  rate_known : ∀ configs, opts.feeConfigs = some configs → configs.gasFee ≠ none →
    opts.sellTokenAmountPerWei ≠ none
  gasPrice : IsAmount opts.gasPrice
  quoteGasEstimate : IsAmount opts.quoteGasEstimate
  gasPerOnChainTransfer : IsAmount opts.gasPerOnChainTransfer

/-! ## The transfers of a list of charges -/

theorem amountOf_eq_of_mem {transfers : JsMap String OnChainTransfer} (h : Keyed transfers)
    {e : String × OnChainTransfer} (he : e ∈ transfers.entries) :
    amountOf transfers e.2.feeRecipient = e.2.feeAmount := by
  have hget : transfers.get e.1 = some e.2 := (transfers.get_eq_some_iff e.1 e.2).mpr he
  simp only [amountOf, h e he, hget]

theorem charges_map_fst (fees : Fees) : (charges fees).map Prod.fst = allFees fees := by
  simp only [charges, allFees, List.map_append, List.map_map, Function.comp_def]

theorem recipient_of_transferRecipient {fee : FeeBase} {recipient : String}
    (h : fee.transferRecipient = some recipient) : fee.recipient = some recipient := by
  unfold FeeBase.transferRecipient at h
  split at h
  · exact h
  · cases h

/-- A charge that is at most its fee credits a recipient at most what the fee is to bring it. -/
theorem amountLe_creditTo {charge : FeeBase × BigNumber} (recipient : String)
    (h : charge.1.recipient ≠ none → AmountLe charge.2 charge.1.feeAmount)
    (hfee : charge.1.recipient ≠ none → IsAmount charge.1.feeAmount) :
    AmountLe (creditTo recipient charge)
      (if charge.1.recipient = some recipient then charge.1.feeAmount else ZERO_AMOUNT) := by
  unfold creditTo
  by_cases hto : charge.1.transferRecipient = some recipient
  · have hrec := recipient_of_transferRecipient hto
    rw [if_pos hto, if_pos hrec]
    exact h (by rw [hrec]; exact Option.some_ne_none _)
  · rw [if_neg hto]
    split
    · rename_i hrec
      exact (hfee (by rw [hrec]; exact Option.some_ne_none _)).zero_le
    · exact isAmount_zero.refl

/-- The transfers of a list of charges, as far as the charges decide them. -/
theorem transfers_of_charges (fees : Fees) (gasPerOnChainTransfer : BigNumber) :
    ((_calculateTotalOnChainFees fees gasPerOnChainTransfer).onChainTransfers.map
        (·.feeRecipient)).Nodup ∧
      (∀ transfer ∈ (_calculateTotalOnChainFees fees gasPerOnChainTransfer).onChainTransfers,
        transfer.feeAmount = sumAmounts ((charges fees).map (creditTo transfer.feeRecipient))) ∧
      (_calculateTotalOnChainFees fees gasPerOnChainTransfer).totalOnChainFeeAmount
        = sumAmounts ((charges fees).map credited) := by
  have hkeyed := keyed_foldl_creditFee keyed_empty (charges fees)
  refine ⟨?_, ?_, ?_⟩
  · have hkeys : (((charges fees).foldl creditFee JsMap.empty).entries.map Prod.snd).map
        (·.feeRecipient)
        = ((charges fees).foldl creditFee JsMap.empty).entries.map Prod.fst := by
      rw [List.map_map]
      exact List.map_congr_left fun e he => hkeyed e he
    show ((((charges fees).foldl creditFee JsMap.empty).entries.map Prod.snd).map
      (·.feeRecipient)).Nodup
    rw [hkeys]
    exact ((charges fees).foldl creditFee JsMap.empty).nodup
  · intro transfer hmem
    obtain ⟨e, he, rfl⟩ := List.mem_map.mp hmem
    rw [← amountOf_eq_of_mem hkeyed he, amountOf_foldl_creditFee]
    exact zero_plus _
  · show sumFeeAmounts (((charges fees).foldl creditFee JsMap.empty).entries.map Prod.snd)
      = sumAmounts ((charges fees).map credited)
    rw [sumFeeAmounts_eq, List.map_map]
    show total ((charges fees).foldl creditFee JsMap.empty) = _
    rw [total_foldl_creditFee]
    exact zero_plus _

/-- The part of a number above zero. -/
def positivePart (x : BigNumber) : BigNumber := if x.gt ZERO_AMOUNT then x else ZERO_AMOUNT

theorem positivePart_fin (q : ℚ) : positivePart (fin q) = fin (Max.max q 0) := by
  show (if decide (0 < q) then fin q else fin 0) = fin (Max.max q 0)
  by_cases hpos : 0 < q
  · rw [if_pos (decide_eq_true hpos), max_eq_left hpos.le]
  · rw [if_neg (by simpa using hpos), max_eq_right (not_lt.mp hpos)]

theorem positivePart_of_isAmount {x : BigNumber} (h : IsAmount x) : positivePart x = x := by
  obtain ⟨q, rfl, hq⟩ := h
  rw [positivePart_fin, max_eq_left hq]

/-- A fee is transferred when what is due of it is more than zero. -/
theorem isSome_transferRecipient (fee : FeeBase) :
    fee.transferRecipient.isSome = (due (some fee)).gt ZERO_AMOUNT := by
  have hdue : due (some fee) = if fee.recipient.isSome then fee.feeAmount else ZERO_AMOUNT := rfl
  rw [hdue]
  unfold FeeBase.transferRecipient
  cases fee.recipient with
  | none =>
    rw [ite_self]
    rfl
  | some recipient =>
    show (if fee.feeAmount.gt ZERO_AMOUNT then some recipient else none).isSome
      = fee.feeAmount.gt ZERO_AMOUNT
    cases fee.feeAmount.gt ZERO_AMOUNT <;> rfl

/-- Where the 0x fee stands after the adjustment: what is due of it, if it is a share. -/
theorem zeroExFeeAdjustment_eq (zeroExFee : Option ZeroExFee) :
    zeroExFeeAdjustment zeroExFee
      = if isIntegratorShare zeroExFee then due (zeroExFee.map (·.base)) else ZERO_AMOUNT := by
  rcases zeroExFee with _ | fee | fee <;> rfl

/-- What is credited for a fee at its own amount is the part of what is due above zero. -/
theorem credited_self (fee : FeeBase) :
    credited (fee, fee.feeAmount) = positivePart (due (some fee)) := by
  show (if fee.transferRecipient.isSome then fee.feeAmount else ZERO_AMOUNT)
    = if (due (some fee)).gt ZERO_AMOUNT then due (some fee) else ZERO_AMOUNT
  rw [isSome_transferRecipient]
  split
  · rename_i hpos
    show fee.feeAmount = if fee.recipient.isSome then fee.feeAmount else ZERO_AMOUNT
    split
    · rfl
    · rename_i hnone
      simp [due, hnone, ZERO_AMOUNT] at hpos
  · rfl

/-- What is credited for a fee that may be missing. -/
theorem sumAmounts_credited_self {α : Type} (fee : Option α) (base : α → FeeBase) :
    sumAmounts (fee.toList.map fun a => credited (base a, (base a).feeAmount))
      = positivePart (due (fee.map base)) := by
  cases fee with
  | none => rfl
  | some fee =>
    show sumAmounts [credited (base fee, (base fee).feeAmount)] = _
    rw [sumAmounts_cons, sumAmounts_nil, plus_zero, credited_self]
    rfl

/-- What is credited for the integrator fee: what is due of it, without the adjustment. -/
theorem sumAmounts_credited_integratorFee (fee : Option VolumeBasedFee) (adjustment : BigNumber) :
    sumAmounts (fee.toList.map fun fee =>
        credited (fee.toFeeBase, fee.feeAmount.minus adjustment))
      = if (due (fee.map (·.toFeeBase))).gt ZERO_AMOUNT then
          (due (fee.map (·.toFeeBase))).minus adjustment
        else
          ZERO_AMOUNT := by
  cases fee with
  | none => rfl
  | some fee =>
    show sumAmounts [credited (fee.toFeeBase, fee.feeAmount.minus adjustment)]
      = if (due (some fee.toFeeBase)).gt ZERO_AMOUNT then
          (due (some fee.toFeeBase)).minus adjustment
        else
          ZERO_AMOUNT
    rw [sumAmounts_cons, sumAmounts_nil, plus_zero]
    show (if fee.transferRecipient.isSome then fee.feeAmount.minus adjustment else ZERO_AMOUNT) = _
    rw [isSome_transferRecipient]
    split
    · rename_i hpos
      have hsome : fee.recipient.isSome = true := by
        by_contra hnone
        simp [due, hnone, ZERO_AMOUNT] at hpos
      simp only [due, hsome, if_true]
    · rfl

/-- The total of the transfers, by what is due of each fee. -/
theorem sumAmounts_credited_charges (fees : Fees) :
    sumAmounts ((charges fees).map credited)
      = ((if (due (fees.integratorFee.map (·.toFeeBase))).gt ZERO_AMOUNT then
            (due (fees.integratorFee.map (·.toFeeBase))).minus
              (zeroExFeeAdjustment fees.zeroExFee)
          else
            ZERO_AMOUNT).plus
          (positivePart (due (fees.zeroExFee.map (·.base))))).plus
        (positivePart (due (fees.gasFee.map (·.toFeeBase)))) := by
  unfold charges
  rw [List.map_append, List.map_append, sumAmounts_append, sumAmounts_append,
    List.map_map, List.map_map, List.map_map]
  exact congrArg₂ BigNumber.plus
    (congrArg₂ BigNumber.plus (sumAmounts_credited_integratorFee _ _)
      (sumAmounts_credited_self fees.zeroExFee ZeroExFee.base))
    (sumAmounts_credited_self fees.gasFee (·.toFeeBase))

/-- What is credited for the integrator fee and the 0x fee together. -/
def creditedShares (integratorFee zeroExFee : BigNumber) (share : Bool) : BigNumber :=
  (if integratorFee.gt ZERO_AMOUNT then
    integratorFee.minus (if share then zeroExFee else ZERO_AMOUNT)
  else
    ZERO_AMOUNT).plus (positivePart zeroExFee)

/-- What is due of the integrator fee and the 0x fee together. -/
def dueShares (integratorFee zeroExFee : BigNumber) (share : Bool) : BigNumber :=
  integratorFee.plus
    (if share ∧ integratorFee.gt ZERO_AMOUNT then ZERO_AMOUNT else zeroExFee)

/-- A positive integrator fee a share is taken out of: the share comes back as the 0x fee. -/
theorem creditedShares_share {f : ℚ} (hf : 0 < f) (zeroExFee : BigNumber) :
    creditedShares (fin f) zeroExFee true
      = ((fin f).minus zeroExFee).plus (positivePart zeroExFee) := by
  show (if decide (0 < f) then (fin f).minus zeroExFee else ZERO_AMOUNT).plus _ = _
  rw [if_pos (decide_eq_true hf)]

theorem dueShares_share {f : ℚ} (hf : 0 < f) (zeroExFee : BigNumber) :
    dueShares (fin f) zeroExFee true = fin f := by
  unfold dueShares
  rw [if_pos ⟨rfl, decide_eq_true hf⟩]
  exact plus_zero _

/-- Without a share to take out, what is credited is what is positive of either fee. -/
theorem creditedShares_of_not {f : ℚ} {share : Bool} (h : ¬ (share = true ∧ 0 < f))
    (zeroExFee : BigNumber) :
    creditedShares (fin f) zeroExFee share
      = (fin (Max.max f 0)).plus (positivePart zeroExFee) := by
  unfold creditedShares
  show (if decide (0 < f) then
      (fin f).minus (if share then zeroExFee else ZERO_AMOUNT)
    else
      fin 0).plus _ = _
  by_cases hf : 0 < f
  · have hshare : share = false := by simpa [hf] using h
    rw [if_pos (decide_eq_true hf), hshare, max_eq_left hf.le]
    show ((fin f).minus (fin 0)).plus _ = _
    rw [minus_fin, sub_zero]
  · rw [if_neg (by simpa using hf), max_eq_right (not_lt.mp hf)]

theorem dueShares_of_not {f : ℚ} {share : Bool} (h : ¬ (share = true ∧ 0 < f))
    (zeroExFee : BigNumber) :
    dueShares (fin f) zeroExFee share = (fin f).plus zeroExFee := by
  unfold dueShares
  rw [if_neg]
  rintro ⟨hshare, hf⟩
  exact h ⟨hshare, of_decide_eq_true hf⟩

/-- What is credited is what is due when neither fee is negative or not a number. -/
theorem creditedShares_eq_of_isAmount {integratorFee zeroExFee : BigNumber} {share : Bool}
    (hf : IsAmount integratorFee) (hz : IsAmount zeroExFee) :
    creditedShares integratorFee zeroExFee share = dueShares integratorFee zeroExFee share := by
  obtain ⟨f, rfl, hf⟩ := hf
  by_cases h : share = true ∧ 0 < f
  · obtain ⟨rfl, hpos⟩ := h
    rw [creditedShares_share hpos, dueShares_share hpos, positivePart_of_isAmount hz]
    obtain ⟨z, rfl, _⟩ := hz
    rw [minus_fin, plus_fin, sub_add_cancel]
  · rw [creditedShares_of_not h, dueShares_of_not h, positivePart_of_isAmount hz, max_eq_left hf]

/-- Where what is credited is finite and is what is due, neither fee is negative. -/
theorem isAmount_of_creditedShares_eq {integratorFee zeroExFee : BigNumber} {share : Bool} {r : ℚ}
    (hcredited : creditedShares integratorFee zeroExFee share = fin r)
    (hdue : dueShares integratorFee zeroExFee share = fin r) :
    IsAmount integratorFee ∧ IsAmount zeroExFee := by
  obtain ⟨f, _, rfl, _, _⟩ := plus_eq_fin hdue
  by_cases h : share = true ∧ 0 < f
  · obtain ⟨rfl, hpos⟩ := h
    rw [creditedShares_share hpos] at hcredited
    rw [dueShares_share hpos] at hdue
    obtain ⟨_, _, hminus, _, _⟩ := plus_eq_fin hcredited
    -- the difference is finite, so the share is
    obtain ⟨_, n, _, hneg, _⟩ := plus_eq_fin (show (fin f).plus zeroExFee.neg = fin _ from hminus)
    obtain ⟨z, rfl⟩ : ∃ z, zeroExFee = fin z := by
      rcases zeroExFee with _ | b | z
      · cases hneg
      · cases hneg
      · exact ⟨z, rfl⟩
    rw [minus_fin, positivePart_fin, plus_fin] at hcredited
    have hsum : f - z + Max.max z 0 = f := (fin.inj hcredited).trans (fin.inj hdue).symm
    have hmax : z = Max.max z 0 := by linarith
    exact ⟨isAmount_fin.mpr hpos.le, isAmount_fin.mpr (hmax.symm ▸ le_max_right z 0)⟩
  · rw [creditedShares_of_not h] at hcredited
    rw [dueShares_of_not h] at hdue
    obtain ⟨_, z, _, rfl, _⟩ := plus_eq_fin hdue
    rw [positivePart_fin, plus_fin] at hcredited
    rw [plus_fin] at hdue
    have hsum : Max.max f 0 + Max.max z 0 = f + z := (fin.inj hcredited).trans (fin.inj hdue).symm
    have hf := le_max_left f 0
    have hz := le_max_left z 0
    have hf₀ := le_max_right f 0
    have hz₀ := le_max_right z 0
    constructor
    · exact isAmount_fin.mpr (by linarith)
    · exact isAmount_fin.mpr (by linarith)

/-- The charges as the three fees. -/
theorem mem_charges_cases (fees : Fees) {charge : FeeBase × BigNumber} (h : charge ∈ charges fees) :
    (∃ fee, fees.integratorFee = some fee ∧
        charge = (fee.toFeeBase, fee.feeAmount.minus (zeroExFeeAdjustment fees.zeroExFee))) ∨
      (∃ fee, fees.zeroExFee = some fee ∧ charge = (fee.base, fee.base.feeAmount)) ∨
        ∃ fee, fees.gasFee = some fee ∧ charge = (fee.toFeeBase, fee.feeAmount) := by
  simp only [charges, List.mem_append, List.mem_map, Option.mem_toList] at h
  rcases h with (⟨fee, hfee, rfl⟩ | ⟨fee, hfee, rfl⟩) | ⟨fee, hfee, rfl⟩
  · exact .inl ⟨fee, hfee, rfl⟩
  · exact .inr (.inl ⟨fee, hfee, rfl⟩)
  · exact .inr (.inr ⟨fee, hfee, rfl⟩)

theorem due_of_recipient {fee : FeeBase} (h : fee.recipient ≠ none) :
    due (some fee) = fee.feeAmount := by
  show (if fee.recipient.isSome then fee.feeAmount else ZERO_AMOUNT) = fee.feeAmount
  rw [if_pos (Option.isSome_iff_ne_none.mpr h)]

/-- A fee is due at a sound amount when it has no recipient or its amount is sound. -/
theorem isAmount_due_iff (fee : FeeBase) :
    IsAmount (due (some fee)) ↔ (fee.recipient ≠ none → IsAmount fee.feeAmount) := by
  by_cases h : fee.recipient = none
  · have hdue : due (some fee) = ZERO_AMOUNT := by
      show (if fee.recipient.isSome then fee.feeAmount else ZERO_AMOUNT) = ZERO_AMOUNT
      rw [h]
      rfl
    rw [hdue]
    exact iff_of_true isAmount_zero fun hne => absurd h hne
  · rw [due_of_recipient h]
    exact ⟨fun hamount _ => hamount, fun hamount => hamount h⟩

/-- The three amounts due, and a share of the integrator fee that is at most that fee. -/
structure Sound (fees : Fees) : Prop where
  integratorFee : IsAmount (due (fees.integratorFee.map (·.toFeeBase)))
  zeroExFee : IsAmount (due (fees.zeroExFee.map (·.base)))
  gasFee : IsAmount (due (fees.gasFee.map (·.toFeeBase)))

/-- A share that is at most the integrator fee it is taken out of. -/
def ShareBounded (fees : Fees) : Prop :=
  ∀ integratorFee share, fees.integratorFee = some integratorFee →
    fees.zeroExFee = some (.integratorShare share) →
      IsAmount integratorFee.feeAmount → IsAmount share.feeAmount →
        AmountLe share.feeAmount integratorFee.feeAmount

/-- With sound fees, every charge is an amount and at most its fee. -/
theorem charge_amountLe {fees : Fees} (hsound : Sound fees) (hshare : ShareBounded fees)
    {charge : FeeBase × BigNumber} (h : charge ∈ charges fees)
    (hrec : charge.1.recipient ≠ none) :
    IsAmount charge.1.feeAmount ∧ AmountLe charge.2 charge.1.feeAmount := by
  rcases mem_charges_cases fees h with ⟨fee, hfee, rfl⟩ | ⟨fee, hfee, rfl⟩ | ⟨fee, hfee, rfl⟩
  · have hdue := hsound.integratorFee
    rw [hfee] at hdue
    have hamount : IsAmount fee.feeAmount := (isAmount_due_iff fee.toFeeBase).mp hdue hrec
    refine ⟨hamount, ?_⟩
    have hadjust : AmountLe (zeroExFeeAdjustment fees.zeroExFee) fee.feeAmount := by
      unfold zeroExFeeAdjustment
      split
      · rename_i share hzeroEx
        split
        · rename_i hsome
          have hdue₀ := hsound.zeroExFee
          rw [hzeroEx] at hdue₀
          exact hshare fee share hfee hzeroEx hamount
            ((isAmount_due_iff share.toFeeBase).mp hdue₀ (Option.isSome_iff_ne_none.mp hsome))
        · exact hamount.zero_le
      · exact hamount.zero_le
    obtain ⟨p, q, hp, hq, hp₀, hpq⟩ := hadjust
    show AmountLe (fee.feeAmount.minus (zeroExFeeAdjustment fees.zeroExFee)) fee.feeAmount
    rw [hp, hq]
    exact ⟨q - p, q, minus_fin q p, rfl, sub_nonneg.mpr hpq, sub_le_self q hp₀⟩
  · have hdue := hsound.zeroExFee
    rw [hfee] at hdue
    have hamount : IsAmount fee.base.feeAmount := (isAmount_due_iff fee.base).mp hdue hrec
    exact ⟨hamount, hamount.refl⟩
  · have hdue := hsound.gasFee
    rw [hfee] at hdue
    have hamount : IsAmount fee.feeAmount := (isAmount_due_iff fee.toFeeBase).mp hdue hrec
    exact ⟨hamount, hamount.refl⟩

theorem AmountLe_lte {x y : BigNumber} (h : AmountLe x y) : x.lte y = true := by
  obtain ⟨p, q, rfl, rfl, _, hpq⟩ := h
  exact decide_eq_true hpq

/-- The total is what is credited for the two shares and for gas. -/
theorem totalOnChainFeeAmount_eq (fees : Fees) (gasPerOnChainTransfer : BigNumber)
    (hgas : IsAmount (due (fees.gasFee.map (·.toFeeBase)))) :
    (_calculateTotalOnChainFees fees gasPerOnChainTransfer).totalOnChainFeeAmount
      = (creditedShares (due (fees.integratorFee.map (·.toFeeBase)))
          (due (fees.zeroExFee.map (·.base))) (isIntegratorShare fees.zeroExFee)).plus
        (due (fees.gasFee.map (·.toFeeBase))) := by
  rw [(transfers_of_charges fees gasPerOnChainTransfer).2.2, sumAmounts_credited_charges,
    zeroExFeeAdjustment_eq, positivePart_of_isAmount hgas]
  rfl

theorem totalDue_eq (fees : Fees) :
    totalDue fees
      = (dueShares (due (fees.integratorFee.map (·.toFeeBase)))
          (due (fees.zeroExFee.map (·.base))) (isIntegratorShare fees.zeroExFee)).plus
        (due (fees.gasFee.map (·.toFeeBase))) := by
  have htransferred : (fees.integratorFee.bind (·.transferRecipient)).isSome
      = (due (fees.integratorFee.map (·.toFeeBase))).gt ZERO_AMOUNT := by
    cases fees.integratorFee with
    | none => rfl
    | some fee => exact isSome_transferRecipient fee.toFeeBase
  unfold totalDue dueShares
  rw [htransferred]

/-- The books of three fees balance exactly when what is due of each is sound. -/
theorem conserves_fees_iff {fees : Fees} (gasPerOnChainTransfer : BigNumber)
    (hgas : IsAmount (due (fees.gasFee.map (·.toFeeBase)))) (hshare : ShareBounded fees) :
    Conserves (_calculateTotalOnChainFees fees gasPerOnChainTransfer) ↔
      IsAmount (due (fees.integratorFee.map (·.toFeeBase))) ∧
        IsAmount (due (fees.zeroExFee.map (·.base))) := by
  obtain ⟨hdistinct, hamounts, _⟩ := transfers_of_charges fees gasPerOnChainTransfer
  have htotal := totalOnChainFeeAmount_eq fees gasPerOnChainTransfer hgas
  constructor
  · intro h
    have hfinite : IsAmount
        (_calculateTotalOnChainFees fees gasPerOnChainTransfer).totalOnChainFeeAmount := by
      rw [h.total_eq, sumFeeAmounts_eq]
      apply isAmount_sumAmounts
      intro x hx
      obtain ⟨transfer, hmem, rfl⟩ := List.mem_map.mp hx
      exact h.amounts transfer hmem
    obtain ⟨r, hr, _⟩ := hfinite
    obtain ⟨g, hg, _⟩ := hgas
    have hcredited := htotal.symm.trans hr
    have hdue : (dueShares (due (fees.integratorFee.map (·.toFeeBase)))
          (due (fees.zeroExFee.map (·.base))) (isIntegratorShare fees.zeroExFee)).plus
        (due (fees.gasFee.map (·.toFeeBase))) = fin r := by
      rw [← totalDue_eq]
      exact h.total_due.symm.trans hr
    rw [hg] at hcredited hdue
    obtain ⟨c, g₁, hc, hg₁, hsum₁⟩ := plus_eq_fin hcredited
    obtain ⟨d, g₂, hd, hg₂, hsum₂⟩ := plus_eq_fin hdue
    -- both totals have the gas fee in them, so what is left of them is equal
    have hcd : c = d := by
      have h₁ := fin.inj hg₁
      have h₂ := fin.inj hg₂
      linarith
    exact isAmount_of_creditedShares_eq hc (hcd ▸ hd)
  · rintro ⟨hintegrator, hzeroEx⟩
    have hle : ∀ transfer ∈
        (_calculateTotalOnChainFees fees gasPerOnChainTransfer).onChainTransfers,
        AmountLe transfer.feeAmount (configuredFor fees transfer.feeRecipient) := by
      intro transfer hmem
      rw [hamounts transfer hmem]
      unfold configuredFor
      rw [← charges_map_fst, List.map_map]
      refine amountLe_sumAmounts fun charge hcharge => amountLe_creditTo _ ?_ ?_
      · exact fun hrec => (charge_amountLe ⟨hintegrator, hzeroEx, hgas⟩ hshare hcharge hrec).2
      · exact fun hrec => (charge_amountLe ⟨hintegrator, hzeroEx, hgas⟩ hshare hcharge hrec).1
    refine ⟨hdistinct, fun transfer hmem => (hle transfer hmem).left, rfl, ?_,
      fun transfer hmem => AmountLe_lte (hle transfer hmem)⟩
    rw [htotal, creditedShares_eq_of_isAmount hintegrator hzeroEx, ← totalDue_eq]
    rfl

/-! ## The fees of an accepted configuration -/

theorem parseOptional_eq_some {α β : Type} {parse : α → Except ValidationErrorItem β}
    {x : Option α} {b : β} (h : parseOptional parse x = .ok (some b)) :
    ∃ a, x = some a ∧ parse a = .ok b := by
  cases x with
  | none => cases h
  | some a =>
    refine ⟨a, rfl, ?_⟩
    replace h : (parse a).map some = .ok (some b) := h
    cases hp : parse a with
    | error e =>
      rw [hp] at h
      cases h
    | ok b' =>
      rw [hp] at h
      cases h
      rfl

/-- A share that is accepted is one of an integrator fee, and less than the whole of it. -/
theorem parsed_share {body : Option FeeConfigsBody} {configs : FeeConfigs}
    (h : _parseFeeConfigs body = .ok (some configs)) {config : IntegratorShareFeeConfig}
    (hconfig : configs.zeroExFee = some (.integratorShare config)) :
    configs.integratorFee ≠ none ∧ config.integratorSharePercentage.gte 1 = false := by
  cases body with
  | none => cases h
  | some feeConfigs =>
    obtain ⟨integratorFee, _, h⟩ := Fallible.bind_eq_ok.mp h
    obtain ⟨zeroExFee, hzeroEx, h⟩ := Fallible.bind_eq_ok.mp h
    obtain ⟨gasFee, _, h⟩ := Fallible.bind_eq_ok.mp h
    cases h
    obtain rfl : zeroExFee = some (.integratorShare config) := hconfig
    obtain ⟨fee, _, hparse⟩ := parseOptional_eq_some hzeroEx
    unfold parseZeroExFee at hparse
    split at hparse
    · split at hparse <;> cases hparse
    · split at hparse
      · cases hparse
      rename_i hsome
      split at hparse
      · cases hparse
      rename_i hlt
      cases hparse
      refine ⟨?_, Bool.eq_false_iff.mpr hlt⟩
      intro hnone
      exact hsome (Option.isNone_iff_eq_none.mpr hnone)
    · cases hparse

/-- Less than one of an amount, rounded down, is at most the amount. -/
theorem amountLe_floor_times {x s : BigNumber} (hs : s.gte 1 = false) (hx : IsAmount x)
    (h : IsAmount ((x.times s).integerValue .floor)) :
    AmountLe ((x.times s).integerValue .floor) x := by
  obtain ⟨p, rfl, hp⟩ := hx
  rcases s with _ | b | q
  · obtain ⟨r, hr, _⟩ := h
    cases hr
  · -- zero of an infinite share is no number, and any more of it is infinite
    obtain ⟨r, hr, _⟩ := h
    simp only [times] at hr
    split at hr <;> cases hr
  · have hq : q < 1 := by
      have hle : ¬ (1 : ℚ) ≤ q := of_decide_eq_false hs
      exact not_le.mp hle
    rw [times_fin, integerValue_fin] at h ⊢
    refine ⟨_, p, rfl, rfl, isAmount_fin.mp h, ?_⟩
    calc ((⌊p * q⌋ : ℤ) : ℚ) ≤ p * q := Int.floor_le _
      _ ≤ p * 1 := mul_le_mul_of_nonneg_left hq.le hp
      _ = p := mul_one p

theorem isAmount_due_integratorFee (config : Option VolumeBasedFeeConfig) (sellToken : String)
    (sellTokenAmount : BigNumber) :
    IsAmount (due ((_calculateIntegratorFee config sellToken sellTokenAmount).map
        (·.toFeeBase))) ↔
      ∀ c, config = some c → onChainRecipient c.billingType c.feeRecipient ≠ none →
        IsAmount (sellTokenAmount.times c.volumePercentage) := by
  cases config with
  | none => exact iff_of_true isAmount_zero fun c hc => by cases hc
  | some config =>
    have hfee := isAmount_due_iff
      { feeToken := sellToken
        feeAmount := (sellTokenAmount.times config.volumePercentage).integerValue .floor
        feeRecipient := config.feeRecipient
        billingType := config.billingType }
    rw [isAmount_floor_iff] at hfee
    refine hfee.trans ⟨?_, fun h => h config rfl⟩
    intro h c hc
    cases hc
    exact h

/-- The 0x fee is calculated where there is a fee for it to be a share of. -/
theorem calculateZeroExFee_ok {configs : FeeConfigs} (sellToken : String)
    (sellTokenAmount : BigNumber)
    (hshare : ∀ config, configs.zeroExFee = some (.integratorShare config) →
      configs.integratorFee ≠ none ∧ config.integratorSharePercentage.gte 1 = false) :
    ∃ zeroExFee, _calculateZeroExFee configs.zeroExFee sellToken sellTokenAmount
        (_calculateIntegratorFee configs.integratorFee sellToken sellTokenAmount)
          = .ok zeroExFee ∧
      (IsAmount (due (zeroExFee.map (·.base))) ↔
        ∀ config, configs.zeroExFee = some config →
          onChainRecipient config.base.billingType config.base.feeRecipient ≠ none →
            IsAmount (unroundedZeroExFee configs sellTokenAmount config)) ∧
      ∀ gasFee, ShareBounded
        ⟨_calculateIntegratorFee configs.integratorFee sellToken sellTokenAmount, zeroExFee,
          gasFee⟩ := by
  obtain ⟨integratorConfig, zeroExConfig, gasConfig⟩ := configs
  -- without a fee, with a volume fee, and with a share of the integrator's
  rcases zeroExConfig with _ | config | config
  · refine ⟨none, rfl, iff_of_true isAmount_zero (fun c hc => by cases hc), ?_⟩
    intro gasFee fee share _ hnone
    cases hnone
  · refine ⟨_, rfl, ?_, ?_⟩
    · have hfee := isAmount_due_iff
        { feeToken := sellToken
          feeAmount := (sellTokenAmount.times config.volumePercentage).integerValue .floor
          feeRecipient := config.feeRecipient
          billingType := config.billingType }
      rw [isAmount_floor_iff] at hfee
      refine hfee.trans ⟨?_, fun h => h (.volume config) rfl⟩
      intro h c hc
      cases hc
      exact h
    · intro gasFee fee share _ hvolume
      cases hvolume
  · obtain ⟨hsome, hlt⟩ := hshare config rfl
    obtain ⟨integratorFee, rfl⟩ := Option.ne_none_iff_exists'.mp hsome
    refine ⟨_, rfl, ?_, ?_⟩
    · have hfee := isAmount_due_iff
        { feeToken := sellToken
          feeAmount := (((sellTokenAmount.times integratorFee.volumePercentage).integerValue
            .floor).times config.integratorSharePercentage).integerValue .floor
          feeRecipient := config.feeRecipient
          billingType := config.billingType }
      rw [isAmount_floor_iff] at hfee
      refine hfee.trans ⟨?_, fun h => h (.integratorShare config) rfl⟩
      intro h c hc
      cases hc
      exact h
    · intro gasFee fee share hfee hzeroEx hamount hshareAmount
      cases hfee
      cases hzeroEx
      exact amountLe_floor_times hlt hamount hshareAmount

/-- The gas fee is calculated where the rate is known, and is an amount. -/
theorem calculateGasFee_ok {opts : CalculateFeesOpts} (hopts : opts.Valid) {configs : FeeConfigs}
    (hconfigs : opts.feeConfigs = some configs) (integratorFee : Option VolumeBasedFee)
    (zeroExFee : Option ZeroExFee) :
    ∃ gasFee, _calculateGasFee configs.gasFee opts.sellToken opts.sellTokenAmountPerWei
        opts.gasPrice opts.quoteGasEstimate opts.gasPerOnChainTransfer integratorFee zeroExFee
          = .ok gasFee ∧
      IsAmount (due (gasFee.map (·.toFeeBase))) := by
  unfold _calculateGasFee
  cases hgas : configs.gasFee with
  | none => exact ⟨none, rfl, isAmount_zero⟩
  | some config =>
    obtain ⟨rate, hrate⟩ := Option.ne_none_iff_exists'.mp
      (hopts.rate_known configs hconfigs (by rw [hgas]; exact Option.some_ne_none _))
    rw [hrate]
    refine ⟨_, rfl, (isAmount_due_iff _).mpr fun _ => isAmount_floor_iff.mpr ?_⟩
    have hcount : ∀ n : ℕ, IsAmount (fin n) := fun n => isAmount_fin.mpr (Nat.cast_nonneg n)
    exact ((hopts.rate rate hrate).times hopts.gasPrice).times
      (hopts.quoteGasEstimate.plus (hopts.gasPerOnChainTransfer.times (hcount _)))

/-! ## When the books balance -/

theorem totalDue_none : totalDue ⟨none, none, none⟩ = ZERO_AMOUNT := by
  simp [totalDue, due, isIntegratorShare, ZERO_AMOUNT]

/-- For every configuration the parser accepts, the fees can be calculated and their books balance
exactly when no fee that is due on chain is negative or not a number. -/
theorem conserves_iff {body : Option FeeConfigsBody} {opts : CalculateFeesOpts}
    (hbody : _parseFeeConfigs body = .ok opts.feeConfigs) (hopts : opts.Valid) :
    (∃ out, calculateFees opts = .ok out ∧ Conserves out) ↔
      ∀ configs, opts.feeConfigs = some configs → Chargeable configs opts.sellTokenAmount := by
  cases hconfigs : opts.feeConfigs with
  | none =>
    refine iff_of_true ?_ fun configs hnone => by cases hnone
    refine ⟨⟨none, ZERO_AMOUNT, [], ZERO_AMOUNT⟩, ?_, ?_⟩
    · unfold calculateFees
      rw [hconfigs]
    · exact ⟨List.nodup_nil, fun t ht => absurd ht List.not_mem_nil, rfl, totalDue_none.symm,
        fun t ht => absurd ht List.not_mem_nil⟩
  | some configs =>
    rw [hconfigs] at hbody
    obtain ⟨zeroExFee, hzeroEx, hzeroExAmount, hshare⟩ := calculateZeroExFee_ok opts.sellToken
      opts.sellTokenAmount fun _ hconfig => parsed_share hbody hconfig
    obtain ⟨gasFee, hgas, hgasAmount⟩ := calculateGasFee_ok hopts hconfigs
      (_calculateIntegratorFee configs.integratorFee opts.sellToken opts.sellTokenAmount) zeroExFee
    have hok : calculateFees opts = .ok (_calculateTotalOnChainFees
        ⟨_calculateIntegratorFee configs.integratorFee opts.sellToken opts.sellTokenAmount,
          zeroExFee, gasFee⟩ opts.gasPerOnChainTransfer) := by
      unfold calculateFees
      rw [hconfigs]
      exact Fallible.bind_eq_ok.mpr ⟨_, hzeroEx, Fallible.bind_eq_ok.mpr ⟨_, hgas, rfl⟩⟩
    have hiff := conserves_fees_iff opts.gasPerOnChainTransfer hgasAmount (hshare gasFee)
    rw [isAmount_due_integratorFee, hzeroExAmount] at hiff
    constructor
    · rintro ⟨out, hout, hconserves⟩ configs' hconfigs'
      cases hconfigs'
      rw [hok] at hout
      cases hout
      obtain ⟨hintegrator, hzero⟩ := hiff.mp hconserves
      exact ⟨hintegrator, hzero⟩
    · intro h
      obtain ⟨hintegrator, hzero⟩ := h configs rfl
      exact ⟨_, hok, hiff.mpr ⟨hintegrator, hzero⟩⟩

/-- A request for an integrator fee of one in a hundred, with a share of it for 0x. -/
def shareBody (integratorSharePercentage : ℚ) : Option FeeConfigsBody :=
  some
    { integratorFee := some
        { type := .volume
          feeRecipient := some "0xa"
          billingType := .onChain
          volumePercentage := .fin (1 / 100) }
      zeroExFee := some
        { type := .integratorShare
          feeRecipient := some "0xb"
          billingType := .onChain
          integratorSharePercentage := .fin integratorSharePercentage } }

/-- The options for a sell of a thousand under the configuration parsed from that request. -/
def shareOpts (integratorSharePercentage : ℚ) : CalculateFeesOpts where
  feeConfigs := some
    { integratorFee := some ⟨⟨some "0xa", .onChain⟩, .fin (1 / 100)⟩
      zeroExFee := some
        (.integratorShare ⟨⟨some "0xb", .onChain⟩, .fin integratorSharePercentage⟩)
      gasFee := none }
  sellToken := "0xc"
  sellTokenAmount := .fin 1000
  sellTokenAmountPerWei := some (.fin 2)
  gasPrice := .fin 3
  quoteGasEstimate := .fin 100
  gasPerOnChainTransfer := .fin 10

theorem shareOpts_valid (integratorSharePercentage : ℚ) :
    (shareOpts integratorSharePercentage).Valid where
  sellTokenAmount := ⟨1000, rfl, by norm_num⟩
  rate := by
    intro rate hrate
    cases hrate
    exact ⟨2, rfl, by norm_num⟩
  rate_known := fun _ _ _ => Option.some_ne_none _
  gasPrice := ⟨3, rfl, by norm_num⟩
  quoteGasEstimate := ⟨100, rfl, by norm_num⟩
  gasPerOnChainTransfer := ⟨10, rfl, by norm_num⟩

theorem half_share_conserves :
    ∃ out, calculateFees (shareOpts (1 / 2)) = .ok out ∧ Conserves out := by
  have hbody : _parseFeeConfigs (shareBody (1 / 2)) = .ok (shareOpts (1 / 2)).feeConfigs := by
    decide +kernel
  refine (conserves_iff hbody (shareOpts_valid (1 / 2))).mpr ?_
  intro configs hconfigs
  cases hconfigs
  constructor
  · intro config hconfig _
    cases hconfig
    exact ⟨1000 * (1 / 100), rfl, by norm_num⟩
  · intro config hconfig _
    cases hconfig
    exact ⟨(⌊(1000 * (1 / 100) : ℚ)⌋ : ℤ) * (1 / 2), rfl, by norm_num⟩

/-- A share of minus a half is accepted.  The integrator, whose fee is ten, is transferred fifteen,
and the total is fifteen as well. -/
theorem negative_share_not_conserved :
    _parseFeeConfigs (shareBody (-1 / 2)) = .ok (shareOpts (-1 / 2)).feeConfigs ∧
      (shareOpts (-1 / 2)).Valid ∧
      ¬ ∃ out, calculateFees (shareOpts (-1 / 2)) = .ok out ∧ Conserves out := by
  refine ⟨by decide +kernel, shareOpts_valid _, ?_⟩
  rintro ⟨out, hout, hconserves⟩
  have hrun : Fallible.okAnd (calculateFees (shareOpts (-1 / 2))) (fun out =>
      decide (out.totalOnChainFeeAmount
        ≠ totalDue (out.fees.getD ⟨none, none, none⟩))) = true := by
    decide +kernel
  obtain ⟨out', hout', hne⟩ := Fallible.exists_of_okAnd hrun
  rw [hout] at hout'
  cases hout'
  exact of_decide_eq_true hne hconserves.total_due

end ZeroExApi.FeeCalculator
