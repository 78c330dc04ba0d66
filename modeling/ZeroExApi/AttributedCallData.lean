/-
# ZeroExApi.AttributedCallData — the affiliate data appended to calldata, and the quote id read back

`attributeCallData` of `utils/service_utils.ts` and `getQuoteIdFromSwapQuote`, which
`services/meta_transaction_service.ts` and `handlers/swap_handlers.ts` share word for word.  The
encoder is a third party's; what is relied on is that it pads both arguments to 32 bytes.

The reader looks for the marker from the front, and the calldata in front is whatever a route and
its makers made it.  So the id comes back when the marker is not in it; if it is, only where what
stands at the fixed offset behind it happens to be the id (`quoteId_survives_iff`).
-/

import ZeroExApi.Lib.JsArray
import ZeroExApi.Lib.JsString
import Mathlib.Tactic.NormNum

namespace ZeroExApi.AttributedCallData

open ZeroExApi.Lib ZeroExApi.Lib.JsArray ZeroExApi.Lib.JsString

/-! ## Writing -/

/-- `AFFILIATE_DATA_SELECTOR`. -/
def AFFILIATE_DATA_SELECTOR : List Char := "869584cd".toList

/-- `randomHexNumberOfLength`, the random integers from 1 to 15 being drawn one by one. -/
def randomHexNumberOfLength (draw : ℕ → ℕ) (numberLength : ℕ) : List Char :=
  (List.range numberLength).flatMap fun i => toHex (draw i)

/-- What `attributeCallData` returns. -/
structure AttributedData where
  affiliatedData : List Char
  decodedUniqueId : List Char
  deriving DecidableEq

/-- The affiliate address, or where it is missing or empty the default. -/
def affiliateAddressOrDefault (FEE_RECIPIENT_ADDRESS : List Char)
    (affiliateAddress : Option (List Char)) : List Char :=
  match affiliateAddress with
  | some address => if address = [] then FEE_RECIPIENT_ADDRESS else address
  | none => FEE_RECIPIENT_ADDRESS

/-- `attributeCallData`, at a time in milliseconds. -/
def attributeCallData (encode : List Char → ℕ → List Char) (FEE_RECIPIENT_ADDRESS : List Char)
    (draw : ℕ → ℕ) (now : ℕ) (data : List Char) (affiliateAddress : Option (List Char)) :
    AttributedData :=
  -- `integerValue` rounds to the nearest second, a half up
  let timestampInSeconds := (now + 500) / 1000
  let hexTimestamp := toHex timestampInSeconds
  let randomNumber := randomHexNumberOfLength draw 10
  let uniqueIdentifier := parseHex (randomNumber ++ hexTimestamp)
  let encodedAffiliateData := encode
    (affiliateAddressOrDefault FEE_RECIPIENT_ADDRESS affiliateAddress) uniqueIdentifier
  { affiliatedData := data ++ encodedAffiliateData.drop 2
    decodedUniqueId := randomNumber ++ '-' :: (toString timestampInSeconds).toList }

/-! ## Reading -/

/-- `getQuoteIdFromSwapQuote`. -/
def getQuoteIdFromSwapQuote (data : List Char) : List Char :=
  let bytesPos : ℤ :=
    match indexOf AFFILIATE_DATA_SELECTOR data with
    | some position => position
    | none => -1
  let quoteIdOffset := 118
  let startingIndex := bytesPos + quoteIdOffset
  slice data startingIndex (startingIndex + 10)

/-- The id in a decoded unique id, which a dash ends. -/
def quoteIdOf (decodedUniqueId : List Char) : List Char :=
  decodedUniqueId.takeWhile fun c => decide (c ≠ '-')

/-! ## The encoder and its arguments -/

/-- An address: forty hexadecimal digits of either case behind `0x`. -/
structure IsAddress (address : List Char) : Prop where
  marker : address.take 2 = "0x".toList
  length_eq : address.length = 42
  digits : ∀ c ∈ address.drop 2, c.toLower ∈ hexAlphabet

/-- A numeral padded to 32 bytes. -/
def padHex (s : List Char) : List Char := List.replicate (64 - s.length) '0' ++ s

/-- The first argument as it is encoded. -/
def encodedAddress (address : List Char) : List Char := padHex ((address.drop 2).map Char.toLower)

/-- What is known of the encoder of `ZeroExAPIAffiliate(address,uint256)`: the selector, then both
arguments padded to 32 bytes. -/
def PadsArguments (encode : List Char → ℕ → List Char) : Prop :=
  ∀ address id, IsAddress address → id < 2 ^ 256 →
    encode address id
      = "0x".toList ++ (AFFILIATE_DATA_SELECTOR ++ (encodedAddress address ++ padHex (toHex id)))

theorem length_encodedAddress {address : List Char} (h : IsAddress address) :
    (encodedAddress address).length = 64 := by
  have hlen : ((address.drop 2).map Char.toLower).length = 40 := by
    rw [List.length_map, List.length_drop, h.length_eq]
  unfold encodedAddress padHex
  rw [List.length_append, List.length_replicate, hlen]

theorem unbordered_selector : Unbordered AFFILIATE_DATA_SELECTOR := by decide

/-! ## The layout of what is appended -/

/-- The id of ten digits. -/
theorem randomHexNumberOfLength_eq {draw : ℕ → ℕ} (hdraw : ∀ i, 1 ≤ draw i ∧ draw i ≤ 15)
    (numberLength : ℕ) :
    randomHexNumberOfLength draw numberLength
      = ((List.range numberLength).map draw).map hexChar := by
  unfold randomHexNumberOfLength
  rw [List.map_map, List.map_eq_flatMap]
  apply List.flatMap_congr
  intro i _
  exact toHex_digit (hdraw i).1 (Nat.lt_succ_of_le (hdraw i).2)

/-- The id begins with a digit other than zero, so the encoder prints it back after zeros. -/
theorem padHex_uniqueIdentifier {draw : ℕ → ℕ} (hdraw : ∀ i, 1 ≤ draw i ∧ draw i ≤ 15) {t : ℕ}
    (hlow : 2 ^ 28 ≤ t) (hhigh : t < 2 ^ 32) :
    parseHex (randomHexNumberOfLength draw 10 ++ toHex t) < 2 ^ 256 ∧
      padHex (toHex (parseHex (randomHexNumberOfLength draw 10 ++ toHex t)))
        = List.replicate 46 '0' ++ (randomHexNumberOfLength draw 10 ++ toHex t) := by
  obtain ⟨ts, hts, htslt⟩ := exists_digits_of_toHex t
  have hlen : ts.length = 8 := by
    have h := length_toHex (n := t) (k := 7) (by omega) (by omega)
    rw [hts, List.length_map] at h
    exact h
  have hdigits : randomHexNumberOfLength draw 10 ++ toHex t
      = ((List.range 10).map draw ++ ts).map hexChar := by
    rw [randomHexNumberOfLength_eq hdraw, hts, List.map_append]
  have hlt : ∀ e ∈ (List.range 10).map draw ++ ts, e < 16 := by
    intro e he
    rcases List.mem_append.mp he with hdrawn | htime
    · obtain ⟨i, _, rfl⟩ := List.mem_map.mp hdrawn
      exact Nat.lt_succ_of_le (hdraw i).2
    · exact htslt e htime
  have hcount : ((List.range 10).map draw ++ ts).length = 18 := by
    rw [List.length_append, List.length_map, List.length_range, hlen]
  have hcons : (List.range 10).map draw ++ ts
      = draw 0 :: ((List.range 9).map (fun i => draw (i + 1)) ++ ts) := rfl
  have hprint : toHex (parseHex (((List.range 10).map draw ++ ts).map hexChar))
      = ((List.range 10).map draw ++ ts).map hexChar := by
    rw [hcons] at hlt ⊢
    exact toHex_parseHex (hdraw 0).1 hlt
  rw [hdigits]
  constructor
  · calc parseHex (((List.range 10).map draw ++ ts).map hexChar)
        < 16 ^ ((List.range 10).map draw ++ ts).length := parseHex_lt hlt
      _ = 16 ^ 18 := by rw [hcount]
      _ ≤ 2 ^ 256 := by norm_num
  · rw [hprint]
    unfold padHex
    rw [List.length_map, hcount]

/-! ## A window over a string that goes on with zeros -/

/-- Ten characters none of which is a zero are found at a place before the end of the zeros only
where they end before the zeros begin. -/
theorem take_drop_append_zeros {head id rest : List Char} {k : ℕ} (hid : ∀ c ∈ id, c ≠ '0')
    (hlen : id.length = 10) (hk : k < head.length + 46) :
    ((head ++ (List.replicate 46 '0' ++ rest)).drop k).take 10 = id ↔
      (head.drop k).take 10 = id := by
  by_cases hshort : k + 10 ≤ head.length
  · have hsame : ((head ++ (List.replicate 46 '0' ++ rest)).drop k).take 10
        = (head.drop k).take 10 := by
      rw [List.drop_append_of_le_length (by omega), List.take_append_of_le_length]
      rw [List.length_drop]
      omega
    rw [hsame]
  · -- the window reaches a zero, and the head alone is too short
    refine iff_of_false ?_ ?_
    · intro heq
      have hzero : id[Max.max k head.length - k]? = some '0' := by
        rw [← heq, List.getElem?_take_of_lt (by omega), List.getElem?_drop,
          List.getElem?_append_right (by omega), List.getElem?_append_left]
        · rw [List.getElem?_replicate_of_lt (by omega)]
        · rw [List.length_replicate]
          omega
      exact hid '0' (List.mem_of_getElem? hzero) rfl
    · intro heq
      have hlenShort := congrArg List.length heq
      rw [List.length_take, List.length_drop, hlen] at hlenShort
      omega

/-! ## When the id comes back -/

/-- The quote id read back from the calldata is the one in the decoded id, and the calldata that was
attributed is a prefix of the result. -/
def QuoteIdSurvives (data : List Char) (attributed : AttributedData) : Prop :=
  getQuoteIdFromSwapQuote attributed.affiliatedData = quoteIdOf attributed.decodedUniqueId ∧
    data <+: attributed.affiliatedData

/-- The ten characters at the fixed offset behind the first marker of the calldata, continued by
another marker and the address. -/
def charactersBehindMarker (data address : List Char) : Option (List Char) :=
  (indexOf AFFILIATE_DATA_SELECTOR data).map fun position =>
    ((data ++ (AFFILIATE_DATA_SELECTOR ++ encodedAddress address)).drop (position + 118)).take 10

theorem selector_ne_nil : AFFILIATE_DATA_SELECTOR ≠ [] := by decide

theorem length_selector : AFFILIATE_DATA_SELECTOR.length = 8 := rfl

/-- What the reader finds in calldata the marker has been appended to. -/
theorem getQuoteId_append (data rest : List Char) :
    getQuoteIdFromSwapQuote (data ++ (AFFILIATE_DATA_SELECTOR ++ rest))
      = ((data ++ (AFFILIATE_DATA_SELECTOR ++ rest)).drop
          ((indexOf AFFILIATE_DATA_SELECTOR data).getD data.length + 118)).take 10 := by
  unfold getQuoteIdFromSwapQuote
  rw [indexOf_append unbordered_selector]
  generalize (indexOf AFFILIATE_DATA_SELECTOR data).getD data.length = position
  have hslice := slice_natCast (data ++ (AFFILIATE_DATA_SELECTOR ++ rest)) (position + 118)
    (position + 118 + 10)
  push_cast at hslice
  rw [List.drop_take, Nat.add_sub_cancel_left] at hslice
  exact hslice

theorem quoteIdOf_decodedUniqueId {id : List Char} (hid : ∀ c ∈ id, c ≠ '-')
    (timestamp : List Char) : quoteIdOf (id ++ '-' :: timestamp) = id := by
  unfold quoteIdOf
  rw [List.takeWhile_append_of_pos fun c hc => decide_eq_true (hid c hc)]
  simp

/-- The digits of an id. -/
theorem randomHexNumber_digits {draw : ℕ → ℕ} (hdraw : ∀ i, 1 ≤ draw i ∧ draw i ≤ 15) :
    (randomHexNumberOfLength draw 10).length = 10 ∧
      ∀ c ∈ randomHexNumberOfLength draw 10, c ≠ '0' ∧ c ≠ '-' := by
  rw [randomHexNumberOfLength_eq hdraw]
  constructor
  · rw [List.length_map, List.length_map, List.length_range]
  · intro c hc
    obtain ⟨d, hd, rfl⟩ := List.mem_map.mp hc
    obtain ⟨i, _, rfl⟩ := List.mem_map.mp hd
    have hlt : draw i < 16 := Nat.lt_succ_of_le (hdraw i).2
    exact ⟨hexChar_ne_zero (hdraw i).1 hlt, hexChar_ne_dash hlt⟩

/-- For every calldata, address, id and timestamp, the id survives exactly when the marker is not in
the calldata, or the characters at the fixed offset behind its first occurrence are the id. -/
theorem quoteId_survives_iff {encode : List Char → ℕ → List Char} (hencode : PadsArguments encode)
    {FEE_RECIPIENT_ADDRESS : List Char} {affiliateAddress : Option (List Char)}
    (haddress : IsAddress (affiliateAddressOrDefault FEE_RECIPIENT_ADDRESS affiliateAddress))
    {draw : ℕ → ℕ} (hdraw : ∀ i, 1 ≤ draw i ∧ draw i ≤ 15) {now : ℕ}
    (hlow : 2 ^ 28 ≤ (now + 500) / 1000) (hhigh : (now + 500) / 1000 < 2 ^ 32)
    (data : List Char) :
    QuoteIdSurvives data
        (attributeCallData encode FEE_RECIPIENT_ADDRESS draw now data affiliateAddress) ↔
      ¬ AFFILIATE_DATA_SELECTOR <:+: data ∨
        charactersBehindMarker data
            (affiliateAddressOrDefault FEE_RECIPIENT_ADDRESS affiliateAddress)
          = some (randomHexNumberOfLength draw 10) := by
  obtain ⟨hlt, hpad⟩ := padHex_uniqueIdentifier hdraw hlow hhigh
  obtain ⟨hidLength, hidDigits⟩ := randomHexNumber_digits hdraw
  have hencoded := hencode _ _ haddress hlt
  rw [hpad] at hencoded
  have haddressLength := length_encodedAddress haddress
  -- the head ends where the zeros of the second argument begin
  have hdata : (attributeCallData encode FEE_RECIPIENT_ADDRESS draw now data
        affiliateAddress).affiliatedData
      = data ++ (AFFILIATE_DATA_SELECTOR ++
          (encodedAddress (affiliateAddressOrDefault FEE_RECIPIENT_ADDRESS affiliateAddress) ++
            (List.replicate 46 '0' ++
              (randomHexNumberOfLength draw 10 ++ toHex ((now + 500) / 1000))))) := by
    show data ++ (encode (affiliateAddressOrDefault FEE_RECIPIENT_ADDRESS affiliateAddress)
      (parseHex (randomHexNumberOfLength draw 10 ++ toHex ((now + 500) / 1000)))).drop 2 = _
    rw [hencoded]
    rfl
  have hid : quoteIdOf (attributeCallData encode FEE_RECIPIENT_ADDRESS draw now data
      affiliateAddress).decodedUniqueId = randomHexNumberOfLength draw 10 :=
    quoteIdOf_decodedUniqueId (fun c hc => (hidDigits c hc).2) _
  generalize affiliateAddressOrDefault FEE_RECIPIENT_ADDRESS affiliateAddress = address at *
  unfold QuoteIdSurvives
  rw [hdata, hid, getQuoteId_append]
  have hprefix : data <+: data ++ (AFFILIATE_DATA_SELECTOR ++ (encodedAddress address ++
      (List.replicate 46 '0' ++
        (randomHexNumberOfLength draw 10 ++ toHex ((now + 500) / 1000))))) :=
    List.prefix_append _ _
  rw [and_iff_left hprefix]
  have hhead : data ++ (AFFILIATE_DATA_SELECTOR ++ (encodedAddress address ++
      (List.replicate 46 '0' ++
        (randomHexNumberOfLength draw 10 ++ toHex ((now + 500) / 1000)))))
      = (data ++ (AFFILIATE_DATA_SELECTOR ++ encodedAddress address)) ++
        (List.replicate 46 '0' ++
          (randomHexNumberOfLength draw 10 ++ toHex ((now + 500) / 1000))) := by
    simp only [List.append_assoc]
  have hheadLength : (data ++ (AFFILIATE_DATA_SELECTOR ++ encodedAddress address)).length
      = data.length + 72 := by
    rw [List.length_append, List.length_append, haddressLength, length_selector]
  rw [hhead]
  cases hfound : indexOf AFFILIATE_DATA_SELECTOR data with
  | none =>
    refine iff_of_true ?_ (.inl (indexOf_eq_none_iff.mp hfound))
    have hskip : data.length + 118
        = (data ++ (AFFILIATE_DATA_SELECTOR ++ encodedAddress address)).length + 46 := by
      rw [hheadLength]
    show List.take 10 (List.drop (data.length + 118) _) = _
    rw [hskip, ← List.drop_drop, List.drop_left, List.drop_left' List.length_replicate,
      List.take_left' hidLength]
  | some position =>
    have hle := add_length_le_of_indexOf selector_ne_nil hfound
    rw [length_selector] at hle
    have hpresent : AFFILIATE_DATA_SELECTOR <:+: data := by
      by_contra habsent
      rw [indexOf_eq_none_iff.mpr habsent] at hfound
      cases hfound
    rw [or_iff_right (not_not_intro hpresent)]
    unfold charactersBehindMarker
    rw [hfound, Option.map_some, Option.some.injEq]
    have hwindow : position + 118
        < (data ++ (AFFILIATE_DATA_SELECTOR ++ encodedAddress address)).length + 46 := by
      rw [hheadLength]
      omega
    exact take_drop_append_zeros (fun c hc => (hidDigits c hc).1) hidLength hwindow

/-- An encoder that pads its arguments. -/
def paddingEncoder (address : List Char) (id : ℕ) : List Char :=
  "0x".toList ++ (AFFILIATE_DATA_SELECTOR ++ (encodedAddress address ++ padHex (toHex id)))

theorem paddingEncoder_pads : PadsArguments paddingEncoder := fun _ _ _ _ => rfl

/-- An address of forty ones. -/
def onesAddress : List Char := "0x1111111111111111111111111111111111111111".toList

theorem onesAddress_isAddress : IsAddress onesAddress where
  marker := by decide
  length_eq := by decide
  digits c hc := by
    have hones : onesAddress.drop 2 = List.replicate 40 '1' := by decide
    rw [hones] at hc
    rw [List.eq_of_mem_replicate hc]
    decide

/-- The call of `transformERC20` with one argument. -/
def transformCalldata : List Char := "0x415565b0".toList ++ padHex "c02aaa39".toList

/-- Calldata without the marker keeps the id. -/
theorem transform_calldata_survives :
    QuoteIdSurvives transformCalldata
      (attributeCallData paddingEncoder onesAddress (fun i => i % 15 + 1) 1680000000000
        transformCalldata none) := by
  have haddress : IsAddress (affiliateAddressOrDefault onesAddress none) := onesAddress_isAddress
  have hdraw : ∀ i : ℕ, 1 ≤ i % 15 + 1 ∧ i % 15 + 1 ≤ 15 := fun i => by omega
  exact (quoteId_survives_iff paddingEncoder_pads haddress hdraw (by norm_num) (by norm_num)
    transformCalldata).mpr (.inl (by decide +kernel))

/-- Calldata of four bytes that are the marker: the reader takes the offset from them. -/
theorem marker_in_calldata_hides_id :
    ¬ QuoteIdSurvives "0x869584cd".toList
      (attributeCallData paddingEncoder onesAddress (fun i => i % 15 + 1) 1680000000000
        "0x869584cd".toList none) := by
  intro h
  have hne : getQuoteIdFromSwapQuote (attributeCallData paddingEncoder onesAddress
        (fun i => i % 15 + 1) 1680000000000 "0x869584cd".toList none).affiliatedData
      ≠ quoteIdOf (attributeCallData paddingEncoder onesAddress (fun i => i % 15 + 1)
        1680000000000 "0x869584cd".toList none).decodedUniqueId := by
    decide +kernel
  exact hne h.1

end ZeroExApi.AttributedCallData
