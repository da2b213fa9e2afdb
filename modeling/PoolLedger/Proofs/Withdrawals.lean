import PoolLedger.Proofs.CoinLists
import PoolLedger.Proofs.Swaps

/-!
# What is paid out of a withdrawal on columbus-4

The event of a withdrawal tells what the pair hands back, and on columbus-4 a fee is taken off that
the event does not tell. What is booked of either asset is the part that is paid out: the exact
product of the refund and a factor below one, rounded down (`Withdrawal.paid`). So no leg is greater
than its refund, and a greater refund does not pay out less, however large the amounts are.

The refunds stand in the event in either order, and in the record in the order of the
pair (`Strategy.withdraw_eq_ok_iff`). `scaled_exactly` puts this together with what
holds of any decimal factor.
-/

namespace PoolLedger

open ReadError (IsOfLength)

/-! ## Refunds -/

theorem Quantity.nonneg_of_digits {q : Quantity}
    (h : ∀ c ∈ q.text.toList, Text.isDigit c) : 0 ≤ q.amount := by
  have hdenoted := q.denoted
  have hsign : Numeral.splitSign q.text.toList = (false, q.text.toList) := by
    unfold Numeral.splitSign
    split
    · rename_i rest htext
      exact absurd (h '-' (htext ▸ List.mem_cons_self)) (by decide)
    · rfl
  unfold Amount.integer? at hdenoted
  rw [hsign] at hdenoted
  split at hdenoted
  · exact (Option.some.inj hdenoted).le
  · dsimp only at hdenoted
    split at hdenoted
    · cases hdenoted
    · cases hdenoted
    · exact Option.some.inj hdenoted ▸ Int.natCast_nonneg _

/-- What the event of a withdrawal tells. -/
structure Withdrawal where
  /-- How much of the asset on each side is handed back. -/
  refund : Side → Quantity
  share : String
  sender : String := ""

namespace Withdrawal

/-- The refund on a side, as a coin. -/
def coin (w : Withdrawal) (pair : Pair) (side : Side) : Asset where
  addr := pair.asset side
  amount := (w.refund side).text

/-- The refunds, with the one on the given side in front. -/
def listed (w : Withdrawal) (pair : Pair) (front : Side) : Legs where
  first := w.coin pair front
  second := w.coin pair front.other

/-- The fields of an event that tells a withdrawal from a pair. The refunds stand in the order of
the pair, or in the other one if the two assets can be told apart. -/
structure IsToldBy (w : Withdrawal) (fields : Fields) (pair : Pair) : Prop where
  refunds : ∃ text front, fields.get? "refund_assets" = some text ∧
    Asset.ofCoinPair text = .ok (w.listed pair front) ∧ (front = .second → pair.first ≠ pair.second)
  share : fields.get? "withdrawn_share" = some w.share
  sender : (fields.get? "sender").getD "" = w.sender

/-- What is paid out of a refund. -/
def paid (w : Withdrawal) (side : Side) : ℤ :=
  ⌊((w.refund side).amount * 9939285487078243 / 10 ^ 16 : ℚ)⌋

/-- The leg on a side: what is paid out leaves the pool. -/
def leg (w : Withdrawal) (pair : Pair) (side : Side) : Asset where
  addr := pair.asset side
  amount := toString (-w.paid side)

/-- What is booked of a withdrawal. -/
def record (w : Withdrawal) (pair : Pair) : Record where
  kind := .withdraw
  sender := w.sender
  contract := pair.contract
  legs := { first := w.leg pair .first, second := w.leg pair .second }
  share := pair.share
  shareAmount := w.share

end Withdrawal

/-- The record of a withdrawal. -/
structure Record.IsOfWithdrawal (r : Record) (pair : Pair) (w : Withdrawal) : Prop where
  kind : r.kind = .withdraw
  contract : r.contract = pair.contract
  sender : r.sender = w.sender
  legs : ∀ side, r.legs.on side = { addr := pair.asset side, amount := toString (-w.paid side) }
  share : r.share = pair.share ∧ r.shareAmount = w.share
  commission : r.commission = ""
  tax : r.tax = none
  refund : r.refund = none
  notes : r.notes = []

theorem Withdrawal.isOfWithdrawal_record (w : Withdrawal) (pair : Pair) :
    (w.record pair).IsOfWithdrawal pair w := by
  refine ⟨rfl, rfl, rfl, fun side => ?_, ⟨rfl, rfl⟩, rfl, rfl, rfl, rfl⟩
  cases side <;> rfl

variable {w w' : Withdrawal} {fields : Fields} {pair : Pair} {side : Side}

theorem Withdrawal.IsToldBy.nonneg (hw : w.IsToldBy fields pair) (side : Side) :
    0 ≤ (w.refund side).amount := by
  obtain ⟨text, front, -, hlisted, -⟩ := hw.refunds
  obtain ⟨parts, hparts⟩ : ∃ parts,
    List.Forall₂ Asset.IsReadFrom (w.listed pair front).toList parts :=
    ⟨_, Asset.ofCoinPair_eq_ok.1 hlisted⟩
  simp only [Legs.toList, List.forall₂_cons_left_iff] at hparts
  obtain ⟨part, _, hfirst, ⟨part', _, hsecond, -, -⟩, -⟩ := hparts
  have hfront : 0 ≤ (w.refund front).amount := Quantity.nonneg_of_digits hfirst.digits
  have hother : 0 ≤ (w.refund front.other).amount := Quantity.nonneg_of_digits hsecond.digits
  cases front <;> cases side <;> assumption

/-! ## What is paid out -/

namespace Strategy

theorem value_paidOutPart : paidOutPart.value = 9939285487078243 / 10 ^ 16 := by
  norm_num [Decimal.value, paidOutPart]

/-- What is paid out is the refund less the fee, rounded down. -/
theorem paidOutPart_scale {n : Int} (hn : 0 ≤ n) :
    paidOutPart.scale n = ⌊(n * 9939285487078243 / 10 ^ 16 : ℚ)⌋ := by
  have hn' : (0 : ℚ) ≤ n := Int.cast_nonneg hn
  have hproduct : paidOutPart.value * n = (n * 9939285487078243 / 10 ^ 16 : ℚ) := by
    rw [value_paidOutPart]
    ring
  rw [Decimal.scale_eq, hproduct, towardZero, if_pos (by positivity)]

/-- No more is paid out than is handed back. -/
theorem natAbs_paidOutPart_scale_le (n : Int) : (paidOutPart.scale n).natAbs ≤ n.natAbs := by
  rw [Decimal.scale_eq, natAbs_towardZero, abs_mul, ← Int.cast_abs, ← Nat.cast_natAbs]
  refine Nat.floor_le_of_le (mul_le_of_le_one_left (Nat.cast_nonneg _) ?_)
  rw [value_paidOutPart]
  norm_num [abs_of_pos]

theorem withdrawnAmount_eq_ok_iff (q : Quantity) {text : String} :
    feeDeducting.withdrawnAmount q.text = .ok text ↔
      q.IsShort ∧ toString (-paidOutPart.scale q.amount) = text := by
  simp only [withdrawnAmount, bind_eq_ok, Quantity.read_eq_ok_iff]
  constructor
  · rintro ⟨_, ⟨hshort, rfl⟩, paid, hpaid, hnegate⟩
    rw [Amount.negate_of_read (Amount.read_of_write hpaid)] at hnegate
    exact ⟨hshort, Except.ok.inj hnegate⟩
  · rintro ⟨hshort, rfl⟩
    have hsize := Numeral.size_le_of_le (natAbs_paidOutPart_scale_le q.amount)
      (Amount.size_of_read (q.read_eq_ok_iff.2 ⟨hshort, rfl⟩))
    have hpaid := Amount.write_eq_ok.2 ⟨hsize, rfl⟩
    exact ⟨_, ⟨hshort, rfl⟩, _, hpaid, Amount.negate_of_read (Amount.read_of_write hpaid)⟩

/-- The legs of a withdrawal are put into the order of the pair. -/
theorem withdrawnLegs_eq_ok_iff (hw : w.IsToldBy fields pair) {text : String}
    (htext : fields.get? "refund_assets" = some text) {legs : Legs} :
    feeDeducting.withdrawnLegs text pair = .ok legs ↔
      (∀ side, (w.refund side).IsShort) ∧ legs = (w.record pair).legs := by
  obtain ⟨text', front, htext', hlisted, hfront⟩ := hw.refunds
  obtain rfl := Option.some.inj (htext.symm.trans htext')
  have hleg (side : Side) {amount : String} :
      feeDeducting.withdrawnAmount (w.refund side).text = .ok amount ↔
        (w.refund side).IsShort ∧ toString (-w.paid side) = amount := by
    rw [withdrawnAmount_eq_ok_iff, paidOutPart_scale (hw.nonneg side), Withdrawal.paid]
  simp only [withdrawnLegs, bind_eq_ok, pure_eq_ok, hlisted, Except.ok.injEq, exists_eq_left',
    Withdrawal.listed, Withdrawal.coin, hleg]
  -- The refund that is listed first may be of either side.
  cases front with
  | first =>
    constructor
    · rintro ⟨_, ⟨hfirst, rfl⟩, _, ⟨hsecond, rfl⟩, rfl⟩
      exact ⟨fun side => by cases side <;> assumption, if_pos rfl⟩
    · rintro ⟨hshort, rfl⟩
      exact ⟨_, ⟨hshort _, rfl⟩, _, ⟨hshort _, rfl⟩, if_pos rfl⟩
  | second =>
    have hne : pair.second ≠ pair.first := (hfront rfl).symm
    constructor
    · rintro ⟨_, ⟨hsecond, rfl⟩, _, ⟨hfirst, rfl⟩, rfl⟩
      exact ⟨fun side => by cases side <;> assumption, if_neg hne⟩
    · rintro ⟨hshort, rfl⟩
      exact ⟨_, ⟨hshort _, rfl⟩, _, ⟨hshort _, rfl⟩, if_neg hne⟩

/-- **A withdrawal is booked exactly if both refunds can be read.** -/
theorem withdraw_eq_ok_iff (hw : w.IsToldBy fields pair) {r : Record} :
    feeDeducting.withdraw fields pair = .ok r ↔
      (∀ side, (w.refund side).IsShort) ∧ r = w.record pair := by
  obtain ⟨text, front, htext, -, -⟩ := hw.refunds
  simp only [withdraw, bind_eq_ok, pure_eq_ok, Fields.value_eq_ok, htext, hw.share, hw.sender,
    Option.some.injEq, exists_eq_left', withdrawnLegs_eq_ok_iff hw htext]
  constructor
  · rintro ⟨_, ⟨hshort, rfl⟩, rfl⟩
    exact ⟨hshort, rfl⟩
  · rintro ⟨hshort, rfl⟩
    exact ⟨_, ⟨hshort, rfl⟩, rfl⟩

theorem failsOnly_withdrawnAmount_length (q : Quantity) :
    FailsOnly IsOfLength (feeDeducting.withdrawnAmount q.text) :=
  (Amount.failsOnly_read_length q.denoted).bind fun _ _ =>
    (Amount.failsOnly_write_length _).bind fun _ hpaid =>
    Amount.failsOnly_negate_length (Amount.integer?_of_write hpaid)

/-- With integers for refunds a withdrawal fails only over the length of a numeral. -/
theorem failsOnly_withdraw_length (hw : w.IsToldBy fields pair) :
    FailsOnly IsOfLength (feeDeducting.withdraw fields pair) := by
  obtain ⟨text, front, htext, hlisted, -⟩ := hw.refunds
  have hlegs : FailsOnly IsOfLength (feeDeducting.withdrawnLegs text pair) := by
    unfold withdrawnLegs
    rw [hlisted]
    exact (failsOnly_withdrawnAmount_length _).bind fun _ _ =>
      (failsOnly_withdrawnAmount_length _).bind_pure _
  unfold withdraw
  rw [Fields.value_eq_ok.2 htext, Fields.value_eq_ok.2 hw.share]
  exact hlegs.bind_pure _

end Strategy

theorem Withdrawal.IsToldBy.paid_le (hw : w.IsToldBy fields pair) (side : Side) :
    0 ≤ w.paid side ∧ w.paid side ≤ (w.refund side).amount := by
  have hnonneg := hw.nonneg side
  have hle := Strategy.natAbs_paidOutPart_scale_le (w.refund side).amount
  rw [Strategy.paidOutPart_scale hnonneg, ← Withdrawal.paid] at hle
  have hcast : (0 : ℚ) ≤ (w.refund side).amount := Int.cast_nonneg hnonneg
  have hpaid : 0 ≤ w.paid side := Int.floor_nonneg.2 (by positivity)
  omega

theorem Withdrawal.paid_mono (h : (w.refund side).amount ≤ (w'.refund side).amount) :
    w.paid side ≤ w'.paid side := by
  have hcast : ((w.refund side).amount : ℚ) ≤ (w'.refund side).amount := Int.cast_le.2 h
  exact Int.floor_le_floor (by gcongr)

/-- **Scaling is exact, and so is what is paid out on columbus-4.** An amount that is read is scaled
to the exact product, cut toward zero, unless the product is too large; a product below one comes to
zero. A withdrawal with integers for refunds is booked with what is left of either of them after the
fee, rounded down, in the order of the pair, if the refunds are not too long to be read. -/
theorem scaled_exactly :
    (∀ text n (d : Decimal), Amount.read text = .ok n →
      scaleAmount text (.finite d) =
        (if |d.value * n| < 10 ^ Numeral.maxDigits then .ok (toString (towardZero (d.value * n)))
        else if |d.value * n| < 10 ^ (maxProductExponent + 1) then
          .error (.read (.numeral .writing))
        else .error .outOfRange) ∧
      (|d.value * n| < 1 → scaleAmount text (.finite d) = .ok "0")) ∧
    (∀ height fields pair (w : Withdrawal), w.IsToldBy fields pair →
      ((∀ side, (w.refund side).IsShort) → ∃ r,
        (Deployment.columbusFour.strategy height).handle Action.withdraw fields pair = .ok r ∧
        r.IsOfWithdrawal pair w ∧ ∀ side, 0 ≤ w.paid side ∧ w.paid side ≤ (w.refund side).amount) ∧
      (¬(∀ side, (w.refund side).IsShort) → ∃ cause,
        (Deployment.columbusFour.strategy height).handle Action.withdraw fields pair =
          .error (.numeral cause))) ∧
    ∀ (w w' : Withdrawal) side, (w.refund side).amount ≤ (w'.refund side).amount →
      w.paid side ≤ w'.paid side := by
  refine ⟨fun text n d hread => ?_, fun height fields pair w hw => ?_,
    fun w w' side => Withdrawal.paid_mono⟩
  · have hscaled : scaleAmount text (.finite d) = d.scaleAmount n := by
      rw [scaleAmount, hread]
      rfl
    rw [hscaled]
    refine ⟨d.scaleAmount_eq n, fun hone => ?_⟩
    have hlt : |d.value * n| < 10 ^ Numeral.maxDigits := hone.trans_le (one_le_pow₀ (by norm_num))
    rw [d.scaleAmount_eq n, if_pos hlt, towardZero_eq_zero hone]
    rfl
  · have hhandle : (Deployment.columbusFour.strategy height).handle Action.withdraw fields pair =
        Strategy.feeDeducting.withdraw fields pair := rfl
    rw [hhandle]
    refine ⟨fun hshort => ?_, fun hlong => ?_⟩
    · exact ⟨_, (Strategy.withdraw_eq_ok_iff hw).2 ⟨hshort, rfl⟩, w.isOfWithdrawal_record pair,
        hw.paid_le⟩
    · cases hwithdraw : Strategy.feeDeducting.withdraw fields pair with
      | ok r => exact absurd ((Strategy.withdraw_eq_ok_iff hw).1 hwithdraw).1 hlong
      | error e =>
        obtain ⟨cause, rfl⟩ := Strategy.failsOnly_withdraw_length hw e hwithdraw
        exact ⟨cause, rfl⟩

/-! A negative amount of which half is taken, and a withdrawal that lists the refunds in the other
order. -/

def lunaWithdrawal : Withdrawal where
  refund
    | .first => .ofInt 1000
    | .second => .ofInt 2000
  share := "1400"

def lunaWithdrawalFields : Fields :=
  [("refund_assets", "2000terra1token, 1000uluna"), ("withdrawn_share", "1400")]

theorem isToldBy_lunaWithdrawal : lunaWithdrawal.IsToldBy lunaWithdrawalFields lunaPair where
  refunds := ⟨"2000terra1token, 1000uluna", .second, rfl, by decide, by decide⟩
  share := rfl
  sender := rfl

theorem lunaWithdrawal_booked :
    Amount.read "-7" = .ok (-7) ∧ scaleAmount "-7" (.finite ⟨5, -1⟩) = .ok "-3" ∧
    lunaWithdrawal.IsToldBy lunaWithdrawalFields lunaPair ∧
    ∃ r, (Deployment.columbusFour.strategy 1).handle Action.withdraw lunaWithdrawalFields lunaPair =
      .ok r ∧
      r.legs = { first := { addr := "uluna", amount := "-993" },
                 second := { addr := "terra1token", amount := "-1987" } } := by
  have hread : Amount.read "-7" = .ok (-7) := by decide
  obtain ⟨hscaling, hwithdrawal, -⟩ := scaled_exactly
  have hvalue : (⟨5, -1⟩ : Decimal).value * (-7 : ℤ) = -7 / 2 := by norm_num [Decimal.value]
  have hscaled : scaleAmount "-7" (.finite ⟨5, -1⟩) = .ok "-3" := by
    have hlt : |(-7 / 2 : ℚ)| < 10 ^ Numeral.maxDigits :=
      (by norm_num [abs_of_neg] : |(-7 / 2 : ℚ)| < 10 ^ 1).trans_le
      (pow_le_pow_right₀ (by norm_num) (by decide))
    have hcut : towardZero (-7 / 2) = -3 := by
      rw [towardZero, if_neg (by norm_num), Int.ceil_eq_iff]
      norm_num
    rw [(hscaling "-7" (-7) ⟨5, -1⟩ hread).1, hvalue, if_pos hlt, hcut]
    rfl
  have hshort (side : Side) : (lunaWithdrawal.refund side).IsShort := by
    cases side <;> exact Quantity.isShort_ofInt.2 (by decide)
  have hfirst : lunaWithdrawal.paid .first = 993 := by
    rw [Withdrawal.paid, Int.floor_eq_iff]
    norm_num [lunaWithdrawal, Quantity.ofInt]
  have hsecond : lunaWithdrawal.paid .second = 1987 := by
    rw [Withdrawal.paid, Int.floor_eq_iff]
    norm_num [lunaWithdrawal, Quantity.ofInt]
  obtain ⟨r, hr, hbooked, -⟩ := (hwithdrawal 1 _ _ _ isToldBy_lunaWithdrawal).1 hshort
  have hlegs : r.legs = { first := r.legs.on .first, second := r.legs.on .second } := rfl
  refine ⟨hread, hscaled, isToldBy_lunaWithdrawal, r, hr, ?_⟩
  rw [hlegs, hbooked.legs .first, hbooked.legs .second, hfirst, hsecond]
  rfl

end PoolLedger
