import PoolLedger.Proofs.HeightRanges
import PoolLedger.Proofs.Lengths
import PoolLedger.Proofs.Provision.Events

/-!
# What is booked of a swap

The strategies differ in whether a swap pays a tax, and agree on everything else. The asset that
is offered goes in by the amount that is offered. The other one goes out by the amount that is
returned, and by the tax if the strategy knows one and the event tells it (`Strategy.taxOn`);
the tax is then recorded on that asset, so that leg, return and tax cancel out
(`Record.IsOfSwap`). The share token, refunds and notes stay empty, and offering the other asset
exchanges the amounts of the two legs.

`Strategy.handle_swap` proves this for every strategy, with one proviso: no numeral may be too long
(`Strategy.Manages`). An amount with more than `Numeral.maxDigits` digits is not read, and the sum
of the return and a tax can have one digit more than either (`heavySwap_refused`).
-/

namespace PoolLedger

def Side.other : Side → Side
  | .first => .second
  | .second => .first

/-- An amount as an event tells it: a text, and the integer that it denotes. -/
structure Quantity where
  text : String
  amount : Int
  denoted : Amount.integer? text = some amount

namespace Quantity

/-- The amount is read. -/
def IsShort (q : Quantity) : Prop :=
  Amount.digits q.text ≤ Numeral.maxDigits

/-- An integer in shortest form. -/
def ofInt (n : Int) : Quantity where
  text := toString n
  amount := n
  denoted := Amount.integer?_toString n

theorem read_eq_ok_iff (q : Quantity) {n : Int} :
    Amount.read q.text = .ok n ↔ q.IsShort ∧ q.amount = n :=
  Amount.read_eq_ok_iff q.denoted

theorem negate_eq_ok_iff (q : Quantity) {text : String} :
    Amount.negate q.text = .ok text ↔ q.IsShort ∧ toString (-q.amount) = text := by
  rw [Amount.negate_eq q.denoted, IsShort]
  split_ifs with h <;> simp [h]

theorem isShort_ofInt {n : Int} :
    (ofInt n).IsShort ↔ Numeral.size n.natAbs ≤ Numeral.maxDigits := by
  rw [IsShort, ofInt, Amount.digits_toString]

end Quantity

/-- What the event of a swap tells. -/
structure Swap where
  /-- The side of the asset that is offered. -/
  offered : Side
  offer : Quantity
  returned : Quantity
  tax : Option Quantity := none
  commission : String
  sender : String := ""

namespace Swap

/-- The fields of an event that tells a swap of the assets of a pair. -/
structure IsToldBy (w : Swap) (fields : Fields) (pair : Pair) : Prop where
  asset : fields.get? "offer_asset" = some (pair.asset w.offered)
  offer : fields.get? "offer_amount" = some w.offer.text
  returned : fields.get? "return_amount" = some w.returned.text
  tax : fields.get? "tax_amount" = w.tax.map (·.text)
  commission : fields.get? "commission_amount" = some w.commission
  sender : (fields.get? "sender").getD "" = w.sender

/-- The fields of the event of a swap. -/
def fields (w : Swap) (pair : Pair) : Fields :=
  [("sender", w.sender), ("offer_asset", pair.asset w.offered), ("offer_amount", w.offer.text),
    ("return_amount", w.returned.text), ("commission_amount", w.commission)] ++
    (w.tax.map fun q => ("tax_amount", q.text)).toList

theorem isToldBy_fields (w : Swap) (pair : Pair) : w.IsToldBy (w.fields pair) pair := by
  obtain ⟨offered, offer, returned, tax, commission, sender⟩ := w
  cases tax <;> constructor <;> rfl

/-- The swap in which the other asset is offered. -/
def exchanged (w : Swap) : Swap :=
  { w with offered := w.offered.other }

/-- What goes out in a swap that pays a tax, or none. -/
def paidOut (w : Swap) (tax : Option Quantity) : Int :=
  w.returned.amount + (tax.map (·.amount)).getD 0

/-- What is booked of a swap that pays a tax, or none. -/
def record (w : Swap) (pair : Pair) (tax : Option Quantity) : Record where
  kind := .swap
  sender := w.sender
  contract := pair.contract
  legs := Strategy.swapLegs pair (w.offered = .second) (toString w.offer.amount)
    (toString (-w.paidOut tax))
  commission := w.commission
  tax := tax.map fun q => { addr := pair.asset w.offered.other, amount := q.text }

end Swap

/-- The record of a swap that pays a tax, or none. -/
structure Record.IsOfSwap (r : Record) (pair : Pair) (w : Swap) (tax : Option Quantity) : Prop where
  kind : r.kind = .swap
  contract : r.contract = pair.contract
  sender : r.sender = w.sender
  order : ∀ side, (r.legs.on side).addr = pair.asset side
  offer : (r.legs.on w.offered).amount = toString w.offer.amount
  returned : (r.legs.on w.offered.other).amount = toString (-w.paidOut tax)
  tax : r.tax = tax.map fun q => { addr := pair.asset w.offered.other, amount := q.text }
  balance : ∃ out, Amount.integer? (r.legs.on w.offered.other).amount = some out ∧
    out + w.returned.amount + ((r.tax.bind fun a => Amount.integer? a.amount).getD 0) = 0
  commission : r.commission = w.commission
  share : r.share = "" ∧ r.shareAmount = ""
  refund : r.refund = none
  notes : r.notes = []

/-- A record of a pair on one side of which a tax goes out as well. -/
def Record.withTax (r : Record) (pair : Pair) (side : Side) (outflow tax : String) : Record :=
  { r with
    legs := r.legs.set side { addr := pair.asset side, amount := outflow }
    tax := some { addr := pair.asset side, amount := tax } }

theorem Swap.withTax_record (w : Swap) (pair : Pair) (q : Quantity) :
    (w.record pair none).withTax pair w.offered.other (toString (-w.paidOut (some q))) q.text =
      w.record pair (some q) := by
  unfold record Record.withTax
  cases w.offered <;> rfl

theorem Strategy.on_swapLegs (pair : Pair) (side : Side) (inflow outflow : String) :
    (swapLegs pair (side = .second) inflow outflow).on side =
      { addr := pair.asset side, amount := inflow } ∧
    (swapLegs pair (side = .second) inflow outflow).on side.other =
      { addr := pair.asset side.other, amount := outflow } := by
  cases side <;> exact ⟨rfl, rfl⟩

theorem Strategy.amount_swapLegs_other (pair : Pair) (offered side : Side)
    (inflow outflow : String) :
    ((swapLegs pair (offered.other = .second) inflow outflow).on side).amount =
      ((swapLegs pair (offered = .second) inflow outflow).on side.other).amount := by
  cases offered <;> cases side <;> rfl

theorem Swap.isOfSwap_record (w : Swap) (pair : Pair) (tax : Option Quantity) :
    (w.record pair tax).IsOfSwap pair w tax := by
  obtain ⟨hin, hout⟩ :=
    Strategy.on_swapLegs pair w.offered (toString w.offer.amount) (toString (-w.paidOut tax))
  have horder (side : Side) : ((w.record pair tax).legs.on side).addr = pair.asset side := by
    show ((Strategy.swapLegs pair _ _ _).on side).addr = _
    unfold Strategy.swapLegs
    split <;> cases side <;> rfl
  refine ⟨rfl, rfl, rfl, horder, congrArg (·.amount) hin, congrArg (·.amount) hout, rfl, ?_, rfl,
    ⟨rfl, rfl⟩, rfl, rfl⟩
  refine ⟨-w.paidOut tax,
    (congrArg (Amount.integer? ·.amount) hout).trans (Amount.integer?_toString _), ?_⟩
  cases tax with
  | none =>
    show -(w.returned.amount + 0) + w.returned.amount + 0 = 0
    omega
  | some q =>
    show -(w.returned.amount + q.amount) + w.returned.amount + (Amount.integer? q.text).getD 0 = 0
    rw [q.denoted, Option.getD_some]
    omega

/-! ## The actions of a pair -/

open ReadError (IsOfLength)

namespace Strategy

/-- The tax that a swap pays: what the event tells, if the strategy knows a tax. -/
def taxOn (s : Strategy) (w : Swap) : Option Quantity :=
  if s.isTaxed then w.tax else none

/-- No numeral of a swap is too long. -/
structure Manages (s : Strategy) (w : Swap) : Prop where
  offer : w.offer.IsShort
  returned : w.returned.IsShort
  tax : ∀ q ∈ s.taxOn w, q.IsShort
  paidOut : Numeral.size (w.paidOut (s.taxOn w)).natAbs ≤ Numeral.maxDigits

variable {s : Strategy} {pair : Pair} {fields : Fields} {w : Swap}

/-- A swap without a tax is booked if its two amounts can be read. -/
theorem plainSwap_eq_ok_iff (hpair : pair.first ≠ pair.second) (hw : w.IsToldBy fields pair)
    {r : Record} :
    plainSwap fields pair = .ok r ↔
      w.offer.IsShort ∧ w.returned.IsShort ∧ r = w.record pair none := by
  have hside : (pair.asset w.offered = pair.second) = (w.offered = .second) :=
    propext ((Pair.asset_injective hpair).eq_iff (b := .second))
  have hpaid : w.paidOut none = w.returned.amount := Int.add_zero _
  simp only [plainSwap, bind_eq_ok, pure_eq_ok, Fields.value_eq_ok, hw.asset, hw.offer, hw.returned,
    hw.commission, Option.some.injEq, exists_eq_left', Quantity.read_eq_ok_iff,
    Quantity.negate_eq_ok_iff, Swap.record, hside, hpaid, hw.sender, Option.map_none]
  constructor
  · rintro ⟨_, ⟨hoffer, rfl⟩, _, hinflow, _, ⟨hreturned, rfl⟩, rfl⟩
    obtain ⟨-, rfl⟩ := Amount.write_eq_ok.1 hinflow
    exact ⟨hoffer, hreturned, rfl⟩
  · rintro ⟨hoffer, hreturned, rfl⟩
    have hread := w.offer.read_eq_ok_iff.2 ⟨hoffer, rfl⟩
    exact ⟨_, ⟨hoffer, rfl⟩, _, Amount.write_of_read hread, _, ⟨hreturned, rfl⟩, rfl⟩

theorem manages_iff_of_taxOn_none (h : s.taxOn w = none) :
    s.Manages w ↔ w.offer.IsShort ∧ w.returned.IsShort := by
  refine ⟨fun hm => ⟨hm.offer, hm.returned⟩, fun ⟨hoffer, hreturned⟩ => ⟨hoffer, hreturned, ?_, ?_⟩⟩
  · rw [h]
    nofun
  · have hpaid : w.paidOut none = w.returned.amount := Int.add_zero _
    rw [h, hpaid]
    exact Amount.size_of_read (w.returned.read_eq_ok_iff.2 ⟨hreturned, rfl⟩)

theorem taxedSwap_of_no_tax (h : fields.get? "tax_amount" = none) :
    taxedSwap fields pair = plainSwap fields pair := by
  unfold taxedSwap
  rw [h]
  exact bind_pure _

/-- A tax replaces the leg that goes out, and is recorded on its asset. -/
theorem taxedSwap_of_tax (hpair : pair.first ≠ pair.second) {offered : Side}
    (hasset : fields.get? "offer_asset" = some (pair.asset offered)) {tax : String}
    (htax : fields.get? "tax_amount" = some tax) : taxedSwap fields pair = (do
      let r ← plainSwap fields pair
      let returned ← Amount.read (← fields.value "return_amount")
      let outflow ← Amount.write (-(returned + (← Amount.read tax)))
      return r.withTax pair offered.other outflow tax) := by
  have hvalue : fields.value "offer_asset" = .ok (pair.asset offered) := Fields.value_eq_ok.2 hasset
  unfold taxedSwap
  rw [htax, hvalue]
  refine bind_congr fun r => bind_congr fun text => bind_congr fun returned =>
    bind_congr fun paid =>
    bind_congr fun outflow => ?_
  cases offered with
  | first => exact if_neg hpair
  | second => exact if_pos rfl

/-- A swap with a tax is booked if the three amounts can be read, and what goes out can be
written. -/
theorem taxedSwap_eq_ok_iff (hpair : pair.first ≠ pair.second) (hw : w.IsToldBy fields pair)
    {q : Quantity} (htax : w.tax = some q) {r : Record} : taxedSwap fields pair = .ok r ↔
      w.offer.IsShort ∧ w.returned.IsShort ∧ q.IsShort ∧
        Numeral.size (w.paidOut (some q)).natAbs ≤ Numeral.maxDigits ∧
        r = w.record pair (some q) := by
  have htold : fields.get? "tax_amount" = some q.text := by rw [hw.tax, htax, Option.map_some]
  have hpaid : w.returned.amount + q.amount = w.paidOut (some q) := rfl
  simp only [taxedSwap_of_tax hpair hw.asset htold, bind_eq_ok, plainSwap_eq_ok_iff hpair hw,
    pure_eq_ok, Fields.value_eq_ok, hw.returned, Option.some.injEq, exists_eq_left',
    Quantity.read_eq_ok_iff, Amount.write_eq_ok, Int.natAbs_neg]
  constructor
  · rintro ⟨_, ⟨hoffer, hreturned, rfl⟩, _, ⟨-, rfl⟩, _, ⟨hq, rfl⟩, _, ⟨hsize, rfl⟩, rfl⟩
    rw [hpaid] at hsize ⊢
    exact ⟨hoffer, hreturned, hq, hsize, w.withTax_record pair q⟩
  · rintro ⟨hoffer, hreturned, hq, hsize, rfl⟩
    exact ⟨_, ⟨hoffer, hreturned, rfl⟩, _, ⟨hreturned, rfl⟩, _, ⟨hq, rfl⟩, _, ⟨hsize, rfl⟩,
      w.withTax_record pair q⟩

/-- **A swap is booked exactly if no numeral is too long.** -/
theorem swap_eq_ok_iff (s : Strategy) (hpair : pair.first ≠ pair.second)
    (hw : w.IsToldBy fields pair) {r : Record} :
    s.swap fields pair = .ok r ↔ s.Manages w ∧ r = w.record pair (s.taxOn w) := by
  -- A strategy that ignores taxes reads the event as a plain swap.
  by_cases htaxed : s.isTaxed
  · have hswap : s.swap fields pair = taxedSwap fields pair := if_pos htaxed
    have hon : s.taxOn w = w.tax := if_pos htaxed
    cases htax : w.tax with
    | none =>
      have htold : fields.get? "tax_amount" = none := by rw [hw.tax, htax, Option.map_none]
      rw [htax] at hon
      rw [hswap, taxedSwap_of_no_tax htold, plainSwap_eq_ok_iff hpair hw,
        manages_iff_of_taxOn_none hon, hon, and_assoc]
    | some q =>
      rw [htax] at hon
      rw [hswap, taxedSwap_eq_ok_iff hpair hw htax, hon]
      constructor
      · rintro ⟨hoffer, hreturned, hq, hsize, rfl⟩
        refine ⟨⟨hoffer, hreturned, fun q' hq' => ?_, hon ▸ hsize⟩, rfl⟩
        rw [hon] at hq'
        exact Option.some.inj hq' ▸ hq
      · rintro ⟨⟨hoffer, hreturned, hq, hsize⟩, rfl⟩
        exact ⟨hoffer, hreturned, hq q hon, hon ▸ hsize, rfl⟩
  · have hswap : s.swap fields pair = plainSwap fields pair := if_neg htaxed
    have hon : s.taxOn w = none := if_neg htaxed
    rw [hswap, plainSwap_eq_ok_iff hpair hw, manages_iff_of_taxOn_none hon, hon, and_assoc]

/-- With integers for amounts a swap fails only over the length of a numeral. -/
theorem failsOnly_swap_length (s : Strategy) (hpair : pair.first ≠ pair.second)
    (hw : w.IsToldBy fields pair) :
    FailsOnly IsOfLength (s.swap fields pair) := by
  have hvalue {key v : String} (h : fields.get? key = some v) : fields.value key = .ok v :=
    Fields.value_eq_ok.2 h
  have hread (q : Quantity) : FailsOnly IsOfLength (Amount.read q.text) :=
    Amount.failsOnly_read_length q.denoted
  have hplain : FailsOnly IsOfLength (plainSwap fields pair) := by
    unfold plainSwap
    rw [hvalue hw.asset, hvalue hw.offer, hvalue hw.returned, hvalue hw.commission]
    exact (hread w.offer).bind fun _ _ => (Amount.failsOnly_write_length _).bind fun _ _ =>
      (Amount.failsOnly_negate_length w.returned.denoted).bind_pure _
  unfold swap
  split
  · cases htax : w.tax with
    | none =>
      have htold : fields.get? "tax_amount" = none := by rw [hw.tax, htax, Option.map_none]
      rw [taxedSwap_of_no_tax htold]
      exact hplain
    | some q =>
      have htold : fields.get? "tax_amount" = some q.text := by rw [hw.tax, htax, Option.map_some]
      rw [taxedSwap_of_tax hpair hw.asset htold, hvalue hw.returned]
      exact hplain.bind fun _ _ => (hread w.returned).bind fun _ _ => (hread q).bind fun _ _ =>
        (Amount.failsOnly_write_length _).bind_pure _
  · exact hplain

/-- **What every strategy books of a swap.** If no numeral is too long, the asset that is offered
goes in, the other one goes out by what is returned and the tax that the strategy applies, this tax
is recorded on it, and nothing else is set; offering the other asset exchanges the amounts of the
legs. Otherwise the swap is refused over the length of a numeral. -/
theorem handle_swap (s : Strategy) (hpair : pair.first ≠ pair.second)
    (hw : w.IsToldBy fields pair) :
    (s.Manages w → ∃ r, s.handle Action.swap fields pair = .ok r ∧ r.IsOfSwap pair w (s.taxOn w) ∧
      ∀ fields', w.exchanged.IsToldBy fields' pair →
        ∃ r', s.handle Action.swap fields' pair = .ok r' ∧
        r'.IsOfSwap pair w.exchanged (s.taxOn w) ∧
        ∀ side, (r'.legs.on side).amount = (r.legs.on side.other).amount) ∧
    (¬s.Manages w → ∃ cause, s.handle Action.swap fields pair = .error (.numeral cause)) := by
  have hhandle (fields : Fields) : s.handle Action.swap fields pair = s.swap fields pair :=
    if_pos rfl
  simp only [hhandle]
  constructor
  · intro hm
    refine ⟨_, (swap_eq_ok_iff s hpair hw).2 ⟨hm, rfl⟩, w.isOfSwap_record pair _,
      fun fields' hw' => ?_⟩
    have hm' : s.Manages w.exchanged := ⟨hm.offer, hm.returned, hm.tax, hm.paidOut⟩
    exact ⟨_, (swap_eq_ok_iff s hpair hw').2 ⟨hm', rfl⟩, w.exchanged.isOfSwap_record pair _,
      fun side => amount_swapLegs_other pair w.offered side _ _⟩
  · intro hm
    cases hswap : s.swap fields pair with
    | ok r => exact absurd ((swap_eq_ok_iff s hpair hw).1 hswap).1 hm
    | error e =>
      obtain ⟨cause, rfl⟩ := failsOnly_swap_length s hpair hw e hswap
      exact ⟨cause, rfl⟩

end Strategy

/-! A swap that pays a tax, and swaps with numerals that are too long. -/

def lunaSwap : Swap where
  offered := .second
  offer := .ofInt 1000
  returned := .ofInt 950
  tax := some (.ofInt 5)
  commission := "3"
  sender := "terra1user"

theorem lunaSwap_booked : ∃ r,
    (Strategy.taxedReconciling "terra1").handle Action.swap (lunaSwap.fields lunaPair) lunaPair =
      .ok r ∧
      r.IsOfSwap lunaPair lunaSwap lunaSwap.tax := by
  have hpair : lunaPair.first ≠ lunaPair.second := by decide
  obtain ⟨hbooked, -⟩ :=
    (Strategy.taxedReconciling "terra1").handle_swap hpair (lunaSwap.isToldBy_fields lunaPair)
  have htax : ∀ q ∈ (Strategy.taxedReconciling "terra1").taxOn lunaSwap, q.IsShort := fun q hq =>
    Option.some.inj hq ▸ Quantity.isShort_ofInt.2 (by decide)
  obtain ⟨r, hr, hswap, -⟩ := hbooked ⟨Quantity.isShort_ofInt.2 (by decide),
    Quantity.isShort_ofInt.2 (by decide), htax, by decide⟩
  exact ⟨r, hr, hswap⟩

/-- A swap whose return and tax are the same amount. -/
def heavySwap (n : Nat) : Swap where
  offered := .first
  offer := .ofInt 1000
  returned := .ofInt n
  tax := some (.ofInt n)
  commission := "3"

/-- A swap with the given offer. -/
def longSwap (n : Nat) : Swap where
  offered := .first
  offer := .ofInt n
  returned := .ofInt 950
  commission := "3"

theorem not_manages_heavySwap {n : Nat} (h : Numeral.maxDigits < Numeral.size (2 * n)) :
    ¬Strategy.feeDeducting.Manages (heavySwap n) := by
  intro hm
  have hpaid : (heavySwap n).paidOut (Strategy.feeDeducting.taxOn (heavySwap n)) =
      (2 * n : Nat) := by
    show (n : Int) + n = _
    omega
  have hsize := hm.paidOut
  rw [hpaid, Int.natAbs_natCast] at hsize
  omega

theorem not_manages_longSwap {n : Nat} (h : Numeral.maxDigits < Numeral.size n) (s : Strategy) :
    ¬s.Manages (longSwap n) := by
  intro hm
  have hsize := Quantity.isShort_ofInt.1 hm.offer
  rw [Int.natAbs_natCast] at hsize
  omega

/-- **Not every swap is booked**: a sum that is too long is not written, and an amount that is
too long is not read. -/
theorem heavySwap_refused : lunaPair.first ≠ lunaPair.second ∧
    (heavySwap greatestAmount).IsToldBy ((heavySwap greatestAmount).fields lunaPair) lunaPair ∧
    (∀ r, Strategy.feeDeducting.handle Action.swap ((heavySwap greatestAmount).fields lunaPair)
      lunaPair ≠ .ok r) ∧
    (longSwap (2 * greatestAmount)).IsToldBy ((longSwap (2 * greatestAmount)).fields lunaPair)
      lunaPair ∧
    ∀ (s : Strategy) r,
      s.handle Action.swap ((longSwap (2 * greatestAmount)).fields lunaPair) lunaPair ≠ .ok r := by
  have hpair : lunaPair.first ≠ lunaPair.second := by decide
  have hrefused {s : Strategy} {w : Swap} (h : ¬s.Manages w) (r : Record) :
      s.handle Action.swap (w.fields lunaPair) lunaPair ≠ .ok r := fun hr =>
    h ((s.swap_eq_ok_iff hpair (w.isToldBy_fields lunaPair)).1 hr).1
  exact ⟨hpair, Swap.isToldBy_fields _ _, hrefused (not_manages_heavySwap size_greatestAmount.2),
    Swap.isToldBy_fields _ _, fun s => hrefused (not_manages_longSwap size_greatestAmount.2 s)⟩

end PoolLedger
