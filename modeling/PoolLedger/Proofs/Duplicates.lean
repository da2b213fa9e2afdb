import Mathlib.Data.List.Dedup
import Mathlib.Data.List.Perm.Subperm
import PoolLedger.Proofs.Origin
import PoolLedger.Proofs.Touched
import PoolLedger.Proofs.Unrelated

/-!
# Which transfers are left out

A transfer is left out when a record of a pair action accounts for it (`Record.accountsFor`). That
test compares legs as they stand, empty ones too, and also allows the contract to be the sender of
the transfer. The records that are compared are better behaved than it asks for: swaps, provisions
and withdrawals touch both legs, a first provision has no asset at all, and the sender of a
transfer that is a pair is the pair of the transfer (`Record.ActsIn`, `Record.TransfersIn`). Hence
the test comes to `Record.Covers` (`accountsFor_iff`): an action covers a transfer of its contract
if some leg is touched by both.

The main results are `transfers_left_out`, which says what is left out, and `left_out_accounted`,
which says what of it the actions account for.
-/

namespace PoolLedger

/-- A swap, a provision or a withdrawal covers a transfer of its contract if both touch the same
leg. -/
def Record.Covers (action transfer : Record) : Prop :=
  action.kind.IsAction ∧ action.contract = transfer.contract ∧
    ∃ leg ∈ transfer.touched, leg ∈ action.touched

instance (action transfer : Record) : Decidable (action.Covers transfer) :=
  inferInstanceAs (Decidable (_ ∧ _ ∧ ∃ leg ∈ transfer.touched, leg ∈ action.touched))

/-- The transfers among the findings. -/
def Findings.transfers (f : Findings) : List Record :=
  f.tokenTransfers ++ f.bankTransfers

/-! ## Actions and transfers in a transaction -/

/-- What is known of an action or a first provision in a transaction. -/
structure Record.ActsIn (registry : Registry) (tx : RawTx) (a : Record) : Prop where
  hash : a.hash = tx.hash
  registered : a.contract ∈ registry.contracts
  legs : a.kind.IsAction ∧ a.legs.IsFull ∨ a.kind = .firstProvide ∧ a.legs = {}

/-- What is known of a transfer in a transaction. -/
structure Record.TransfersIn (registry : Registry) (tx : RawTx) (t : Record) : Prop where
  hash : t.hash = tx.hash
  kind : t.kind = .transfer
  sender : t.sender ∈ registry.contracts → t.sender = t.contract
  addrs : ∃ pair ∈ registry.pairs, t.legs.first.addr = pair.first ∧ t.legs.second.addr = pair.second

section

variable {registry : Registry} {tx : RawTx} {a t : Record}

theorem Record.ActsIn.kind_ne (h : a.ActsIn registry tx) : a.kind ≠ .transfer := by
  intro ht
  rcases h.legs with ⟨hkind, -⟩ | ⟨hkind, -⟩
  · exact absurd hkind (ht ▸ by decide)
  · exact nomatch hkind.symm.trans ht

theorem Record.TransfersIn.addr_ne (h : t.TransfersIn registry tx) (hassets : registry.HasAssets)
    (side : Side) : (t.legs.on side).addr ≠ "" := by
  obtain ⟨pair, hpair, hfirst, hsecond⟩ := h.addrs
  cases side with
  | first => exact hfirst ▸ (hassets pair hpair).1
  | second => exact hsecond ▸ (hassets pair hpair).2

/-- **A leg that a transfer does not touch is no leg of an action.** -/
theorem Record.amount_ne_of_on_eq (ha : a.ActsIn registry tx) (ht : t.TransfersIn registry tx)
    (hassets : registry.HasAssets) {side : Side} (h : a.legs.on side = t.legs.on side) :
    a.kind.IsAction ∧ (t.legs.on side).amount ≠ "" := by
  rcases ha.legs with ⟨hkind, hfull⟩ | ⟨-, hlegs⟩
  · exact ⟨hkind, h ▸ hfull.on side⟩
  · refine absurd ?_ (ht.addr_ne hassets side)
    rw [← h, hlegs]
    cases side <;> rfl

theorem Record.exists_touched_iff :
    (∃ leg ∈ t.touched, leg ∈ a.touched) ↔
      ∃ side, a.legs.on side = t.legs.on side ∧ (t.legs.on side).amount ≠ "" := by
  constructor
  · rintro ⟨⟨side, leg⟩, ht, ha⟩
    obtain ⟨rfl, hne⟩ := mem_touched.1 ht
    exact ⟨side, (mem_touched.1 ha).1, hne⟩
  · rintro ⟨side, heq, hne⟩
    exact ⟨(side, t.legs.on side), mem_touched.2 ⟨rfl, hne⟩, mem_touched.2 ⟨heq, hne⟩⟩

/-- **What accounts for a transfer covers it, and conversely.** -/
theorem Record.accountsFor_iff (ha : a.ActsIn registry tx) (ht : t.TransfersIn registry tx)
    (hassets : registry.HasAssets) : a.accountsFor t = true ↔ a.Covers t := by
  have hcontract : a.contract = t.contract ∨ a.contract = t.sender ↔ a.contract = t.contract := by
    refine or_iff_left_of_imp fun hsender => ?_
    rw [hsender]
    exact ht.sender (hsender ▸ ha.registered)
  have hlegs : a.legs.first = t.legs.first ∨ a.legs.second = t.legs.second ↔
      ∃ side, a.legs.on side = t.legs.on side := by
    rw [Side.exists_iff]
    rfl
  simp only [accountsFor, Bool.and_eq_true, Bool.or_eq_true, decide_eq_true_eq, ha.hash, ht.hash,
    true_and, hcontract, hlegs]
  rw [Covers, exists_touched_iff]
  constructor
  · rintro ⟨hsame, side, heq⟩
    obtain ⟨hkind, hne⟩ := amount_ne_of_on_eq ha ht hassets heq
    exact ⟨hkind, hsame, side, heq, hne⟩
  · rintro ⟨-, hsame, side, heq, -⟩
    exact ⟨hsame, side, heq⟩

end

namespace Profile

variable {p : Profile} {height : Int} {registry : Registry} {tx : RawTx} {o : Origin} {r : Record}

theorem Yields.actsIn (h : p.Yields height registry tx o r) (ho : o.IsAction) :
    r.ActsIn registry tx := by
  have hregistered : r.contract ∈ registry.contracts := Finds.contract_mem ⟨o, ho.not_isCreation, h⟩
  cases h with
  | creation => exact absurd ho id
  | action _ _ hhandle =>
    obtain ⟨hkind, hfull⟩ := Strategy.isFull_handle hhandle
    exact ⟨rfl, hregistered, .inl ⟨hkind, hfull⟩⟩
  | firstProvide _ hread =>
    obtain ⟨_, _, _, _, -, -, -, -, rfl⟩ := readFirstProvide_eq_ok hread
    exact ⟨rfl, hregistered, .inr ⟨rfl, rfl⟩⟩
  | transfer => exact absurd ho id

theorem Yields.transfersIn {party : Party} {legs : List Asset}
    (h : p.Yields height registry tx (.transfer party legs) r) : r.TransfersIn registry tx := by
  cases h with
  | @transfer sender recipient _ _ _ _ r _ hparty hrecord =>
    obtain ⟨hkind, hcontract, -⟩ := Party.record_eq_ok hrecord
    obtain ⟨hsender, hfirst, hsecond⟩ := Party.record_addrs hrecord
    obtain ⟨hpair, hother⟩ := Registry.party_eq_some hparty
    refine ⟨rfl, hkind, fun hmem => ?_, party.pair, (Registry.get?_eq_some hpair).2, hfirst,
      hsecond⟩
    show r.sender = r.contract
    have hmem : r.sender ∈ registry.contracts := hmem
    rw [hsender] at hmem
    -- A sender that is a pair is the party itself, as not both can be pairs.
    cases hout : party.outflow with
    | true =>
      rw [hout] at hpair
      rw [hsender, hcontract]
      exact (Registry.get?_eq_some hpair).1.symm
    | false =>
      rw [hout] at hother
      exact absurd hmem (Registry.get?_eq_none.1 hother)

variable {found : Findings}

theorem Accounts.actsIn (h : p.Accounts height registry tx found) :
    ∀ a ∈ found.actions, a.ActsIn registry tx := by
  intro a ha
  obtain ⟨o, ho, hy⟩ := h.actions a ha
  obtain ⟨hhash, hregistered, hlegs⟩ := hy.actsIn ho
  exact ⟨hhash, hregistered, hlegs⟩

theorem Accounts.transfersIn (h : p.Accounts height registry tx found) :
    ∀ t ∈ found.transfers, t.TransfersIn registry tx := by
  intro t ht
  rcases List.mem_append.1 ht with ht | ht
  · obtain ⟨party, leg, hy⟩ := h.tokenTransfers t ht
    exact hy.transfersIn
  · obtain ⟨party, legs, hy⟩ := h.bankTransfers t ht
    exact hy.transfersIn

end Profile

/-! ## What is left out -/

section

variable {registry : Registry} {tx : RawTx} {found : Findings}
  (hassets : registry.HasAssets) (hactions : ∀ a ∈ found.actions, a.ActsIn registry tx)
  (htransfers : ∀ t ∈ found.transfers, t.TransfersIn registry tx)

include hassets hactions

theorem withoutDuplicates_eq (sender : String) {transfers : List Record}
    (htransfers : ∀ t ∈ transfers, t.TransfersIn registry tx) :
    withoutDuplicates (found.actions.map fun r => { r with sender }) transfers =
      transfers.filter fun t => ¬∃ a ∈ found.actions, a.Covers t := by
  refine List.filter_congr fun t ht => ?_
  have hany : (found.actions.map fun r => { r with sender }).any (·.accountsFor t) = true ↔
      ∃ a ∈ found.actions, a.Covers t := by
    rw [List.any_map, List.any_eq_true]
    refine exists_congr fun a => and_congr_right fun ha => ?_
    show a.accountsFor t = true ↔ _
    exact Record.accountsFor_iff (hactions a ha) (htransfers t ht) hassets
  rw [Bool.eq_iff_iff, Bool.not_eq_true', ← Bool.not_eq_true, hany, decide_eq_true_iff]

include htransfers

/-- The findings give their actions, and of their transfers those that no action covers. -/
theorem Findings.records_eq : found.records tx.sender =
    found.actions.map (fun r => { r with sender := tx.sender }) ++
      found.transfers.filter fun t => ¬∃ a ∈ found.actions, a.Covers t := by
  rw [records, transfers, List.filter_append, ← List.append_assoc,
    withoutDuplicates_eq hassets hactions tx.sender fun t ht => htransfers t
      (List.mem_append_left _ ht),
    withoutDuplicates_eq hassets hactions tx.sender fun t ht =>
      htransfers t (List.mem_append_right _ ht)]

variable {created : List Record} (hcreated : ∀ r ∈ created, r.kind = .creation)

include hcreated

/-- What covers a transfer is always an action that has been found. -/
theorem Findings.exists_covers_iff (t : Record) :
    (∃ a ∈ created ++ found.records tx.sender, a.Covers t) ↔ ∃ a ∈ found.actions, a.Covers t := by
  rw [records_eq hassets hactions htransfers]
  constructor
  · rintro ⟨a, ha, hcovers⟩
    simp only [List.mem_append, List.mem_map, List.mem_filter] at ha
    rcases ha with ha | ⟨a, ha, rfl⟩ | ⟨ha, -⟩
    · exact absurd hcovers.1 (hcreated a ha ▸ by decide)
    · exact ⟨a, ha, hcovers⟩
    · exact absurd hcovers.1 ((htransfers a ha).kind ▸ by decide)
  · rintro ⟨a, ha, hcovers⟩
    have hsent := List.mem_map_of_mem (f := fun r : Record => { r with sender := tx.sender }) ha
    exact ⟨_, List.mem_append_right _ (List.mem_append_left _ hsent), hcovers⟩

/-- The transfers among the records are those that nothing covers, in their order. -/
theorem Findings.filter_transfers :
    (created ++ found.records tx.sender).filter (·.kind = .transfer) =
      found.transfers.filter fun t => ¬∃ a ∈ created ++ found.records tx.sender, a.Covers t := by
  have hnone : created.filter (·.kind = .transfer) = [] :=
    List.filter_eq_nil_iff.2 fun r hr => by simp [hcreated r hr]
  have hnone' : (found.actions.map fun r => { r with sender := tx.sender }).filter
      (·.kind = .transfer) = [] := by
    refine List.filter_eq_nil_iff.2 fun r hr => ?_
    obtain ⟨a, ha, rfl⟩ := List.mem_map.1 hr
    simpa using (hactions a ha).kind_ne
  have hall : (found.transfers.filter fun t => ¬∃ a ∈ found.actions, a.Covers t).filter
      (·.kind = .transfer) = found.transfers.filter fun t => ¬∃ a ∈ found.actions, a.Covers t :=
    List.filter_eq_self.2 fun t ht => by simp [(htransfers t (List.mem_of_mem_filter ht)).kind]
  simp only [exists_covers_iff hassets hactions htransfers hcreated]
  rw [records_eq hassets hactions htransfers, List.filter_append, List.filter_append, hnone,
    hnone', hall]
  rfl

theorem Findings.mem_records_iff {t : Record} (ht : t ∈ found.transfers) :
    t ∈ created ++ found.records tx.sender ↔
      ¬∃ a ∈ created ++ found.records tx.sender, a.Covers t := by
  have hkept := congrArg (t ∈ ·) (filter_transfers hassets hactions htransfers hcreated)
  simpa [(htransfers t ht).kind, ht] using hkept

end

namespace Profile

variable {p : Profile} {height : Int} {tx : RawTx} {known known' : Knowledge}
  {records : List Record}

theorem hasAssets_afterCreations {registry : Registry} {created : List Record}
    (hassets : registry.HasAssets) (h : p.creations tx tx.entries = .ok created) :
    (registry.afterCreations created).HasAssets := by
  refine hassets.insertAll fun q hq => ?_
  obtain ⟨r, hr, rfl⟩ := List.mem_map.1 hq
  obtain ⟨attrs, -, hread⟩ := exists_of_mem_mapM h hr
  simp only [bind_eq_ok, pure_eq_ok] at hread
  obtain ⟨r', hread, rfl⟩ := hread
  show r'.legs.first.addr ≠ "" ∧ r'.legs.second.addr ≠ ""
  exact readCreation_addr_ne hread

/-- What extraction gives, and what is known of the parts. -/
theorem exists_found (hassets : known.registry.HasAssets)
    (h : p.extract height tx known = (.ok records, known')) :
    ∃ created found,
      p.allFindings height known'.registry tx tx.entries known.flags = (.ok found, known'.flags) ∧
      records = created ++ found.records tx.sender ∧ (∀ r ∈ created, r.kind = .creation) ∧
      p.Accounts height known'.registry tx found ∧ known'.registry.HasAssets := by
  obtain ⟨created, found, hcreated, hregistry, hfound, rfl⟩ := extract_eq_ok h
  refine ⟨_, found, hfound, rfl, fun r hr => ?_, accounts_of_allFindings (fun _ he => he) hfound,
    hregistry ▸ hasAssets_afterCreations hassets hcreated⟩
  obtain ⟨r', hr', rfl⟩ := List.mem_map.1 hr
  obtain ⟨o, ho, hy⟩ := yields_of_creations height {} hcreated hr'
  exact hy.kind_eq_creation_iff.2 ho

/-- **Exactly the transfers that an action covers are left out**, and the others keep their order.
First provisions account for no transfer, a leg that a transfer does not touch equals no leg of an
action, and an action of the sender of a transfer is one of its contract. -/
theorem transfers_left_out (hassets : known.registry.HasAssets)
    (h : p.extract height tx known = (.ok records, known')) :
    ∃ found,
      p.allFindings height known'.registry tx tx.entries known.flags = (.ok found, known'.flags) ∧
      (∀ t ∈ found.transfers, t ∉ records ↔ ∃ a ∈ records, a.Covers t) ∧
      records.filter (·.kind = .transfer) = found.transfers.filter (· ∈ records) ∧
      ∀ a ∈ found.actions, ∀ t ∈ found.transfers,
        (a.kind = .firstProvide → a.accountsFor t = false) ∧
        (a.contract = t.sender → a.contract = t.contract) ∧
        ∀ side, a.legs.on side = t.legs.on side → (t.legs.on side).amount ≠ "" := by
  obtain ⟨created, found, hfound, rfl, hcreated, haccounts, hassets⟩ := exists_found hassets h
  have hactions := haccounts.actsIn
  have htransfers := haccounts.transfersIn
  have hkept : ∀ t ∈ found.transfers, t ∈ created ++ found.records tx.sender ↔
      ¬∃ a ∈ created ++ found.records tx.sender, a.Covers t :=
    fun t ht => Findings.mem_records_iff hassets hactions htransfers hcreated ht
  refine ⟨found, hfound, fun t ht => by rw [hkept t ht, not_not], ?_, fun a ha t ht => ⟨?_, ?_, ?_⟩⟩
  · rw [Findings.filter_transfers hassets hactions htransfers hcreated]
    exact List.filter_congr fun t ht => by rw [decide_eq_decide, hkept t ht]
  · intro hkind
    refine Bool.eq_false_iff.2 fun haccount => ?_
    have hcovers := (Record.accountsFor_iff (hactions a ha) (htransfers t ht) hassets).1 haccount
    exact absurd hcovers.1 (hkind ▸ by decide)
  · intro hsender
    rw [hsender]
    exact (htransfers t ht).sender (hsender ▸ (hactions a ha).registered)
  · intro side heq
    exact (Record.amount_ne_of_on_eq (hactions a ha) (htransfers t ht) hassets heq).2

end Profile

/-! A swap, and transfers beside it. -/

/-- What a pair logs when it swaps a thousand `uluna` for another asset. -/
def swapAttributes (asked : String) : List Attribute :=
  [⟨"_contract_address", "terra1pair"⟩, ⟨"action", "swap"⟩, ⟨"sender", "terra1user"⟩,
    ⟨"receiver", "terra1user"⟩, ⟨"offer_asset", "uluna"⟩, ⟨"ask_asset", asked⟩,
    ⟨"offer_amount", "1000"⟩, ⟨"return_amount", "950"⟩, ⟨"spread_amount", "10"⟩,
    ⟨"commission_amount", "3"⟩]

/-- A swap with both of its transfers, and a gift to the pair. -/
def swapTx : RawTx where
  hash := "A1"
  sender := "terra1user"
  entries := [
    { kind := "wasm"
      attributes := swapAttributes "terra1token" ++ [⟨"_contract_address", "terra1token"⟩,
        ⟨"action", "transfer"⟩, ⟨"from", "terra1pair"⟩, ⟨"to", "terra1user"⟩, ⟨"amount", "950"⟩] },
    { kind := "transfer"
      attributes := [⟨"recipient", "terra1pair"⟩, ⟨"sender", "terra1user"⟩, ⟨"amount", "1000uluna"⟩,
        ⟨"recipient", "terra1pair"⟩, ⟨"sender", "terra1donor"⟩, ⟨"amount", "5uluna"⟩] }]

def swapRecords : List Record :=
  (phoenixProfile.extract 1 swapTx onePair).1.toOption.getD []

theorem extract_swapTx : phoenixProfile.extract 1 swapTx onePair =
    (.ok swapRecords, onePair) := by decide +kernel

theorem swap_transfers_left_out : onePair.registry.HasAssets ∧ ∃ found,
    (phoenixProfile.allFindings 1 onePair.registry swapTx swapTx.entries []).1 = .ok found ∧
      (∀ t ∈ found.transfers, t ∉ swapRecords ↔ ∃ a ∈ swapRecords, a.Covers t) ∧
      swapRecords.filter (·.kind = .transfer) = found.transfers.filter (· ∈ swapRecords) ∧
      swapRecords.map (·.kind) = [.swap, .transfer] := by
  have hassets : onePair.registry.HasAssets := by decide
  obtain ⟨found, hfound, hout, horder, -⟩ := Profile.transfers_left_out hassets extract_swapTx
  exact ⟨hassets, found, congrArg Prod.fst hfound, hout, horder, by decide +kernel⟩

/-! ## What the actions account for -/

namespace Profile

variable {p : Profile} {height : Int} {tx : RawTx} {known known' : Knowledge}
  {records : List Record}

/-- A transfer of one leg that touches its pair moves an asset of it, and notes nothing but the
recipient. -/
theorem Yields.of_touched {registry : Registry} {party : Party} {leg : Asset} {t : Record}
    (h : p.Yields height registry tx (.transfer party [leg]) t) (htouched : t.touched ≠ []) :
    (leg.addr = party.pair.first ∨ leg.addr = party.pair.second) ∧ t.touched.length = 1 ∧
      ∃ sender recipient, p.Moves height tx sender recipient [leg] ∧
        t.notes = ([("recipient", .str recipient)] : Members) := by
  cases h with
  | @transfer sender recipient _ _ _ _ r hmoves _ hrecord =>
    rcases Party.place_singleton hrecord with hlegs | ⟨hnotes, hside⟩
    · refine absurd ?_ htouched
      show r.touched = []
      rw [Record.touched, hlegs]
      rfl
    · refine ⟨hside.imp And.left And.left, ?_, sender, recipient, hmoves, hnotes⟩
      rcases hside with ⟨-, hsecond⟩ | ⟨-, hfirst⟩
      · exact Record.length_touched .second (congrArg Asset.amount hsecond) htouched
      · exact Record.length_touched .first (congrArg Asset.amount hfirst) htouched

/-- Transfers that touch one leg, which some action touches too, have their distinct legs among
those of the actions. -/
theorem subperm_touched {transfers actions : List Record}

    (h : ∀ t ∈ transfers, t.touched.length = 1 ∧
      ∃ a ∈ actions, ∃ leg ∈ t.touched, leg ∈ a.touched) :
    List.Subperm (transfers.flatMap (·.touched)).dedup (actions.flatMap (·.touched)) := by
  refine List.subperm_of_subset (List.nodup_dedup _) fun leg hleg => ?_
  obtain ⟨t, ht, hleg⟩ := List.mem_flatMap.1 (List.mem_dedup.1 hleg)
  obtain ⟨hlength, a, ha, shared, hshared, hboth⟩ := h t ht
  -- The transfer touches one leg, so it is the one that it shares with the action.
  obtain ⟨only, honly⟩ := List.length_eq_one_iff.1 hlength
  rw [honly, List.mem_singleton] at hleg hshared
  subst hleg hshared
  exact List.mem_flatMap.2 ⟨a, ha, hboth⟩

/-- **What is left out shares a leg with an action, and all of it if it touches no more.** A
transfer of one leg, as all transfers of tokens are, is left out only if the leg is an asset of the
pair. The distinct legs of the transfers that are left out and touch one leg can be assigned to
different legs of actions of their contract. -/
theorem left_out_accounted (hassets : known.registry.HasAssets)
    (h : p.extract height tx known = (.ok records, known')) :
    ∃ found,
      p.allFindings height known'.registry tx tx.entries known.flags = (.ok found, known'.flags) ∧
      (∀ t ∈ found.transfers, t ∉ records → ∃ a ∈ records, a.Covers t) ∧
      (∀ t ∈ found.tokenTransfers, ∃ party leg,
        p.Yields height known'.registry tx (.transfer party [leg]) t) ∧
      (∀ t ∈ found.transfers, t ∉ records → ∀ party leg,
        p.Yields height known'.registry tx (.transfer party [leg]) t →
          (leg.addr = party.pair.first ∨ leg.addr = party.pair.second) ∧ t.touched.length = 1 ∧
            ∃ sender recipient, p.Moves height tx sender recipient [leg] ∧
              t.notes = ([("recipient", .str recipient)] : Members)) ∧
      ∀ contract,
        List.Subperm
          ((found.transfers.filter fun t =>
            t.contract = contract ∧ t ∉ records ∧ t.touched.length = 1).flatMap (·.touched)).dedup
          ((records.filter fun a =>
            a.contract = contract ∧ a.kind.IsAction).flatMap (·.touched)) := by
  obtain ⟨created, found, hfound, rfl, hcreated, haccounts, hassets⟩ := exists_found hassets h
  have hcovered : ∀ t ∈ found.transfers, t ∉ created ++ found.records tx.sender →
      ∃ a ∈ created ++ found.records tx.sender, a.Covers t := by
    intro t ht hout
    rwa [Findings.mem_records_iff hassets haccounts.actsIn haccounts.transfersIn hcreated ht,
      not_not] at hout
  refine ⟨found, hfound, hcovered, haccounts.tokenTransfers, ?_, fun contract => ?_⟩
  · intro t ht hout party leg hy
    obtain ⟨a, -, -, -, moved, hmoved, -⟩ := hcovered t ht hout
    exact hy.of_touched (List.ne_nil_of_mem hmoved)
  · refine subperm_touched fun t ht => ?_
    obtain ⟨ht, hcontract, hout, hlength⟩ : t ∈ found.transfers ∧ t.contract = contract ∧
        t ∉ created ++ found.records tx.sender ∧ t.touched.length = 1 := by
      simpa only [List.mem_filter, decide_eq_true_eq] using ht
    obtain ⟨a, ha, hkind, hsame, hshared⟩ := hcovered t ht hout
    exact ⟨hlength, a, List.mem_filter.2 ⟨ha, by simp [hkind, hsame, hcontract]⟩, hshared⟩

end Profile

theorem swap_accounts_for_transfers : onePair.registry.HasAssets ∧ ∃ found,
    (phoenixProfile.allFindings 1 onePair.registry swapTx swapTx.entries []).1 = .ok found ∧
      (∀ t ∈ found.transfers, t ∉ swapRecords → ∃ a ∈ swapRecords, a.Covers t) ∧
      List.Subperm
        ((found.transfers.filter fun t => t.contract = "terra1pair" ∧ t ∉ swapRecords ∧
          t.touched.length = 1).flatMap (·.touched)).dedup
        [(.first, { addr := "uluna", amount := "1000" }),
          (.second, { addr := "terra1token", amount := "-950" })] := by
  have hassets : onePair.registry.HasAssets := by decide
  obtain ⟨found, hfound, hcovered, -, -, hassigned⟩ :=
    Profile.left_out_accounted hassets extract_swapTx
  have hlegs : (swapRecords.filter fun a =>
      a.contract = "terra1pair" ∧ a.kind.IsAction).flatMap (·.touched) =
        [(.first, { addr := "uluna", amount := "1000" }),
          (.second, { addr := "terra1token", amount := "-950" })] := by decide +kernel
  exact ⟨hassets, found, congrArg Prod.fst hfound, hcovered, hlegs ▸ hassigned "terra1pair"⟩

/-- A pair of two coins. -/
def coinPair : Knowledge where
  registry := .ofList [{
    contract := "terra1pair", share := "terra1share", first := "uluna", second := "uusd" }]

/-- A swap that is paid three times, once with some other coin besides and once with some
of the asset asked for. -/
def overpaidTx : RawTx where
  hash := "A1"
  sender := "terra1user"
  entries := [
    { kind := "wasm", attributes := swapAttributes "uusd" },
    { kind := "transfer"
      attributes := [
        ⟨"recipient", "terra1pair"⟩, ⟨"sender", "terra1user"⟩, ⟨"amount", "1000uluna,7ibc/XYZ"⟩,
        ⟨"recipient", "terra1pair"⟩, ⟨"sender", "terra1user"⟩, ⟨"amount", "1000uluna,3uusd"⟩,
        ⟨"recipient", "terra1pair"⟩, ⟨"sender", "terra1user"⟩, ⟨"amount", "1000uluna"⟩] }]

def overpaidFindings : Findings :=
  (phoenixProfile.allFindings 1 coinPair.registry overpaidTx overpaidTx.entries
    []).1.toOption.getD {}

def overpaidRecords : List Record :=
  (phoenixProfile.extract 1 overpaidTx coinPair).1.toOption.getD []

/-- The transfers that are left out beside the swap. -/
def overpaidLeftOut : List Record :=
  overpaidFindings.transfers.filter (· ∉ overpaidRecords)

/-- **What is left out need not be accounted for**: a coin that the pair does not hold, a leg that
no action touches, and more than one transfer by the same leg of an action. -/
theorem left_out_unaccounted :
    coinPair.registry.HasAssets ∧
      (phoenixProfile.allFindings 1 coinPair.registry overpaidTx overpaidTx.entries []).1 =
        .ok overpaidFindings ∧
      (phoenixProfile.extract 1 overpaidTx coinPair).1 = .ok overpaidRecords ∧
      (∃ t ∈ overpaidLeftOut, t.notes.get? "ibc/XYZ" = some (.str "7")) ∧
      (∃ t ∈ overpaidLeftOut, ∃ leg ∈ t.touched, ∀ a ∈ overpaidRecords, leg ∉ a.touched) ∧
      ¬List.Subperm
        ((overpaidLeftOut.filter fun t =>
          t.contract = "terra1pair" ∧ t.touched.length = 1).flatMap (·.touched))
        ((overpaidRecords.filter fun a =>
          a.contract = "terra1pair" ∧ a.kind.IsAction).flatMap (·.touched)) :=
  ⟨by decide, eq_ok_getD (by decide +kernel), by decide +kernel, by decide +kernel,
    by decide +kernel, by decide +kernel⟩

end PoolLedger
