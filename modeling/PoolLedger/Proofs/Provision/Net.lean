import PoolLedger.Proofs.AssetOrder
import PoolLedger.Proofs.Provision.Events

/-!
# The net effect of a provision

However a provision with refunds is logged, its records add up to what was offered less what was
refunded (`extract_provision`). Three things have to fit together for this:

* the pair books tokens net of the refund and native coins in full (`Provision.booked`),
* the transfers into the pair are left out, because each agrees with the booking on one side at
  least (`Record.Moves.accountsFor_iff`),
* the native coins that are given back are a record of their own, with negative amounts, which
  agrees with the booking on no side.
-/

namespace PoolLedger

/-! ## Amounts of records -/

/-- The amount of a record on a side. -/
def Record.amountOn (r : Record) (side : Side) : Except ReadError Int :=
  Amount.read (r.legs.on side).amount

/-- What some records add up to on a side. -/
def totalOn (side : Side) : List Record → Except ReadError Int
  | [] => return 0
  | r :: records => return (← r.amountOn side) + (← totalOn side records)

theorem totalOn_cons {side : Side} {r : Record} {records : List Record} {m n : Int}
    (hr : r.amountOn side = .ok m) (h : totalOn side records = .ok n) :
    totalOn side (r :: records) = .ok (m + n) :=
  bind_eq_ok.2 ⟨m, hr, bind_eq_ok.2 ⟨n, h, rfl⟩⟩

namespace Record.Moves

variable {r a t : Record} {pair : Pair} {sides : List Side} {amounts booked : Side → Int}

theorem stamped (h : r.Moves pair sides amounts) (tx : RawTx) :
    (r.stamped tx).Moves pair sides amounts where
  contract := h.contract
  legs := h.legs

theorem with_sender (h : r.Moves pair sides amounts) (sender : String) :
    { r with sender }.Moves pair sides amounts where
  contract := h.contract
  legs := h.legs

theorem inOrderOf (h : r.Moves pair sides amounts) : r.legs.InOrderOf pair :=
  ⟨congrArg Asset.addr (h.legs .first), congrArg Asset.addr (h.legs .second)⟩

theorem amountOn_eq (h : r.Moves pair sides amounts)
    (hsize : ∀ side, Numeral.size (amounts side).natAbs ≤ Numeral.maxDigits) (side : Side) :
    r.amountOn side = .ok (if side ∈ sides then amounts side else 0) := by
  rw [Record.amountOn, h.legs side]
  dsimp only
  split
  · exact Amount.read_of_write (Amount.write_eq_ok.2 ⟨hsize side, rfl⟩)
  · rfl

/-- **A booking accounts for a transfer exactly when they agree on a side that the transfer
touches.** -/
theorem accountsFor_iff (ha : a.Moves pair Side.all booked) (ht : t.Moves pair sides amounts)
    (hhash : a.hash = t.hash) :
    a.accountsFor t = true ↔ ∃ side ∈ sides, booked side = amounts side := by
  have hleg (side : Side) : a.legs.on side = t.legs.on side ↔
      side ∈ sides ∧ booked side = amounts side := by
    rw [ha.legs side, ht.legs side, if_pos side.mem_all, Asset.mk.injEq]
    by_cases hmem : side ∈ sides
    · rw [if_pos hmem, Numeral.toString_inj, and_iff_right rfl, and_iff_right hmem]
    · rw [if_neg hmem, and_iff_right rfl]
      exact iff_of_false (Numeral.toString_ne_empty _) fun h => hmem h.1
  have hlegs : a.legs.first = t.legs.first ∨ a.legs.second = t.legs.second ↔
      ∃ side ∈ sides, booked side = amounts side := by
    simp only [← hleg, Side.exists_iff]
    rfl
  simp [Record.accountsFor, hhash, ha.contract, ht.contract, hlegs]

end Record.Moves

namespace Provision

variable {v : Provision} {p : Profile} {height : Int} {registry : Registry} {tx : RawTx}

/-- A transaction logs a provision: the event of the pair, one event of each token that is pulled,
the native coins on their way in, and those given back. The sub-events come in any order, and
entries of other types do not matter. -/
structure IsLogged (v : Provision) (p : Profile) (height : Int) (tx : RawTx) : Prop where
  events : ∃ provide pulls, v.IsProvide p height provide ∧
    List.Forall₂ (v.IsPull p height) (v.tokenSides p) pulls ∧
    Holds p.eventKind tx.entries (provide :: pulls)
  transfers : ∃ incoming outgoing parts,
    v.MovesCoins v.user v.pair.contract v.offered (v.nativeSides p) incoming ∧
    v.MovesCoins v.pair.contract v.user v.refunded (v.refundSides p) outgoing ∧
    List.Forall₂ p.IsBankTransfer (incoming ++ outgoing) parts ∧
    Holds EventType.transfer.name tx.entries parts

/-! ## What is found -/

section

variable {entries : List Entry} {provide : List Attribute} {pulls : List (List Attribute)}
  (hp : (p.deployment.strategy height).Reconciles) (hprovide : v.IsProvide p height provide)
  (hpulls : List.Forall₂ (v.IsPull p height) (v.tokenSides p) pulls)
  (hevents : Holds p.eventKind entries (provide :: pulls))

theorem IsProvide.isContractEvent (hp : (p.deployment.strategy height).Reconciles)
    (hprovide : v.IsProvide p height provide) :
    IsContractEvent p.deployment.contractKey v.pair.contract Action.provide provide := by
  obtain ⟨fields, hevent, hkeys⟩ := hprovide.isEvent
  exact hevent.isContractEvent (Deployment.contractKey_of_reconciles hp) hkeys

theorem IsPull.isContractEvent (hp : (p.deployment.strategy height).Reconciles) {side : Side}
    {pull : List Attribute} (hpull : v.IsPull p height side pull) :
    IsContractEvent p.deployment.contractKey (v.pair.asset side) Action.transferFrom pull := by
  obtain ⟨fields, hevent, hkeys⟩ := hpull.isEvent
  exact hevent.isContractEvent (Deployment.contractKey_of_reconciles hp) hkeys

include hprovide hpulls

include hp in
theorem contractEvent_of_mem {part : List Attribute} (hpart : part ∈ provide :: pulls) :
    ∃ contract action, IsContractEvent p.deployment.contractKey contract action part := by
  rcases List.mem_cons.1 hpart with rfl | hpart
  · exact ⟨_, _, hprovide.isContractEvent hp⟩
  · obtain ⟨side, -, hpull⟩ := exists_of_mem_forall₂ hpulls hpart
    exact ⟨_, _, hpull.isContractEvent hp⟩

theorem value_of_actionKey {part : List Attribute} (hpart : part ∈ provide :: pulls) {a : Attribute}
    (ha : a ∈ part) (hkey : a.key = actionKey) :
    a.value = Action.provide ∨ a.value = Action.transferFrom := by
  rcases List.mem_cons.1 hpart with rfl | hpart
  · obtain ⟨fields, hevent, hkeys⟩ := hprovide.isEvent
    exact .inl (hevent.value_eq hkeys ha hkey)
  · obtain ⟨side, -, hpull⟩ := exists_of_mem_forall₂ hpulls hpart
    obtain ⟨fields, hevent, hkeys⟩ := hpull.isEvent
    exact .inr (hevent.value_eq hkeys ha hkey)

include hevents

theorem findIn_of_action {r : Rule} (action : String) (hkind : r.kind = p.eventKind)
    (hitem : { key := actionKey, filter := .equals action } ∈ r.items)
    (hne : action ≠ Action.provide ∧ action ≠ Action.transferFrom) : r.findIn entries = [] := by
  refine Rule.findIn_eq_nil_of_holds hitem (hkind ▸ hevents) fun part hpart a ha => ?_
  have hvalue := value_of_actionKey hprovide hpulls hpart ha
  by_cases hkey : a.key = actionKey
  · rcases hvalue hkey with hvalue | hvalue
    · simp [RuleItem.accepts, Filter.accepts, hvalue, hne.1.symm]
    · simp [RuleItem.accepts, Filter.accepts, hvalue, hne.2.symm]
  · simp [RuleItem.accepts, hkey]

include hp

/-- The event of the pair is the one action of a pair. -/
theorem findIn_pairRule (hv : v.IsSound registry) :
    (p.pairRule registry.contracts).findIn entries = [provide] := by
  have hfound := Rule.findIn_contractEvents (p.isOfContracts_pairRule registry.contracts) hevents
    fun part => contractEvent_of_mem hp hprovide hpulls
  have hfits : Rule.fits (p.pairRule registry.contracts).items provide = true :=
    (hprovide.isContractEvent hp).fits_iff.2
      ⟨List.contains_iff_mem.2 (Registry.mem_contracts_of_get? hv.registered), by decide⟩
  have hpulls_not : ∀ pull ∈ pulls,
      ¬Rule.fits (p.pairRule registry.contracts).items pull = true := by
    intro pull hpull hfits
    obtain ⟨side, -, hside⟩ := exists_of_mem_forall₂ hpulls hpull
    exact absurd ((hside.isContractEvent hp).fits_iff.1 hfits).2 (by decide)
  rw [List.filter_cons_of_pos hfits, List.filter_eq_nil_iff.2 hpulls_not] at hfound
  exact List.perm_singleton.1 hfound

/-- The events of the tokens are the transfers of tokens. -/
theorem findIn_tokenRule : (p.tokenRule.findIn entries).Perm pulls := by
  have hfound := Rule.findIn_contractEvents p.isOfContracts_tokenRule hevents fun part =>
    contractEvent_of_mem hp hprovide hpulls
  have hprovide_not : ¬Rule.fits p.tokenRule.items provide = true := fun hfits =>
    absurd ((hprovide.isContractEvent hp).fits_iff.1 hfits).2 (by decide)
  have hpulls_fit : ∀ pull ∈ pulls, Rule.fits p.tokenRule.items pull = true := by
    intro pull hpull
    obtain ⟨side, -, hside⟩ := exists_of_mem_forall₂ hpulls hpull
    exact (hside.isContractEvent hp).fits_iff.2 ⟨rfl, by decide⟩
  rwa [List.filter_cons_of_neg hprovide_not, List.filter_eq_self.2 hpulls_fit] at hfound

end

/-! ## What is read -/

/-- The records of a transfer of coins on some sides: one, or none where there is no side. -/
def AreOfCoins (pair : Pair) (sides : List Side) (amounts : Side → Int)
    (records : List Record) : Prop :=
  if sides = [] then records = [] else ∃ r, records = [r] ∧ r.Moves pair sides amounts

namespace AreOfCoins

variable {pair : Pair} {sides : List Side} {amounts : Side → Int} {records records' : List Record}

theorem map (h : AreOfCoins pair sides amounts records) {f : Record → Record}
    (hf : ∀ r, r.Moves pair sides amounts → (f r).Moves pair sides amounts) :
    AreOfCoins pair sides amounts (records.map f) := by
  unfold AreOfCoins at h ⊢
  split at h
  · rename_i hnone
    rw [if_pos hnone, h, List.map_nil]
  · rename_i hsome
    obtain ⟨r, rfl, hmoves⟩ := h
    rw [if_neg hsome]
    exact ⟨f r, rfl, hf r hmoves⟩

theorem eq_of_perm (h : AreOfCoins pair sides amounts records) (hperm : records'.Perm records) :
    records' = records := by
  unfold AreOfCoins at h
  split at h
  · subst h
    exact hperm.eq_nil
  · obtain ⟨r, rfl, -⟩ := h
    exact List.perm_singleton.1 hperm

theorem moves (h : AreOfCoins pair sides amounts records) {r : Record} (hr : r ∈ records) :
    sides ≠ [] ∧ r.Moves pair sides amounts := by
  unfold AreOfCoins at h
  split at h
  · subst h
    cases hr
  · rename_i hsome
    obtain ⟨r', rfl, hmoves⟩ := h
    obtain rfl := List.mem_singleton.1 hr
    exact ⟨hsome, hmoves⟩

end AreOfCoins

/-- The records that the sub-events of a provision are read to: the booking of the pair, the tokens
that are pulled, and the native coins that move in and out. -/
structure AreRecords (v : Provision) (p : Profile) (booking : Record)
    (tokens coins : List Record) : Prop where
  booking : booking.Moves v.pair Side.all fun side => v.booked p side
  tokens : ∀ t ∈ tokens, ∃ side ∈ v.tokenSides p,
    t.Moves v.pair [side] fun side => (v.offered side - v.refunded side : Nat)
  coins : ∃ incoming outgoing, coins.Perm (incoming ++ outgoing) ∧
    AreOfCoins v.pair (v.nativeSides p) (fun side => v.offered side) incoming ∧
    AreOfCoins v.pair (v.refundSides p) (fun side => -v.refunded side) outgoing

/-- Transfers of coins are read to their records. -/
theorem MovesCoins.read {sender recipient : String} {amounts : Side → Nat} {sides : List Side}
    {transfers : List BankTransfer} {party : Party}
    (h : v.MovesCoins sender recipient amounts sides transfers) (hv : v.IsSound registry)
    (hpair : party.pair = v.pair) (hparty : registry.party sender recipient = .ok (some party))
    (hsender : sender ≠ "") (hrecipient : recipient ≠ "")
    (hsize : ∀ side, Numeral.size (amounts side) ≤ Numeral.maxDigits) :
    ∃ records, List.Forall₂
      (fun t r => Gives (readBankTransfer 0 registry (p.readAttributes t)) (some r) [])
        transfers records ∧
        AreOfCoins v.pair sides (fun side => party.counted (amounts side)) records := by
  unfold MovesCoins at h
  unfold AreOfCoins
  split at h
  · rename_i hnone
    exact ⟨[], h ▸ .nil, if_pos hnone ▸ rfl⟩
  · rename_i hsome
    obtain ⟨coins, hlists, rfl⟩ := h
    obtain ⟨r, hr, hmoves⟩ :=
      hlists.read (p := p) (t := { sender, recipient, coins }) hsome hv hpair hparty
      hsender hrecipient hsize
    exact ⟨[r], .cons hr .nil, if_neg hsome ▸ ⟨r, rfl, hmoves⟩⟩

/-- The events of tokens are read to what was pulled. -/
theorem read_pulls (hp : (p.deployment.strategy height).Reconciles) (hv : v.IsSound registry)
    {sides : List Side} {pulls : List (List Attribute)}
    (h : List.Forall₂ (v.IsPull p height) sides pulls) :
    ∃ records, List.Forall₂ (fun m r => Gives ((p.tokenReader height).read registry m) (some r) [])
        pulls records ∧ ∀ t ∈ records, ∃ side ∈ sides,
          t.Moves v.pair [side] fun side => (v.offered side - v.refunded side : Nat) := by
  induction h with
  | nil => exact ⟨[], .nil, fun t ht => absurd ht List.not_mem_nil⟩
  | cons hpull _ ih =>
    obtain ⟨r, hr, hmoves⟩ := hpull.read hp hv
    obtain ⟨records, hrecords, hmem⟩ := ih
    refine ⟨r :: records, .cons hr hrecords,
      List.forall_mem_cons.2 ⟨⟨_, List.mem_cons_self, hmoves⟩, ?_⟩⟩
    intro t ht
    obtain ⟨side, hside, hmoves⟩ := hmem t ht
    exact ⟨side, List.mem_cons_of_mem _ hside, hmoves⟩

namespace IsLogged

variable (h : v.IsLogged p height tx) (hp : (p.deployment.strategy height).Reconciles)

include h

/-- No pair is created, and no share token is minted to one. -/
theorem creations_eq : p.creations tx tx.entries = .ok [] := by
  obtain ⟨provide, pulls, hprovide, hpulls, hevents⟩ := h.events
  have hnone : p.creationRule.findIn tx.entries = [] :=
    findIn_of_action hprovide hpulls hevents Action.createPair rfl
      (by simp [Profile.creationRule, Rule.creation]) (by decide)
  rw [Profile.creations, hnone]
  rfl

include hp

/-- **What the sub-events of a provision are read to.** -/
theorem reads (hv : v.IsSound registry) : ∃ booking tokens coins,
    p.Reads height registry tx.entries [booking] tokens coins ∧
    v.AreRecords p booking tokens coins := by
  obtain ⟨provide, pulls, hprovide, hpulls, hevents⟩ := h.events
  obtain ⟨incoming, outgoing, parts, hincoming, houtgoing, hparts, htransfers⟩ := h.transfers
  have hminted : (Rule.firstProvide registry.contracts).findIn tx.entries = [] :=
    findIn_of_action hprovide hpulls hevents Action.mint
      (congrArg EventType.name (Deployment.eventType_of_reconciles hp)).symm
      (by simp [Rule.firstProvide]) (by decide)
  -- The event of the pair.
  obtain ⟨booking, hbooking, hbooked⟩ := hprovide.read hp hv
  have hactions : List.Forall₂ (fun m r => (p.pairReader height).read registry m = .ok r)
      ((p.pairRule registry.contracts).findIn tx.entries) [booking] := by
    rw [findIn_pairRule hp hprovide hpulls hevents hv]
    exact .cons hbooking .nil
  -- The events of the tokens.
  obtain ⟨pulled, hpulled, hmoved⟩ := read_pulls hp hv hpulls
  obtain ⟨tokens, htokens, hperm⟩ :=
    List.perm_comp_forall₂ (findIn_tokenRule hp hprovide hpulls hevents) hpulled
  -- The transfers of coins.
  obtain ⟨paid, hpaid, hpaid_of⟩ :=
    hincoming.read (p := p) hv rfl hv.party_in hv.user_ne hv.contract_ne hv.size_le
  obtain ⟨returned, hreturned, hreturned_of⟩ :=
    houtgoing.read (p := p) hv rfl hv.party_out hv.contract_ne hv.user_ne hv.size_refunded_le
  have hboth : List.Forall₂ (fun m r => Gives (readBankTransfer 0 registry m) (some r) [])
      ((incoming ++ outgoing).map p.readAttributes) (paid ++ returned) :=
    List.forall₂_map_left_iff.2 (List.rel_append hpaid hreturned)
  obtain ⟨coins, hcoins, hperm'⟩ :=
    List.perm_comp_forall₂ (Profile.findIn_bankTransfers htransfers hparts) hboth
  exact ⟨booking, tokens, coins, ⟨hactions, hminted, htokens, hcoins⟩, hbooked,
    fun t ht => hmoved t (hperm.mem_iff.1 ht), paid, returned, hperm', hpaid_of, hreturned_of⟩

end IsLogged

/-! ## What is left out -/

theorem mem_tokenSides {side : Side} :
    side ∈ v.tokenSides p ↔ p.isToken (v.pair.asset side) = true := by
  simp [tokenSides, side.mem_all]

theorem mem_nativeSides {side : Side} :
    side ∈ v.nativeSides p ↔ p.isToken (v.pair.asset side) = false := by
  simp [nativeSides, side.mem_all]

theorem mem_refundSides {side : Side} :
    side ∈ v.refundSides p ↔ p.isToken (v.pair.asset side) = false ∧ 0 < v.refunded side := by
  simp [refundSides, mem_nativeSides]

theorem booked_of_token {side : Side} (h : p.isToken (v.pair.asset side) = true) :
    v.booked p side = v.offered side - v.refunded side :=
  if_pos h

theorem booked_of_native {side : Side} (h : p.isToken (v.pair.asset side) = false) :
    v.booked p side = v.offered side := by
  rw [booked, h, if_neg Bool.false_ne_true]

theorem booked_le (v : Provision) (p : Profile) (side : Side) :
    v.booked p side ≤ v.offered side := by
  unfold booked
  split
  · exact Nat.sub_le _ _
  · exact le_rfl

/-- **The native coins that are given back make up for what is booked in full.** -/
theorem booked_add_returned (hv : v.IsSound registry) (side : Side) :
    (v.booked p side : Int) + (if side ∈ v.refundSides p then -(v.refunded side : Int) else 0) =
      v.offered side - v.refunded side := by
  have hle := hv.refunded_le side
  cases htoken : p.isToken (v.pair.asset side) with
  | true =>
    have hnot : side ∉ v.refundSides p := by simp [mem_refundSides, htoken]
    rw [if_neg hnot, booked_of_token htoken]
    omega
  | false =>
    rw [booked_of_native htoken]
    by_cases hpos : 0 < v.refunded side
    · rw [if_pos (mem_refundSides.2 ⟨htoken, hpos⟩)]
      omega
    · have hnot : side ∉ v.refundSides p := fun h => hpos (mem_refundSides.1 h).2
      rw [if_neg hnot]
      omega

namespace AreRecords

variable {booking : Record} {tokens coins : List Record}

theorem stamped (h : v.AreRecords p booking tokens coins) (tx : RawTx) :
    v.AreRecords p (booking.stamped tx) (tokens.map (·.stamped tx)) (coins.map (·.stamped tx)) where
  booking := h.booking.stamped tx
  tokens := by
    refine List.forall_mem_map.2 fun t ht => ?_
    obtain ⟨side, hside, hmoves⟩ := h.tokens t ht
    exact ⟨side, hside, hmoves.stamped tx⟩
  coins := by
    obtain ⟨incoming, outgoing, hperm, hin, hout⟩ := h.coins
    refine ⟨incoming.map (·.stamped tx), outgoing.map (·.stamped tx), ?_,
      hin.map fun _ h => h.stamped tx, hout.map fun _ h => h.stamped tx⟩
    rw [← List.map_append]
    exact hperm.map _

theorem with_sender (h : v.AreRecords p booking tokens coins) (sender : String) :
    v.AreRecords p { booking with sender } tokens coins :=
  ⟨h.booking.with_sender sender, h.tokens, h.coins⟩

variable (h : v.AreRecords p booking tokens coins)

include h

/-- The booking of the pair accounts for the tokens that were pulled. -/
theorem withoutDuplicates_tokens (hhash : ∀ t ∈ tokens, booking.hash = t.hash) :
    withoutDuplicates [booking] tokens = [] := by
  refine List.filter_eq_nil_iff.2 fun t ht => ?_
  obtain ⟨side, hside, hmoves⟩ := h.tokens t ht
  have hbooked := booked_of_token (mem_tokenSides.1 hside)
  have haccounts : booking.accountsFor t = true :=
    (h.booking.accountsFor_iff hmoves (hhash t ht)).2
    ⟨side, List.mem_singleton.2 rfl, by rw [hbooked]⟩
  simp [haccounts]

/-- The booking of the pair accounts for the native coins on their way in, and not
for those given back. -/
theorem withoutDuplicates_coins (hhash : ∀ t ∈ coins, booking.hash = t.hash) :
    AreOfCoins v.pair (v.refundSides p) (fun side => -v.refunded side)
      (withoutDuplicates [booking] coins) := by
  obtain ⟨incoming, outgoing, hperm, hin, hout⟩ := h.coins
  -- What comes in is covered by the booking, side by side.
  have hincoming : withoutDuplicates [booking] incoming = [] := by
    refine List.filter_eq_nil_iff.2 fun t ht => ?_
    obtain ⟨hne, hmoves⟩ := hin.moves ht
    obtain ⟨side, hside⟩ := List.exists_mem_of_ne_nil _ hne
    have hbooked := booked_of_native (mem_nativeSides.1 hside)
    have hsame := hhash t (hperm.mem_iff.2 (List.mem_append_left _ ht))
    have haccounts : booking.accountsFor t = true :=
      (h.booking.accountsFor_iff hmoves hsame).2 ⟨side, hside, by rw [hbooked]⟩
    simp [haccounts]
  -- What goes out has the other sign, so no leg of the booking equals it.
  have houtgoing : withoutDuplicates [booking] outgoing = outgoing := by
    refine List.filter_eq_self.2 fun t ht => ?_
    obtain ⟨-, hmoves⟩ := hout.moves ht
    have hsame := hhash t (hperm.mem_iff.2 (List.mem_append_right _ ht))
    have hnot : ¬booking.accountsFor t = true := by
      rw [h.booking.accountsFor_iff hmoves hsame]
      rintro ⟨side, hside, heq⟩
      have hpos := (mem_refundSides.1 hside).2
      omega
    simp [hnot]
  have hkept : (withoutDuplicates [booking] coins).Perm outgoing := by
    have hfilter : (withoutDuplicates [booking] coins).Perm
        (withoutDuplicates [booking] (incoming ++ outgoing)) :=
      hperm.filter _
    have hsplit : withoutDuplicates [booking] (incoming ++ outgoing) = outgoing := by
      rw [withoutDuplicates, List.filter_append]
      show withoutDuplicates [booking] incoming ++ withoutDuplicates [booking] outgoing = outgoing
      rw [hincoming, houtgoing, List.nil_append]
    rwa [hsplit] at hfilter
  rwa [hout.eq_of_perm hkept]

end AreRecords

theorem AreOfCoins.totalOn_eq {pair : Pair} {sides : List Side} {amounts : Side → Int}
    {records : List Record} (h : AreOfCoins pair sides amounts records)
    (hsize : ∀ side, Numeral.size (amounts side).natAbs ≤ Numeral.maxDigits) (side : Side) :
    totalOn side records = .ok (if side ∈ sides then amounts side else 0) := by
  unfold AreOfCoins at h
  split at h
  · subst h
    rename_i hnone
    rw [hnone, if_neg List.not_mem_nil]
    rfl
  · obtain ⟨r, rfl, hmoves⟩ := h
    rw [totalOn_cons (hmoves.amountOn_eq hsize side) rfl, Int.add_zero]

end Provision

/-! ## The net effect -/

/-- **A provision adds up to what was offered less what was refunded**, on either side, whatever the
assets are and however its events are listed. Nothing fails, no pair is created or flagged, and all
records are of the pair, with their legs in its order. -/
theorem Profile.extract_provision (p : Profile) (height : Int) (known : Knowledge) (v : Provision)
    (tx : RawTx) (hp : (p.deployment.strategy height).Reconciles) (hv : v.IsSound known.registry)
    (htx : v.IsLogged p height tx) :
    ∃ records, p.extract height tx known = (.ok records, known) ∧
      (∀ r ∈ records, r.contract = v.pair.contract ∧ r.legs.InOrderOf v.pair) ∧
      ∀ side, totalOn side records = .ok (v.offered side - v.refunded side) := by
  obtain ⟨booking, tokens, coins, hreads, hrecords⟩ := htx.reads hp hv
  have hfound := (hreads.gives_allFindings : Gives (p.allFindings height known.registry tx _) _ _)
    known.flags
  have hrecords := (hrecords.stamped tx).with_sender tx.sender
  -- All tokens that were pulled are covered, and of the coins all but those given back.
  have hpulled := hrecords.withoutDuplicates_tokens (List.forall_mem_map.2 fun _ _ => rfl)
  have hreturned := hrecords.withoutDuplicates_coins (List.forall_mem_map.2 fun _ _ => rfl)
  generalize hout : withoutDuplicates [{ booking.stamped tx with sender := tx.sender }]
    (coins.map (·.stamped tx)) = outgoing at hreturned
  have hextract : p.extract height tx known =
      (.ok ({ booking.stamped tx with sender := tx.sender } :: outgoing), known) := by
    have hregistry : known.registry.afterCreations [] = known.registry := rfl
    simp only [extract, htx.creations_eq, hregistry, hfound]
    simp [Findings.records, hpulled, hout, Except.map, Flags.addAll]
  refine ⟨_, hextract,
    List.forall_mem_cons.2
      ⟨⟨hrecords.booking.contract, hrecords.booking.inOrderOf⟩, fun r hr => ?_⟩, fun side => ?_⟩
  · have hmoves := (hreturned.moves hr).2
    exact ⟨hmoves.contract, hmoves.inOrderOf⟩
  · -- Booked and returned together come to the offer less the refund.
    have hbooked := hrecords.booking.amountOn_eq
      (fun side => Numeral.size_le_of_le (v.booked_le p side) (hv.size_le side)) side
    have hrest := hreturned.totalOn_eq
      (fun side => by simpa using hv.size_refunded_le side) side
    rw [if_pos side.mem_all] at hbooked
    rw [totalOn_cons hbooked hrest, Provision.booked_add_returned hv side]

/-! A provision of a token and a native coin, each of which is refunded in part. -/

def dezswapProfile : Profile where
  deployment := .dezswap .mainnet
  chainId := "dimension_37-1"
  factory := "xpla1maker"
  factory_ne := by decide

def refundedProvision : Provision where
  pair := {
    contract := "xpla1pair", share := "xpla1share", first := "xpla1token", second := "axpla" }
  user := "xpla1user"
  offered _ := 1000
  refunded
    | .first => 30
    | .second => 40

def refundedKnowledge : Knowledge where
  registry := .ofList [refundedProvision.pair]

/-- The attributes of the event of the pair, sorted differently than the fields are listed. -/
def refundedProvideAttributes : List Attribute :=
  [⟨"_contract_address", "xpla1pair"⟩, ⟨"action", "provide_liquidity"⟩, ⟨"sender", "xpla1user"⟩,
    ⟨"receiver", "xpla1user"⟩, ⟨"assets", "1000xpla1token, 1000axpla"⟩, ⟨"share", "141"⟩,
    ⟨"refund_assets", "40axpla, 30xpla1token"⟩]

def refundedPullAttributes : List Attribute :=
  [⟨"_contract_address", "xpla1token"⟩, ⟨"action", "transfer_from"⟩, ⟨"from", "xpla1user"⟩,
    ⟨"to", "xpla1pair"⟩, ⟨"by", "xpla1pair"⟩, ⟨"amount", "970"⟩]

def paidCoins : BankTransfer where
  sender := "xpla1user"
  recipient := "xpla1pair"
  coins := "1000axpla"

def returnedCoins : BankTransfer where
  sender := "xpla1pair"
  recipient := "xpla1user"
  coins := "40axpla"

def refundedTx : RawTx where
  hash := "A1"
  sender := "xpla1user"
  entries := [
    { kind := "transfer", attributes := returnedCoins.attributes ++ paidCoins.attributes },
    { kind := "wasm", attributes := refundedPullAttributes ++ refundedProvideAttributes }]

theorem isSound_refundedProvision : refundedProvision.IsSound refundedKnowledge.registry where
  registered := by decide +kernel
  contract_ne := by decide
  user_ne := by decide
  unregistered := by decide +kernel
  distinct := by decide
  names
    | .first => ⟨by decide, fun _ hc => Option.some.inj hc ▸ by decide,
      fun _ hc => Option.some.inj hc ▸ by decide, by decide⟩
    | .second => ⟨by decide, fun _ hc => Option.some.inj hc ▸ by decide,
      fun _ hc => Option.some.inj hc ▸ by decide, by decide⟩
  refunded_le
    | .first => by decide
    | .second => by decide
  size_le _ := show Numeral.size 1000 ≤ Numeral.maxDigits by decide

theorem isLogged_refundedProvision :
    refundedProvision.IsLogged dezswapProfile 3166247 refundedTx where
  events := by
    refine ⟨refundedProvideAttributes, [refundedPullAttributes], ?_, ?_, ?_⟩
    · refine ⟨"1000xpla1token, 1000axpla", "40axpla, 30xpla1token", "xpla1user", "xpla1user", "141",
        ?_, ?_, by decide, by decide, by decide, [], _, by decide, nofun, ?_, rfl⟩
      · exact ⟨[.first, .second], .refl _, ["1000xpla1token".toList, " 1000axpla".toList],
          .cons ⟨[], [], nofun, nofun, by decide⟩
            (.cons ⟨[' '], [], List.forall_mem_singleton.2 (by decide), nofun, by decide⟩ .nil),
            by decide⟩
      · exact ⟨[.second, .first], .swap _ _ _, ["40axpla".toList, " 30xpla1token".toList],
          .cons ⟨[], [], nofun, nofun, by decide⟩
            (.cons ⟨[' '], [], List.forall_mem_singleton.2 (by decide), nofun, by decide⟩ .nil),
            by decide⟩
      · decide
    · have hsides : refundedProvision.tokenSides dezswapProfile = [.first] := by decide
      rw [hsides]
      exact .cons ⟨"xpla1pair", by decide, [], _, by decide, nofun, by decide, rfl⟩ .nil
    · exact ⟨[[refundedPullAttributes, refundedProvideAttributes]], by decide, .swap _ _ _⟩
  transfers := by
    have hin : refundedProvision.nativeSides dezswapProfile = [.second] := by decide
    have hout : refundedProvision.refundSides dezswapProfile = [.second] := by decide
    rw [hin, hout]
    refine ⟨[paidCoins], [returnedCoins], [paidCoins.attributes, returnedCoins.attributes],
      ⟨"1000axpla", ?_, rfl⟩, ⟨"40axpla", ?_, rfl⟩,
      .cons ⟨[], rfl, nofun⟩ (.cons ⟨[], rfl, nofun⟩ .nil),
      [[returnedCoins.attributes, paidCoins.attributes]], by decide, .swap _ _ _⟩
    · exact ⟨[.second], .refl _, ["1000axpla".toList], .cons ⟨[], [], nofun, nofun, by decide⟩ .nil,
        by decide⟩
    · exact ⟨[.second], .refl _, ["40axpla".toList], .cons ⟨[], [], nofun, nofun, by decide⟩ .nil,
        by decide⟩

theorem extract_refundedTx : ∃ records,
    dezswapProfile.extract 3166247 refundedTx refundedKnowledge = (.ok records, refundedKnowledge) ∧
      records.map (·.kind) = [.provide, .transfer] ∧
      totalOn .first records = .ok 970 ∧ totalOn .second records = .ok 960 := by
  obtain ⟨records, hextract, -, htotal⟩ :=
    dezswapProfile.extract_provision 3166247 refundedKnowledge
    refundedProvision refundedTx (by decide) isSound_refundedProvision isLogged_refundedProvision
  have hkinds : (dezswapProfile.extract 3166247 refundedTx refundedKnowledge).1.map
      (·.map (·.kind)) =
      .ok [.provide, .transfer] := by decide +kernel
  rw [hextract] at hkinds
  exact ⟨records, hextract, Except.ok.inj hkinds, htotal .first, htotal .second⟩

end PoolLedger
