import PoolLedger.Proofs.Origin
import PoolLedger.Proofs.Unrelated

/-!
# The order of the legs

The legs of a record stand in the order of the assets of its pair (`Legs.InOrderOf`), which is what
makes the first amounts of its records amounts of one asset. Swaps and transfers take the addresses
of their legs from the pair. Provisions and withdrawals take them from the event, which lists two
assets (`Origin.listed?`), and only put them in order: the legs change places unless the first is
the first asset of the pair. So they stand in the order of the pair exactly when the event lists the
assets of the pair (`orderBy_inOrderOf_iff`).

The main result, `inOrderOf_iff_listed`, says this of all records of a transaction.
-/

namespace PoolLedger

/-- The legs are of the assets of the pair, in its order. -/
def Legs.InOrderOf (l : Legs) (pair : Pair) : Prop :=
  l.first.addr = pair.first ∧ l.second.addr = pair.second

/-- The legs are of the assets of the pair, in either order. -/
def Legs.AreOf (l : Legs) (pair : Pair) : Prop :=
  l.first.addr = pair.first ∧ l.second.addr = pair.second ∨
    l.first.addr = pair.second ∧ l.second.addr = pair.first

instance (l : Legs) (pair : Pair) : Decidable (l.InOrderOf pair) :=
  inferInstanceAs (Decidable (_ ∧ _))

instance (l : Legs) (pair : Pair) : Decidable (l.AreOf pair) :=
  inferInstanceAs (Decidable (_ ∨ _))

/-- **Two legs can be put into the order of a pair exactly when they are of its assets.** -/
theorem Legs.orderBy_inOrderOf_iff {l : Legs} {pair : Pair} :
    (l.orderBy pair.first).InOrderOf pair ↔ l.AreOf pair := by
  unfold orderBy InOrderOf AreOf
  split
  · rename_i hfirst
    constructor
    · exact .inl
    · rintro (h | ⟨hsecond, hother⟩)
      · exact h
      · exact ⟨hfirst, hother.trans (hfirst.symm.trans hsecond)⟩
  · rename_i hfirst
    constructor
    · exact fun ⟨hsecond, hother⟩ => .inr ⟨hother, hsecond⟩
    · rintro (h | ⟨hother, hsecond⟩)
      · exact absurd h.1 hfirst
      · exact ⟨hsecond, hother⟩

/-! ## What an event lists -/

/-- The two coins that a text lists, if there is a text and it lists two. -/
def listedCoins? (text? : Option String) : Option Legs :=
  text?.bind fun text => (Asset.ofCoinPair text).toOption

/-- The assets that the event of a provision or a withdrawal lists. Other events list none. -/
def Origin.listed? : Origin → Option Legs
  | action accepted =>
    if accepted.action = Action.provide then listedCoins? (accepted.fields.get? "assets")
    else if accepted.action = Action.withdraw then
      listedCoins? (accepted.fields.get? "refund_assets")
    else none
  | _ => none

/-- Two assets are listed, and the legs stand in the order of the pair exactly when the assets
are those of the pair. -/
def Legs.FollowsList (l : Legs) (pair : Pair) (listed? : Option Legs) : Prop :=
  ∃ listed, listed? = some listed ∧ (l.InOrderOf pair ↔ listed.AreOf pair)

theorem PairReader.get?_accepted {reader : PairReader} {registry : Registry}
    {attrs : List Attribute} {accepted : PairAction}
    (h : reader.accept registry attrs = .ok accepted) :
    registry.get? accepted.pair.contract = some accepted.pair := by
  obtain ⟨contract, hget⟩ := accept_eq_ok h
  exact Registry.get?_contract hget

/-! ## The actions of a pair -/

namespace Strategy

variable {s : Strategy} {fields : Fields} {pair : Pair} {r : Record}

theorem plainSwap_inOrderOf (h : plainSwap fields pair = .ok r) : r.legs.InOrderOf pair := by
  obtain ⟨offered, _, _, inflow, _, outflow, _, -, -, -, -, -, -, -, rfl⟩ := plainSwap_eq_ok h
  show (swapLegs pair _ inflow outflow).InOrderOf pair
  unfold swapLegs
  split
  · exact ⟨rfl, rfl⟩
  · exact ⟨rfl, rfl⟩

/-- A swap is of the assets of the pair, whatever the event calls them. -/
theorem swap_inOrderOf (h : s.swap fields pair = .ok r) : r.legs.InOrderOf pair := by
  obtain h | ⟨plain, _, _, _, _, _, _, hplain, -, -, -, -, -, -, rfl⟩ := exists_of_swap h
  · exact plainSwap_inOrderOf h
  · obtain ⟨hfirst, hsecond⟩ := plainSwap_inOrderOf hplain
    split
    · exact ⟨rfl, hsecond⟩
    · exact ⟨hfirst, rfl⟩

theorem addr_of_netLeg {tokenPrefix : String} {provided refunded leg : Asset}
    (h : netLeg tokenPrefix provided refunded = .ok leg) : leg.addr = provided.addr := by
  obtain ⟨-, _, -, rfl⟩ | ⟨-, rfl⟩ := exists_of_netLeg h
  · rfl
  · rfl

theorem listedCoins?_of_ofCoinPair {text : String} {listed : Legs}
    (h : Asset.ofCoinPair text = .ok listed) :
    listedCoins? (some text) = some listed := by
  rw [listedCoins?, Option.bind_some, h]
  rfl

theorem plainProvide_follows (h : plainProvide fields pair = .ok r) :
    r.legs.FollowsList pair (listedCoins? (fields.get? "assets")) := by
  obtain ⟨text, provided, _, htext, hprovided, -, rfl⟩ := plainProvide_eq_ok h
  exact ⟨provided, htext ▸ listedCoins?_of_ofCoinPair hprovided, Legs.orderBy_inOrderOf_iff⟩

/-- A refund changes amounts only. -/
theorem refundedProvide_follows {tokenPrefix : String}
    (h : refundedProvide tokenPrefix fields pair = .ok r) :
    r.legs.FollowsList pair (listedCoins? (fields.get? "assets")) := by
  obtain ⟨text, provided, _, refunded, first, second, _, htext, hprovided, -, -, hfirst, hsecond, -,
    rfl⟩ :=
    refundedProvide_eq_ok h
  refine ⟨provided, htext ▸ listedCoins?_of_ofCoinPair hprovided, ?_⟩
  rw [← Legs.orderBy_inOrderOf_iff, Legs.InOrderOf, Legs.InOrderOf, addr_of_netLeg hfirst,
    addr_of_netLeg hsecond]

theorem provide_follows (h : s.provide fields pair = .ok r) :
    r.legs.FollowsList pair (listedCoins? (fields.get? "assets")) := by
  obtain h | ⟨_, h⟩ := exists_of_provide h
  · exact plainProvide_follows h
  · exact refundedProvide_follows h

theorem withdraw_follows (h : s.withdraw fields pair = .ok r) :
    r.legs.FollowsList pair (listedCoins? (fields.get? "refund_assets")) := by
  obtain ⟨text, legs, _, htext, hlegs, -, rfl⟩ := withdraw_eq_ok h
  simp only [withdrawnLegs, bind_eq_ok, pure_eq_ok] at hlegs
  obtain ⟨listed, hlisted, first, -, second, -, rfl⟩ := hlegs
  -- What is put in order differs from what is listed in its amounts only.
  exact ⟨listed, htext ▸ listedCoins?_of_ofCoinPair hlisted, Legs.orderBy_inOrderOf_iff⟩

end Strategy

/-! ## Whole transactions -/

namespace Profile

variable {p : Profile} {height : Int} {registry : Registry} {tx : RawTx} {o : Origin} {r : Record}
  {pair : Pair}

/-- The legs of swaps and transfers are made from the pair. -/
theorem Yields.inOrderOf (h : p.Yields height registry tx o r)
    (hkind : r.kind = .swap ∨ r.kind = .transfer) (hpair : registry.get? r.contract = some pair) :
    r.legs.InOrderOf pair := by
  have hkinds := h.kind_mem
  cases h with
  | creation | firstProvide => exact absurd (List.mem_singleton.1 hkinds ▸ hkind) (by decide)
  | @action _ accepted r _ haccept hhandle =>
    obtain ⟨hcontract, hcases⟩ := Strategy.handle_eq_ok hhandle
    have hpair : registry.get? r.contract = some pair := hpair
    -- The record is booked to the pair that was looked up.
    rw [hcontract, PairReader.get?_accepted haccept] at hpair
    obtain rfl := Option.some.inj hpair
    have hkind : r.kind = .swap ∨ r.kind = .transfer := hkind
    rcases hcases with ⟨-, hswap, -⟩ | ⟨-, -, hk⟩ | ⟨-, -, hk⟩
    · show r.legs.InOrderOf _
      exact Strategy.swap_inOrderOf hswap
    · exact absurd hkind (by simp [hk])
    · exact absurd hkind (by simp [hk])
  | @transfer _ _ party _ _ _ r _ hparty hrecord =>
    have hpair : registry.get? r.contract = some pair := hpair
    rw [(Party.record_eq_ok hrecord).2.1,
      Registry.get?_contract (Registry.party_eq_some hparty).1] at hpair
    obtain rfl := Option.some.inj hpair
    exact (Party.record_addrs hrecord).2

/-- The legs of provisions and withdrawals are made from what the event lists. -/
theorem Yields.followsList (h : p.Yields height registry tx o r)
    (hkind : r.kind = .provide ∨ r.kind = .withdraw)
    (hpair : registry.get? r.contract = some pair) :
    r.legs.FollowsList pair o.listed? := by
  have hkinds := h.kind_mem
  cases h with
  | creation | firstProvide | transfer =>
    exact absurd (List.mem_singleton.1 hkinds ▸ hkind) (by decide)
  | @action _ accepted r _ haccept hhandle =>
    obtain ⟨hcontract, hcases⟩ := Strategy.handle_eq_ok hhandle
    have hpair : registry.get? r.contract = some pair := hpair
    rw [hcontract, PairReader.get?_accepted haccept] at hpair
    obtain rfl := Option.some.inj hpair
    have hkind : r.kind = .provide ∨ r.kind = .withdraw := hkind
    rcases hcases with ⟨-, -, hk⟩ | ⟨haction, hprovide, -⟩ | ⟨haction, hwithdraw, -⟩
    · exact absurd hkind (by simp [hk])
    · rw [Origin.listed?, if_pos haction]
      show r.legs.FollowsList _ _
      exact Strategy.provide_follows hprovide
    · rw [Origin.listed?, if_neg (haction ▸ by decide), if_pos haction]
      show r.legs.FollowsList _ _
      exact Strategy.withdraw_follows hwithdraw

variable {known known' : Knowledge} {records : List Record}

/-- **The legs of a record stand in the order of its pair, unless its event lists other assets.**
Swaps and transfers are always in order. Provisions and withdrawals are exactly when the assets of
the pair are what their event lists. -/
theorem inOrderOf_iff_listed (h : p.extract height tx known = (.ok records, known'))
    (hr : r ∈ records) :
    ∃ pair, known'.registry.get? r.contract = some pair ∧
      (r.kind = .swap ∨ r.kind = .transfer → r.legs.InOrderOf pair) ∧
      (∃ o, p.Yields height known'.registry tx o r) ∧
      ∀ o, p.Yields height known'.registry tx o r → r.kind = .provide ∨ r.kind = .withdraw →
        ∃ listed, o.listed? = some listed ∧ (r.legs.InOrderOf pair ↔ listed.AreOf pair) := by
  obtain ⟨o, hy⟩ := yields_of_extract h hr
  cases hpair : known'.registry.get? r.contract with
  | none => exact absurd (contract_mem_of_extract h hr) (Registry.get?_eq_none.1 hpair)
  | some pair =>
    exact ⟨pair, rfl, fun hkind => hy.inOrderOf hkind hpair, ⟨o, hy⟩,
      fun _ hy hkind => hy.followsList hkind hpair⟩

end Profile

/-! A provision, with different texts of what is provided. -/

/-- The pair that is known in `onePair`. -/
def lunaPair : Pair where
  contract := "terra1pair"
  share := "terra1share"
  first := "uluna"
  second := "terra1token"

def provideAttributes (assets : String) : List Attribute :=
  [⟨"_contract_address", "terra1pair"⟩, ⟨"action", "provide_liquidity"⟩, ⟨"sender", "terra1user"⟩,
    ⟨"receiver", "terra1user"⟩, ⟨"assets", assets⟩, ⟨"share", "141"⟩]

def provideTx (assets : String) : RawTx where
  hash := "A1"
  sender := "terra1user"
  entries := [{ kind := "wasm", attributes := provideAttributes assets }]

def provideAction (assets : String) : PairAction where
  pair := lunaPair
  action := Action.provide
  fields := (provideAttributes assets).map fun a => (a.key, a.value)

/-- The record of the provision. -/
def provideRecord (legs : Legs) : Record where
  kind := .provide
  hash := "A1"
  sender := "terra1user"
  contract := "terra1pair"
  legs
  share := "terra1share"
  shareAmount := "141"

/-- The assets of the pair, listed the other way round. -/
def reversedAssets : String := "200terra1token, 100uluna"

def reversedLegs : Legs where
  first := { addr := "uluna", amount := "100" }
  second := { addr := "terra1token", amount := "200" }

theorem reversed_assets_in_order :
    phoenixProfile.extract 1 (provideTx reversedAssets) onePair =
        (.ok [provideRecord reversedLegs], onePair) ∧
      phoenixProfile.Yields 1 onePair.registry (provideTx reversedAssets)
        (.action (provideAction reversedAssets)) (provideRecord reversedLegs) ∧
      ∃ listed, (Origin.action (provideAction reversedAssets)).listed? = some listed ∧
        ¬listed.InOrderOf lunaPair ∧ reversedLegs.InOrderOf lunaPair := by
  have hextract : phoenixProfile.extract 1 (provideTx reversedAssets) onePair =
      (.ok [provideRecord reversedLegs], onePair) := by decide +kernel
  have hfound : provideAttributes reversedAssets ∈
      (phoenixProfile.pairRule onePair.registry.contracts).findIn
      (provideTx reversedAssets).entries := by
    decide +kernel
  have haccept : (phoenixProfile.pairReader 1).accept onePair.registry
      (provideAttributes reversedAssets) =
      .ok (provideAction reversedAssets) := by decide +kernel
  have hhandle : (phoenixProfile.deployment.strategy 1).handle Action.provide
      (provideAction reversedAssets).fields lunaPair =
        .ok { provideRecord reversedLegs with hash := "" } := by decide +kernel
  have hyields : phoenixProfile.Yields 1 onePair.registry (provideTx reversedAssets)
      (.action (provideAction reversedAssets)) (provideRecord reversedLegs) :=
    .action hfound haccept hhandle
  have hlisted : (Origin.action (provideAction reversedAssets)).listed? = some
      { first := { addr := "terra1token", amount := "200" }
        second := { addr := "uluna", amount := "100" } } := by decide +kernel
  obtain ⟨pair, hpair, -, -, hfollows⟩ := Profile.inOrderOf_iff_listed hextract List.mem_cons_self
  obtain rfl : lunaPair = pair := Option.some.inj (Eq.trans (by decide) hpair)
  obtain ⟨listed, hsame, hiff⟩ := hfollows _ hyields (.inl rfl)
  obtain rfl := Option.some.inj (hlisted.symm.trans hsame)
  exact ⟨hextract, hyields, _, hlisted, by decide, hiff.2 (by decide)⟩

/-- **A provision of an asset that the pair does not hold is recorded as one of its second
asset.** -/
theorem strange_asset_recorded :
    (phoenixProfile.extract 1 (provideTx "100uluna, 200ufoo") onePair).1 = .ok [provideRecord {
      first := { addr := "uluna", amount := "100" }
      second := { addr := "ufoo", amount := "200" } }] ∧
      onePair.registry.get? "terra1pair" = some lunaPair ∧
      ¬Legs.InOrderOf {
        first := { addr := "uluna", amount := "100" }
        second := { addr := "ufoo", amount := "200" } } lunaPair :=
  ⟨by decide +kernel, by decide, by decide⟩

end PoolLedger
