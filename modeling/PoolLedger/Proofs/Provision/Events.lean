import PoolLedger.Proofs.Coins
import PoolLedger.Proofs.Failures
import PoolLedger.Proofs.SubEvents
import PoolLedger.Proofs.Touched

/-!
# What a provision logs

A provision with refunds (`Provision`) logs one event of the pair, one event of each token that is
pulled, and at most two bank transfers: the native coins on their way in, and those given back.
Tokens are pulled net of the refund, native coins are given back afterwards.

Each of these is stated as a relation between the provision and the attributes of a sub-event, as
the chain writes them (`IsProvide`, `IsPull`, `MovesCoins`), and what it is read to is a record with
known amounts on known sides (`Record.Moves`).
-/

namespace PoolLedger

/-! ## Provisions -/

def Side.all : List Side := [.first, .second]

theorem Side.mem_all (side : Side) : side ∈ Side.all := by
  cases side <;> decide

/-- The address of the asset on a side. -/
def Pair.asset (p : Pair) : Side → String
  | .first => p.first
  | .second => p.second

/-- A provision of which a part is given back. -/
structure Provision where
  pair : Pair
  user : String
  /-- How much of each asset the user offers. -/
  offered : Side → Nat
  /-- How much of it is given back, or not pulled in the first place. -/
  refunded : Side → Nat

namespace Provision

/-- The pair is registered and has two assets, the user is no pair, no more is given back than was
offered, and nothing is too long to be written. -/
structure IsSound (v : Provision) (registry : Registry) : Prop where
  registered : registry.get? v.pair.contract = some v.pair
  contract_ne : v.pair.contract ≠ ""
  user_ne : v.user ≠ ""
  unregistered : registry.get? v.user = none
  distinct : v.pair.first ≠ v.pair.second
  names : ∀ side, Asset.IsName (v.pair.asset side)
  refunded_le : ∀ side, v.refunded side ≤ v.offered side
  size_le : ∀ side, Numeral.size (v.offered side) ≤ Numeral.maxDigits

/-- The text lists the given amounts of the assets on some sides, in any order. -/
def Lists (v : Provision) (amounts : Side → Nat) (sides : List Side) (text : String) : Prop :=
  ∃ order : List Side, order.Perm sides ∧
    Asset.ListedIn (order.map fun side => .ofNat (v.pair.asset side) (amounts side)) text

end Provision

/-! ## The deployments that reconcile refunds -/

/-- Provisions may be refunded in part, and the refund of tokens is taken off. -/
def Strategy.Reconciles : Strategy → Prop
  | reconciling _ | taxedReconciling _ => True
  | _ => False

instance (s : Strategy) : Decidable s.Reconciles :=
  match s with
  | .reconciling _ | .taxedReconciling _ => .isTrue trivial
  | .plain | .feeDeducting => .isFalse id

namespace Deployment

/-- **Refunds are reconciled on columbus-5, and elsewhere by upgraded pairs.** -/
theorem reconciles_iff {d : Deployment} {height : Int} :
    (d.strategy height).Reconciles ↔ d = columbusFive ∨ d.isUpgraded? height = some true := by
  cases d with
  | dezswap network | starfleit network =>
    simp only [strategy, reduceCtorEq, false_or]
    split <;> simp_all [Strategy.Reconciles]
  | phoenix | columbusFour | columbusFive =>
    simp [strategy, Strategy.Reconciles, isUpgraded?, upgradeHeight?]

variable {d : Deployment} {height : Int} (h : (d.strategy height).Reconciles)

include h

theorem contractKey_of_reconciles : d.contractKey = PoolLedger.contractKey := by
  cases d with
  | columbusFour => exact absurd h id
  | _ => rfl

theorem eventType_of_reconciles : d.eventType = .wasm := by
  cases d with
  | columbusFour => exact absurd h id
  | _ => rfl

theorem contractKey_pairLayout_of_reconciles :
    (d.pairLayout height).contractKey = PoolLedger.contractKey := by
  cases d with
  | columbusFour => exact absurd h id
  | dezswap network | starfleit network =>
    simp only [pairLayout]
    split <;> rfl
  | _ => rfl

/-- The layout asks for fields of a provision with refunds only, and for as many as there are. -/
theorem pairLayout_of_reconciles :
    ∃ required, (d.pairLayout height).required? Action.provide = some required ∧
      (∀ key ∈ required, key ∈ Layout.refundingProvideFields) ∧
      ∀ present, "refund_assets" ∈ present →
        (d.pairLayout height).expectedLength Action.provide present =
        .ok (2 + Layout.refundingProvideFields.length) := by
  rcases reconciles_iff.1 h with rfl | hupgraded
  · refine ⟨Layout.provideFields, rfl, by decide, fun present hmem => ?_⟩
    have hoptional : ["refund_assets"].filter (present.contains ·) = ["refund_assets"] := by
      simpa using hmem
    show Except.ok (2 + Layout.provideFields.length +
      (["refund_assets"].filter (present.contains ·)).length) = _
    rw [hoptional]
    rfl
  · cases d with
    | dezswap network | starfleit network =>
      simp only [pairLayout, if_pos hupgraded]
      exact ⟨Layout.refundingProvideFields, rfl, by decide, fun _ _ => rfl⟩
    | phoenix | columbusFour | columbusFive => cases hupgraded

theorem provide_of_reconciles {fields : Fields} (hfields : fields.has "refund_assets")
    (pair : Pair) :
    (d.strategy height).handle Action.provide fields pair =
      Strategy.refundedProvide d.tokenPrefix fields pair := by
  show (d.strategy height).provide fields pair = _
  rcases reconciles_iff.1 h with rfl | hupgraded
  · exact if_pos hfields
  · cases d with
    | dezswap network | starfleit network =>
      simp only [strategy, if_pos hupgraded]
      rfl
    | phoenix | columbusFour | columbusFive => cases hupgraded

end Deployment

/-! ## Events of contracts -/

/-- The attributes of an event of a contract: the contract and the action in front, then the fields
in any order, among them the index where the chain adds one. -/
def Profile.IsEvent (p : Profile) (height : Int) (contract action : String)
    (fields attrs : List Attribute) : Prop :=
  ∃ index rest : List Attribute, (index.length : Int) = p.deployment.added height ∧
    (∀ a ∈ index, a.key = indexKey ∧ a.value ≠ "") ∧ rest.Perm (fields ++ index) ∧
    attrs = ⟨p.deployment.contractKey, contract⟩ :: ⟨actionKey, action⟩ :: rest

/-- A key that comes behind those of the contract and of the action when an event is sorted. -/
def IsFieldKey (key : String) : Prop :=
  key ≠ contractKey ∧ key ≠ actionKey ∧ key ≠ indexKey ∧ contractKey ≤ key ∧ actionKey ≤ key

instance (key : String) : Decidable (IsFieldKey key) :=
  inferInstanceAs (Decidable (_ ∧ _ ∧ _ ∧ _ ∧ _))

/-- Fields with different keys, each with a value. -/
structure AreFields (fields : List Attribute) : Prop where
  keys : ∀ a ∈ fields, IsFieldKey a.key
  distinct : (fields.map (·.key)).Nodup
  valued : ∀ a ∈ fields, a.value ≠ ""

/-- The attributes of an event once they are in the order of a layout. -/
structure Layout.Prepares (l : Layout) (attrs : List Attribute) (contract action : String)
    (fields : List Attribute) (length : Int) : Prop where
  front : ∃ rest, l.prepare attrs =
    ⟨PoolLedger.contractKey, contract⟩ :: ⟨actionKey, action⟩ :: rest
  distinct : ((l.prepare attrs).map (·.key)).Nodup
  valued : ∀ a ∈ l.prepare attrs, a.value ≠ ""
  length : ((l.prepare attrs).length : Int) = length
  mem : ∀ a ∈ fields, a ∈ l.prepare attrs

theorem sortedBefore_of_isFieldKey {a b : Attribute} (ha : a.key = contractKey ∨ a.key = actionKey)
    (hb : IsFieldKey b.key ∨ b.key = indexKey) : sortedBefore a b := by
  have hne : (a.key == indexKey) = false := by
    rcases ha with h | h <;> rw [h] <;> decide
  rw [sortedBefore, hne, if_neg Bool.false_ne_true]
  rcases hb with ⟨-, -, -, hcontract, haction⟩ | hb
  · rcases ha with h | h <;> simp [h, hcontract, haction]
  · simp [hb]

theorem ne_of_isFieldKey {key : String} (h : IsFieldKey key ∨ key = indexKey) :
    key ≠ contractKey ∧ key ≠ actionKey := by
  rcases h with h | rfl
  · exact ⟨h.1, h.2.1⟩
  · decide

/-- The contract and the action stay in front when an event is sorted. -/
theorem Layout.prepare_front {l : Layout} (hl : l.contractKey = PoolLedger.contractKey)
    {contract action : String} {rest : List Attribute}
    (hrest : ∀ a ∈ rest, IsFieldKey a.key ∨ a.key = indexKey) :
    ∃ sorted, l.prepare (⟨PoolLedger.contractKey, contract⟩ :: ⟨actionKey, action⟩ :: rest) =
      ⟨PoolLedger.contractKey, contract⟩ :: ⟨actionKey, action⟩ :: sorted := by
  have hsingle : ∀ b ∈ ⟨actionKey, action⟩ :: rest, b.key ≠ l.contractKey := by
    rw [hl]
    exact List.forall_mem_cons.2
      ⟨show actionKey ≠ PoolLedger.contractKey by decide,
        fun b hb => (ne_of_isFieldKey (hrest b hb)).1⟩
  have hfirst : ∀ b ∈ ⟨actionKey, action⟩ :: rest,
      sortedBefore ⟨PoolLedger.contractKey, contract⟩ b :=
    List.forall_mem_cons.2 ⟨by simp [sortedBefore, PoolLedger.contractKey, actionKey, indexKey],
      fun b hb => sortedBefore_of_isFieldKey (.inl rfl) (hrest b hb)⟩
  have hsecond : ∀ b ∈ rest, sortedBefore ⟨actionKey, action⟩ b := fun b hb =>
    sortedBefore_of_isFieldKey (.inr rfl) (hrest b hb)
  -- A layout that does not sort leaves the event as it is.
  unfold prepare
  split
  · rw [sortSegments_of_single hsingle, sortBy_cons_of_le hfirst, sortBy_cons_of_le hsecond]
    exact ⟨_, rfl⟩
  · exact ⟨_, rfl⟩

/-- The keys stay different when at most one index is added. -/
theorem AreFields.nodup_keys {fields index rest : List Attribute} (h : AreFields fields)
    (hlen : index.length ≤ 1) (hindex : ∀ a ∈ index, a.key = indexKey)
    (hperm : rest.Perm (fields ++ index)) :
    (rest.map (·.key)).Nodup := by
  have hdistinct : (index.map (·.key)).Nodup := by
    cases index with
    | nil => exact .nil
    | cons a more =>
      obtain rfl : more = [] :=
        List.eq_nil_of_length_eq_zero (Nat.le_zero.1 (Nat.le_of_succ_le_succ hlen))
      exact List.nodup_singleton _
  rw [(hperm.map _).nodup_iff, List.map_append, List.nodup_append]
  refine ⟨h.distinct, hdistinct, ?_⟩
  rintro _ hkey _ hkey' rfl
  obtain ⟨a, ha, hkey⟩ := List.mem_map.1 hkey
  obtain ⟨b, hb, hkey'⟩ := List.mem_map.1 hkey'
  exact (h.keys a ha).2.2.1 (hkey.trans (hkey'.symm.trans (hindex b hb)))

namespace Profile

variable {p : Profile} {height : Int} {contract action : String} {fields attrs : List Attribute}

theorem IsEvent.isContractEvent (h : p.IsEvent height contract action fields attrs)
    (hp : p.deployment.contractKey = contractKey) (hkeys : ∀ a ∈ fields, IsFieldKey a.key) :
    IsContractEvent p.deployment.contractKey contract action attrs := by
  obtain ⟨index, rest, -, hindex, hperm, rfl⟩ := h
  refine ⟨rest, rfl, fun a ha => ?_⟩
  rw [hp]
  rcases List.mem_append.1 (hperm.mem_iff.1 ha) with ha | ha
  · exact (hkeys a ha).1
  · rw [(hindex a ha).1]
    decide

theorem IsEvent.value_eq (h : p.IsEvent height contract action fields attrs)
    (hkeys : ∀ a ∈ fields, IsFieldKey a.key) {a : Attribute} (ha : a ∈ attrs)
    (hkey : a.key = actionKey) :
    a.value = action := by
  obtain ⟨index, rest, -, hindex, hperm, rfl⟩ := h
  rcases List.mem_cons.1 ha with rfl | ha
  · exact absurd hkey (contractKey_ne p.deployment).2
  rcases List.mem_cons.1 ha with rfl | ha
  · rfl
  rcases List.mem_append.1 (hperm.mem_iff.1 ha) with ha | ha
  · exact absurd hkey (hkeys a ha).2.1
  · rw [(hindex a ha).1] at hkey
    exact absurd hkey (by decide)

/-- **An event is in good shape**, and the contract and the action stay in front when it is
sorted. -/
theorem IsEvent.prepares {l : Layout} (h : p.IsEvent height contract action fields attrs)
    (hp : p.deployment.contractKey = contractKey) (hl : l.contractKey = contractKey)
    (hfields : AreFields fields) (hcontract : contract ≠ "") (haction : action ≠ "") :
    l.Prepares attrs contract action fields (2 + fields.length + p.deployment.added height) := by
  obtain ⟨index, rest, hlen, hindex, hperm, rfl⟩ := h
  rw [hp]
  have hrest : ∀ a ∈ rest, IsFieldKey a.key ∨ a.key = indexKey := fun a ha =>
    (List.mem_append.1 (hperm.mem_iff.1 ha)).imp (hfields.keys a) fun ha => (hindex a ha).1
  have hrest_ne := fun a ha => ne_of_isFieldKey (hrest a ha)
  have hprepared := Layout.prepare_perm l (⟨contractKey, contract⟩ :: ⟨actionKey, action⟩ :: rest)
  -- In front, keys that differ, no empty values, the length, and the fields among the rest.
  refine ⟨Layout.prepare_front hl hrest, (hprepared.map _).nodup_iff.2 ?_, fun a ha => ?_, ?_,
    fun a ha => ?_⟩
  · have hle : index.length ≤ 1 := by
      rcases p.deployment.added_eq height with h | h <;> omega
    have hdistinct := hfields.nodup_keys hle (fun a ha => (hindex a ha).1) hperm
    simp only [List.map_cons, List.nodup_cons, List.mem_cons, List.mem_map, not_or, not_exists,
      not_and]
    exact ⟨⟨by decide, fun a ha => (hrest_ne a ha).1⟩, fun a ha => (hrest_ne a ha).2, hdistinct⟩
  · rcases List.mem_cons.1 (hprepared.mem_iff.1 ha) with rfl | ha
    · exact hcontract
    · rcases List.mem_cons.1 ha with rfl | ha
      · exact haction
      · rcases List.mem_append.1 (hperm.mem_iff.1 ha) with ha | ha
        · exact hfields.valued a ha
        · exact (hindex a ha).2
  · rw [hprepared.length_eq, List.length_cons, List.length_cons, hperm.length_eq,
      List.length_append, ← hlen]
    omega
  · refine hprepared.mem_iff.2 (List.mem_cons_of_mem _ (List.mem_cons_of_mem _ ?_))
    exact hperm.mem_iff.2 (List.mem_append_left _ ha)

end Profile

namespace Layout.Prepares

variable {l : Layout} {attrs fields : List Attribute} {contract action : String} {n : Int}

theorem value (h : l.Prepares attrs contract action fields n) {key v : String}
    (hmem : ⟨key, v⟩ ∈ l.prepare attrs) :
    Fields.value ((l.prepare attrs).map fun a => (a.key, a.value)) key = .ok v :=
  Fields.value_of_mem h.distinct hmem

theorem contract_mem (h : l.Prepares attrs contract action fields n) :
    ⟨PoolLedger.contractKey, contract⟩ ∈ l.prepare attrs := by
  obtain ⟨rest, hrest⟩ := h.front
  rw [hrest]
  exact List.mem_cons_self

theorem action_mem (h : l.Prepares attrs contract action fields n) :
    ⟨actionKey, action⟩ ∈ l.prepare attrs := by
  obtain ⟨rest, hrest⟩ := h.front
  rw [hrest]
  exact List.mem_cons_of_mem _ List.mem_cons_self

theorem key_mem (h : l.Prepares attrs contract action fields n) {key : String}
    (hkey : key ∈ fields.map (·.key)) : key ∈ (l.prepare attrs).map (·.key) := by
  obtain ⟨a, ha, rfl⟩ := List.mem_map.1 hkey
  exact List.mem_map_of_mem (h.mem a ha)

end Layout.Prepares

/-- **An event in good shape is accepted**, with the values that it has. -/
theorem PairReader.accept_of_prepares {reader : PairReader} {registry : Registry} {pair : Pair}
    {contract action : String} {fields attrs : List Attribute} {required : List String} {n : Nat}
    (h : reader.layout.Prepares attrs contract action fields (n + reader.added))
    (hpair : registry.get? contract = some pair)
    (hrequired : reader.layout.required? action = some required)
    (hexpected : reader.layout.expectedLength action ((reader.layout.prepare attrs).map (·.key)) =
      .ok n)
    (hkeys : ∀ key ∈ required, key ∈ fields.map (·.key)) :
    reader.accept registry attrs = .ok {
      pair, action, fields := (reader.layout.prepare attrs).map fun a => (a.key, a.value) } := by
  have hview : Fields.keys ((reader.layout.prepare attrs).map fun a => (a.key, a.value)) =
      (reader.layout.prepare attrs).map (·.key) := by
    rw [Fields.keys, List.map_map]
    rfl
  have haccept : reader.acceptAction registry contract action (reader.layout.prepare attrs) = .ok {
      pair, action, fields := (reader.layout.prepare attrs).map fun a => (a.key, a.value) } := by
    unfold acceptAction
    simp only [hpair, hrequired, bind_eq_ok, pure_eq_ok]
    refine ⟨_, Fields.read_eq_ok_iff.2 ⟨h.distinct, rfl⟩, n, hview ▸ hexpected, ⟨⟩,
      checkShape_eq_ok.2 ⟨h.length, h.valued⟩, ⟨⟩, checkKeys_eq_ok.2 fun key hkey => ?_, rfl⟩
    exact Fields.has_iff.2 (h.key_mem (hkeys key hkey))
  obtain ⟨rest, hrest⟩ := h.front
  unfold accept
  rw [hrest] at haccept ⊢
  exact haccept

/-- **A token transfer in good shape is accepted**, with the values that it has. -/
theorem Profile.tokenFields_of_prepares {p : Profile} {height : Int} {action token : String}
    {fields attrs : List Attribute} {required : List String}
    (hlisted : (action, required) ∈ Layout.transferFields)
    (h : (p.tokenReader height).layout.Prepares attrs token action fields
      (2 + required.length + (p.tokenReader height).added))
    (hkeys : ∀ key ∈ required, key ∈ fields.map (·.key)) :
    (p.tokenReader height).fields attrs =
      .ok (((p.tokenReader height).layout.prepare attrs).map fun a => (a.key, a.value)) := by
  have haction := (Fields.get?_eq_some_iff h.distinct).2 h.action_mem
  refine TokenReader.fields_eq_ok.2 ⟨h.distinct, rfl, required, 2 + required.length, ?_⟩
  rw [haction, Option.getD_some]
  exact ⟨Profile.tokenLayout_required?_eq_some.2 hlisted,
    Profile.tokenLayout_expectedLength hlisted _, h.length, h.valued, fun key hkey =>
      Fields.has_iff.2 (h.key_mem (hkeys key hkey))⟩

/-! ## What becomes of a transfer -/

/-- What is done with a transfer of known coins between known accounts. -/
def Registry.settle (registry : Registry) (sender recipient : String) (coins : List Asset) :
    Flagging (Option Record) := do
  match ← registry.party sender recipient with
  | none => return none
  | some party => return some (← party.record sender recipient coins)

theorem Registry.gives_settle {registry : Registry} {sender recipient : String} {party : Party}
    {coins : List Asset} {r : Record} {contracts : List String}
    (hparty : registry.party sender recipient = .ok (some party))
    (hrecord : Gives (party.record sender recipient coins) r contracts) :
    Gives (registry.settle sender recipient coins) (some r) contracts := by
  rw [settle, lift_bind_of_eq_ok hparty, ← List.append_nil contracts]
  exact hrecord.bind (.pure (some r))

/-- **A bank transfer between accounts is read to what becomes of its coins.** -/
theorem readBankTransfer_eq_settle {t : BankTransfer} {registry : Registry} {attrs : List Attribute}
    {coins : List Asset} (hattrs : attrs.Perm t.attributes) (hsender : t.sender ≠ "")
    (hrecipient : t.recipient ≠ "") (hcoins : Asset.ofCoins t.coins = .ok coins) :
    readBankTransfer 0 registry attrs = registry.settle t.sender t.recipient coins := by
  have hcoins_ne : t.coins ≠ "" := by
    intro hempty
    rw [hempty] at hcoins
    cases hcoins
  have hdistinct : (attrs.map (·.key)).Nodup := by
    rw [(hattrs.map _).nodup_iff]
    show transferKeys.Nodup
    decide
  have hvalued : ∀ a ∈ t.attributes, a.value ≠ "" := by
    simp only [BankTransfer.attributes, List.forall_mem_cons]
    exact ⟨hrecipient, hsender, hcoins_ne, List.forall_mem_nil _⟩
  have hshape : checkShape .bankTransfer RecordKind.transfer.name transferKeys.length 0 attrs =
      .ok ⟨⟩ :=
    checkShape_eq_ok.2 ⟨by rw [hattrs.length_eq]; rfl, fun a ha => hvalued a (hattrs.mem_iff.1 ha)⟩
  have hvalue {key v : String} (ha : ⟨key, v⟩ ∈ t.attributes) :
      Fields.value (attrs.map fun a => (a.key, a.value)) key = .ok v :=
    Fields.value_of_mem hdistinct (hattrs.mem_iff.2 ha)
  unfold readBankTransfer Registry.settle
  rw [lift_bind_of_eq_ok hshape, lift_bind_of_eq_ok (Fields.read_eq_ok_iff.2 ⟨hdistinct, rfl⟩),
    lift_bind_of_eq_ok (hvalue (v := t.sender) (by simp [BankTransfer.attributes])),
    lift_bind_of_eq_ok (hvalue (v := t.recipient) (by simp [BankTransfer.attributes]))]
  -- The coins are only read if one of the two is a pair.
  refine bind_congr fun party? => ?_
  cases party? with
  | none => rfl
  | some party =>
    dsimp only
    rw [lift_bind_of_eq_ok (hvalue (v := t.coins) (by simp [BankTransfer.attributes])),
      lift_bind_of_eq_ok hcoins]

/-- **A token transfer is read to what becomes of its token.** -/
theorem TokenReader.read_eq_settle {reader : TokenReader} {registry : Registry}
    {attrs : List Attribute} {fields : Fields} {sender recipient token amount : String}
    (hfields : reader.fields attrs = .ok fields) (hsender : fields.value "from" = .ok sender)
    (hrecipient : fields.value "to" = .ok recipient)
    (htoken : fields.value reader.layout.contractKey = .ok token)
    (hamount : fields.value "amount" = .ok amount) :
    reader.read registry attrs = registry.settle sender recipient [{ addr := token, amount }] := by
  unfold read Registry.settle
  rw [lift_bind_of_eq_ok hfields, lift_bind_of_eq_ok hsender, lift_bind_of_eq_ok hrecipient]
  refine bind_congr fun party? => ?_
  cases party? with
  | none => rfl
  | some party =>
    dsimp only
    rw [lift_bind_of_eq_ok htoken, lift_bind_of_eq_ok hamount]

/-! ## Records with known amounts -/

/-- A record of a pair with the given amounts on some sides and none on the others. -/
structure Record.Moves (r : Record) (pair : Pair) (sides : List Side)
    (amounts : Side → Int) : Prop where
  contract : r.contract = pair.contract
  legs : ∀ side, r.legs.on side =
    { addr := pair.asset side, amount := if side ∈ sides then toString (amounts side) else "" }

/-- What the chain moves into a pair counts positive, what it moves out negative. -/
def Party.counted (p : Party) (n : Nat) : Int :=
  if p.outflow then -n else n

theorem Party.signed_toString (p : Party) {n : Nat} (h : Numeral.size n ≤ Numeral.maxDigits) :
    p.signed (toString n) = .ok (toString (p.counted n)) := by
  unfold signed counted
  split
  · exact Amount.negate_toString h
  · rfl

def Legs.set (l : Legs) : Side → Asset → Legs
  | .first, a => { l with first := a }
  | .second, a => { l with second := a }

theorem Legs.on_set (l : Legs) (place side : Side) (a : Asset) :
    (l.set place a).on side = if side = place then a else l.on side := by
  cases place <;> cases side <;> rfl

theorem Pair.asset_injective {pair : Pair} (h : pair.first ≠ pair.second) :
    Function.Injective pair.asset := by
  intro side side' heq
  cases side <;> cases side'
  · rfl
  · exact absurd heq h
  · exact absurd heq.symm h
  · rfl

namespace Party

variable {p : Party}

theorem place_cons_asset (hne : p.pair.first ≠ p.pair.second) (side : Side) {amount signed : String}
    (h : p.signed amount = .ok signed) (rest : List Asset) (r : Record) :
    p.place ({ addr := p.pair.asset side, amount } :: rest) r =
      p.place rest { r with
        legs := r.legs.set side { addr := p.pair.asset side, amount := signed } } := by
  rw [place, h]
  cases side with
  | first => exact if_pos rfl
  | second => exact (if_neg hne.symm).trans (if_pos rfl)

/-- Coins of the pair are put in their places. -/
theorem gives_place (hne : p.pair.first ≠ p.pair.second) (sides : List Side) {amounts : Side → Nat}
    (hsize : ∀ side ∈ sides, Numeral.size (amounts side) ≤ Numeral.maxDigits) (r : Record) :
    ∃ r', Gives (p.place (sides.map fun side => .ofNat (p.pair.asset side) (amounts side)) r)
      r' [] ∧
      r'.contract = r.contract ∧ ∀ side, r'.legs.on side =
        if side ∈ sides then
          { addr := p.pair.asset side, amount := toString (p.counted (amounts side)) }
        else r.legs.on side := by
  induction sides generalizing r with
  | nil => exact ⟨r, .pure r, rfl, fun side => (if_neg List.not_mem_nil).symm⟩
  | cons place rest ih =>
    have hsigned := p.signed_toString (hsize place List.mem_cons_self)
    obtain ⟨r', hgives, hcontract, hlegs⟩ :=
      ih (fun side hside => hsize side (List.mem_cons_of_mem _ hside))
      { r with legs := r.legs.set place {
        addr := p.pair.asset place, amount := toString (p.counted (amounts place)) } }
    refine ⟨r', ?_, hcontract, fun side => ?_⟩
    · have hplace := place_cons_asset hne place hsigned
        (rest.map fun side => .ofNat (p.pair.asset side) (amounts side)) r
      rw [List.map_cons]
      exact hplace ▸ hgives
    · rw [hlegs side]
      -- A coin that is listed again takes the place of the one before.
      by_cases hmem : side ∈ rest
      · rw [if_pos hmem, if_pos (List.mem_cons_of_mem _ hmem)]
      · rw [if_neg hmem, Legs.on_set]
        by_cases heq : side = place
        · rw [if_pos heq, if_pos (heq ▸ List.mem_cons_self), heq]
        · rw [if_neg heq, if_neg (by simp [heq, hmem])]

/-- **The record of a transfer of coins of the pair.** -/
theorem gives_record (hne : p.pair.first ≠ p.pair.second) (sender recipient : String)
    (sides : List Side) {amounts : Side → Nat}
    (hsize : ∀ side ∈ sides, Numeral.size (amounts side) ≤ Numeral.maxDigits) :
    ∃ r : Record, Gives (p.record sender recipient
        (sides.map fun side => .ofNat (p.pair.asset side) (amounts side))) r [] ∧
      r.Moves p.pair sides fun side => p.counted (amounts side) := by
  obtain ⟨r, hgives, hcontract, hlegs⟩ := gives_place hne sides hsize {
    kind := .transfer, sender, contract := p.pair.contract, legs := p.pair.emptyLegs
    notes := [("recipient", .str recipient)] }
  refine ⟨r, hgives, hcontract, fun side => ?_⟩
  rw [hlegs side]
  by_cases hmem : side ∈ sides
  · rw [if_pos hmem, if_pos hmem]
  · rw [if_neg hmem, if_neg hmem]
    cases side <;> rfl

end Party

theorem Record.Moves.of_perm {r : Record} {pair : Pair} {sides sides' : List Side}
    {amounts : Side → Int} (h : r.Moves pair sides amounts) (hperm : sides.Perm sides') :
    r.Moves pair sides' amounts where
  contract := h.contract
  legs side := by
    rw [h.legs side]
    simp only [hperm.mem_iff]

/-! ## The events of a provision -/

/-- Whether the address is that of a token contract of the chain. All other addresses are native. -/
def Profile.isToken (p : Profile) (addr : String) : Bool :=
  p.deployment.tokenPrefix.toList.isPrefixOf addr.toList

namespace Provision

variable (v : Provision) (p : Profile) (height : Int)

def tokenSides : List Side :=
  Side.all.filter fun side => p.isToken (v.pair.asset side)

def nativeSides : List Side :=
  Side.all.filter fun side => !p.isToken (v.pair.asset side)

/-- The sides on which the chain gives something back. -/
def refundSides : List Side :=
  (v.nativeSides p).filter fun side => 0 < v.refunded side

/-- What the pair books of a side: tokens net of the refund, native coins in full. -/
def booked (side : Side) : Nat :=
  if p.isToken (v.pair.asset side) then v.offered side - v.refunded side else v.offered side

/-- The pair logs what is offered and what is refunded. -/
def IsProvide (attrs : List Attribute) : Prop :=
  ∃ assets refunds receiver sender share : String,
    v.Lists v.offered Side.all assets ∧ v.Lists v.refunded Side.all refunds ∧
    receiver ≠ "" ∧ sender ≠ "" ∧ share ≠ "" ∧
    p.IsEvent height v.pair.contract Action.provide [⟨"assets", assets⟩, ⟨"receiver", receiver⟩,
      ⟨"refund_assets", refunds⟩, ⟨"sender", sender⟩, ⟨"share", share⟩] attrs

/-- A token logs that it was pulled from the user into the pair, net of the refund. -/
def IsPull (side : Side) (attrs : List Attribute) : Prop :=
  ∃ spender, spender ≠ "" ∧ p.IsEvent height (v.pair.asset side) Action.transferFrom
    [⟨"amount", toString (v.offered side - v.refunded side)⟩, ⟨"by", spender⟩, ⟨"from", v.user⟩,
      ⟨"to", v.pair.contract⟩] attrs

/-- The chain moves the given amounts of the assets on some sides in one transfer, if there are
any. -/
def MovesCoins (sender recipient : String) (amounts : Side → Nat) (sides : List Side)
    (transfers : List BankTransfer) : Prop :=
  if sides = [] then transfers = []
  else ∃ coins, v.Lists amounts sides coins ∧ transfers = [{ sender, recipient, coins }]

variable {v p height} {registry : Registry} {attrs : List Attribute}

/-! ## What is read -/

theorem IsSound.isListable (hv : v.IsSound registry) (side : Side) (n : Nat) :
    (Asset.ofNat (v.pair.asset side) n).IsListable :=
  (Asset.isCoin_ofNat (hv.names side) n).isListable

theorem IsSound.asset_ne (hv : v.IsSound registry) (side : Side) : v.pair.asset side ≠ "" := by
  intro heq
  have hne := (hv.names side).ne
  rw [heq] at hne
  exact hne rfl

theorem IsSound.size_refunded_le (hv : v.IsSound registry) (side : Side) :
    Numeral.size (v.refunded side) ≤ Numeral.maxDigits :=
  Numeral.size_le_of_le (hv.refunded_le side) (hv.size_le side)

theorem IsSound.party_in (hv : v.IsSound registry) :
    registry.party v.user v.pair.contract = .ok (some { pair := v.pair, outflow := false }) := by
  rw [Registry.party, hv.unregistered, hv.registered]

theorem IsSound.party_out (hv : v.IsSound registry) :
    registry.party v.pair.contract v.user = .ok (some { pair := v.pair, outflow := true }) := by
  rw [Registry.party, hv.unregistered, hv.registered]

theorem Lists.ne_empty (hv : v.IsSound registry) {amounts : Side → Nat} {sides : List Side}
    (hne : sides ≠ []) {text : String} (h : v.Lists amounts sides text) : text ≠ "" := by
  obtain ⟨order, hperm, hlisted⟩ := h
  refine hlisted.ne_empty (List.forall_mem_map.2 fun side _ => hv.isListable side _) ?_
  rw [Ne, List.map_eq_nil_iff]
  rintro rfl
  exact hne (List.nil_perm.1 hperm)

/-- Two assets are listed in the order of the pair or the other way round, and put in order either
way. -/
theorem Lists.ofCoinPair (hv : v.IsSound registry) {amounts : Side → Nat} {text : String}
    (h : v.Lists amounts Side.all text) : ∃ legs, Asset.ofCoinPair text = .ok legs ∧
      legs.orderBy v.pair.first = {
        first := .ofNat v.pair.first (amounts .first)
        second := .ofNat v.pair.second (amounts .second) } := by
  obtain ⟨order, hperm, hlisted⟩ := h
  obtain ⟨s, t, rfl⟩ := List.length_eq_two.1 hperm.length_eq
  have horder : [s, t] = [.first, .second] ∨ [s, t] = [.second, .first] := by
    revert hperm
    cases s <;> cases t <;> decide
  rcases horder with horder | horder
  · rw [horder] at hlisted
    exact ⟨_, Asset.ofCoinPair_of_listedIn (hv.isListable _ _) (hv.isListable _ _) hlisted,
      if_pos rfl⟩
  · rw [horder] at hlisted
    exact ⟨_, Asset.ofCoinPair_of_listedIn (hv.isListable _ _) (hv.isListable _ _) hlisted,
      if_neg hv.distinct.symm⟩

theorem netLeg_eq_ok (hv : v.IsSound registry) (side : Side) :
    Strategy.netLeg p.deployment.tokenPrefix (.ofNat (v.pair.asset side) (v.offered side))
        (.ofNat (v.pair.asset side) (v.refunded side)) =
      .ok (.ofNat (v.pair.asset side) (v.booked p side)) := by
  have hsub := Amount.sub_toString (hv.refunded_le side) (hv.size_le side)
  simp only [Strategy.netLeg, Asset.addr_ofNat, Asset.amount_ofNat, hsub, if_true]
  unfold booked Profile.isToken
  split <;> rfl

/-- Tokens are booked net of the refund, native coins in full. -/
theorem refundedProvide_moves (hv : v.IsSound registry) {fields : Fields}
    {assets refunds share : String} (hassets : fields.value "assets" = .ok assets)
    (hoffered : v.Lists v.offered Side.all assets)
    (hrefunds : fields.value "refund_assets" = .ok refunds)
    (hrefunded : v.Lists v.refunded Side.all refunds) (hshare : fields.value "share" = .ok share) :
    ∃ r, Strategy.refundedProvide p.deployment.tokenPrefix fields v.pair = .ok r ∧
      r.Moves v.pair Side.all fun side => v.booked p side := by
  obtain ⟨offered, hoffered, horder⟩ := hoffered.ofCoinPair hv
  obtain ⟨refunded, hrefunded, horder'⟩ := hrefunded.ofCoinPair hv
  -- Both lists are put into the order of the pair before the refund is deducted.
  have hfirst : Strategy.netLeg p.deployment.tokenPrefix (offered.orderBy v.pair.first).first
      (refunded.orderBy v.pair.first).first = .ok (.ofNat v.pair.first (v.booked p .first)) := by
    rw [horder, horder']
    exact netLeg_eq_ok hv .first
  have hsecond : Strategy.netLeg p.deployment.tokenPrefix (offered.orderBy v.pair.first).second
      (refunded.orderBy v.pair.first).second = .ok (.ofNat v.pair.second (v.booked p .second)) := by
    rw [horder, horder']
    exact netLeg_eq_ok hv .second
  have hrecord : Strategy.refundedProvide p.deployment.tokenPrefix fields v.pair = .ok {
      kind := .provide
      sender := (fields.get? "sender").getD ""
      contract := v.pair.contract
      legs := {
        first := .ofNat v.pair.first (v.booked p .first)
        second := .ofNat v.pair.second (v.booked p .second) }
      share := v.pair.share
      shareAmount := share
      refund := some (refunded.orderBy v.pair.first).toList } := by
    simp only [Strategy.refundedProvide, bind_eq_ok, pure_eq_ok]
    exact ⟨assets, hassets, offered, hoffered, refunds, hrefunds, refunded, hrefunded, _, hfirst, _,
      hsecond, share, hshare, rfl⟩
  refine ⟨_, hrecord, rfl, fun side => ?_⟩
  rw [if_pos side.mem_all]
  cases side <;> rfl

theorem IsProvide.isEvent (h : v.IsProvide p height attrs) : ∃ fields,
    p.IsEvent height v.pair.contract Action.provide fields attrs ∧
    ∀ a ∈ fields, IsFieldKey a.key := by
  obtain ⟨assets, refunds, receiver, sender, share, -, -, -, -, -, hevent⟩ := h
  refine ⟨_, hevent, ?_⟩
  simp only [List.forall_mem_cons]
  decide

theorem IsPull.isEvent {side : Side} (h : v.IsPull p height side attrs) : ∃ fields,
    p.IsEvent height (v.pair.asset side) Action.transferFrom fields attrs ∧
      ∀ a ∈ fields, IsFieldKey a.key := by
  obtain ⟨spender, -, hevent⟩ := h
  refine ⟨_, hevent, ?_⟩
  simp only [List.forall_mem_cons]
  decide

/-- **The event of the pair is read to what it books.** -/
theorem IsProvide.read (h : v.IsProvide p height attrs)
    (hp : (p.deployment.strategy height).Reconciles) (hv : v.IsSound registry) :
    ∃ r, (p.pairReader height).read registry attrs = .ok r ∧
      r.Moves v.pair Side.all fun side => v.booked p side := by
  obtain ⟨assets, refunds, receiver, sender, share, hassets, hrefunds, hreceiver, hsender, hshare,
    hevent⟩ := h
  have hfields : AreFields [⟨"assets", assets⟩, ⟨"receiver", receiver⟩, ⟨"refund_assets", refunds⟩,
      ⟨"sender", sender⟩, ⟨"share", share⟩] := by
    refine ⟨?_, by simp, ?_⟩
    · simp only [List.forall_mem_cons]
      decide
    · simp only [List.forall_mem_cons]
      exact ⟨hassets.ne_empty hv (by decide), hreceiver, hrefunds.ne_empty hv (by decide), hsender,
        hshare, nofun⟩
  have hprepares : (p.pairReader height).layout.Prepares attrs v.pair.contract Action.provide _ _ :=
    hevent.prepares (Deployment.contractKey_of_reconciles hp)
      (Deployment.contractKey_pairLayout_of_reconciles hp) hfields hv.contract_ne (by decide)
  -- The layout may require the refund or only allow it.
  obtain ⟨required, hrequired, hasked, hexpected⟩ := Deployment.pairLayout_of_reconciles hp
  have hrefund : "refund_assets" ∈ ((p.pairReader height).layout.prepare attrs).map (·.key) :=
    hprepares.key_mem (by simp)
  have haccept := PairReader.accept_of_prepares hprepares hv.registered hrequired
    (hexpected _ hrefund) hasked
  obtain ⟨r, hr, hmoves⟩ :=
    refundedProvide_moves hv (hprepares.value (hprepares.mem _ (by simp))) hassets
    (hprepares.value (hprepares.mem _ (by simp))) hrefunds
    (hprepares.value (hprepares.mem ⟨"share", share⟩ (by simp)))
  refine ⟨r, bind_eq_ok.2 ⟨_, haccept, ?_⟩, hmoves⟩
  show (p.deployment.strategy height).handle Action.provide _ v.pair = _
  rw [Deployment.provide_of_reconciles hp (Fields.has_iff.2 hrefund)]
  exact hr

/-- **The event of a token is read to what was pulled.** -/
theorem IsPull.read {side : Side} (h : v.IsPull p height side attrs)
    (hp : (p.deployment.strategy height).Reconciles) (hv : v.IsSound registry) :
    ∃ r, Gives ((p.tokenReader height).read registry attrs) (some r) [] ∧
      r.Moves v.pair [side] fun side => (v.offered side - v.refunded side : Nat) := by
  obtain ⟨spender, hspender, hevent⟩ := h
  have hfields : AreFields
      [⟨"amount", toString (v.offered side - v.refunded side)⟩, ⟨"by", spender⟩, ⟨"from", v.user⟩,
        ⟨"to", v.pair.contract⟩] := by
    refine ⟨?_, by simp, ?_⟩
    · simp only [List.forall_mem_cons]
      decide
    · simp only [List.forall_mem_cons]
      exact ⟨Numeral.toString_ne_empty (v.offered side - v.refunded side : Nat), hspender,
        hv.user_ne, hv.contract_ne, nofun⟩
  have hkey : (p.tokenReader height).layout.contractKey = contractKey :=
    (Profile.contractKey_tokenLayout p.deployment).trans (Deployment.contractKey_of_reconciles hp)
  have hprepares : (p.tokenReader height).layout.Prepares attrs (v.pair.asset side)
      Action.transferFrom _ _ :=
    hevent.prepares (Deployment.contractKey_of_reconciles hp) hkey hfields (hv.asset_ne side)
      (by decide)
  have hlisted : (Action.transferFrom, ["amount", "by", "from", "to"]) ∈ Layout.transferFields := by
    decide
  have hfound : (p.tokenReader height).fields attrs =
      .ok (((p.tokenReader height).layout.prepare attrs).map fun a => (a.key, a.value)) :=
    Profile.tokenFields_of_prepares hlisted hprepares fun key hkey => hkey
  have hsize : ∀ s ∈ [side], Numeral.size (v.offered s - v.refunded s) ≤ Numeral.maxDigits :=
    fun s _ => Numeral.size_le_of_le (Nat.sub_le _ _) (hv.size_le s)
  obtain ⟨r, hrecord, hmoves⟩ :=
    Party.gives_record (p := { pair := v.pair, outflow := false }) hv.distinct v.user
    v.pair.contract [side] hsize
  have htoken : Fields.value
      (((p.tokenReader height).layout.prepare attrs).map fun a => (a.key, a.value))
      (p.tokenReader height).layout.contractKey = .ok (v.pair.asset side) := by
    rw [hkey]
    exact hprepares.value hprepares.contract_mem
  -- The pair is the recipient, and the token is one of its assets.
  refine ⟨r, ?_, hmoves⟩
  rw [TokenReader.read_eq_settle hfound (hprepares.value (hprepares.mem ⟨"from", v.user⟩ (by simp)))
    (hprepares.value (hprepares.mem ⟨"to", v.pair.contract⟩ (by simp))) htoken
    (hprepares.value (hprepares.mem ⟨"amount", toString (v.offered side - v.refunded side)⟩
      (by simp)))]
  exact Registry.gives_settle hv.party_in hrecord

/-- **A bank transfer is read to the coins that it moves.** -/
theorem Lists.read {t : BankTransfer} {party : Party} {amounts : Side → Nat} {sides : List Side}
    (h : v.Lists amounts sides t.coins) (hne : sides ≠ []) (hv : v.IsSound registry)
    (hpair : party.pair = v.pair) (hparty : registry.party t.sender t.recipient = .ok (some party))
    (hsender : t.sender ≠ "") (hrecipient : t.recipient ≠ "")
    (hsize : ∀ side, Numeral.size (amounts side) ≤ Numeral.maxDigits) :
    ∃ r, Gives (readBankTransfer 0 registry (p.readAttributes t)) (some r) [] ∧
      r.Moves v.pair sides fun side => party.counted (amounts side) := by
  obtain ⟨order, hperm, hlisted⟩ := h
  have horder : order ≠ [] := by
    rintro rfl
    exact hne (List.nil_perm.1 hperm)
  have hcoins := Asset.ofCoins_of_listedIn
    (List.forall_mem_map.2 fun side _ => hv.isListable side _)
    (by simpa using horder) hlisted
  obtain ⟨r, hrecord, hmoves⟩ := Party.gives_record (hpair ▸ hv.distinct) t.sender t.recipient order
    fun side _ => hsize side
  rw [hpair] at hrecord hmoves
  refine ⟨r, ?_, hmoves.of_perm hperm⟩
  rw [readBankTransfer_eq_settle (p.readAttributes_perm t) hsender hrecipient hcoins]
  exact Registry.gives_settle hparty hrecord

end Provision

end PoolLedger
