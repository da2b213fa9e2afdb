import PoolLedger.Proofs.Reading
import PoolLedger.Proofs.Unrelated

/-!
# What extraction can fail over

Every failure of an extraction lies in the transaction: something in it is malformed, names no
pair or names two, or holds a numeral that is too long (`ReadError.IsOfTransaction`). It is never
over a field or a place that a reader takes for granted (`isOfTransaction_iff`), since each reader
is handed what it reads:

* a creation has as many attributes as its shape asks for;
* bank transfers and first provisions have the keys of the rule that finds them;
* a transfer of a token has the keys of its action and the one that names its contract;
* an action of a pair has the keys that the layout in force asks for, among which are all
  that the strategy in force needs (`Deployment.suits`). Beyond that a strategy fails only
  over the text of a value.

`FailsOnly` says this of a step, `RunFailsOnly` of one that flags pairs.
-/

namespace PoolLedger

namespace ReadError

/-- The failure is over the text of a value. -/
def IsOfValue : ReadError → Prop
  | malformedAmount _ | malformedAsset _ | malformedAssets _ | refundOrder | numeral _ => True
  | _ => False

/-- The failure is that a text is no coin, or does not list two of them. -/
def IsOfCoins : ReadError → Prop
  | malformedAsset _ | malformedAssets _ => True
  | _ => False

/-- The failure lies in the transaction. -/
def IsOfTransaction (e : ReadError) : Prop :=
  e.category ∈ [ErrorCategory.structuralMismatch, .unknownPair, .ambiguousTransfer] ∨
    ∃ cause, e = numeral cause

theorem IsOfValue.isOfTransaction {e : ReadError} (h : e.IsOfValue) : e.IsOfTransaction := by
  cases e with
  | numeral cause => exact .inr ⟨cause, rfl⟩
  | malformedAmount | malformedAsset | malformedAssets | refundOrder =>
    exact .inl List.mem_cons_self
  | _ => exact absurd h id

theorem IsOfCoins.isOfValue {e : ReadError} (h : e.IsOfCoins) : e.IsOfValue := by
  cases e with
  | malformedAsset | malformedAssets => trivial
  | _ => exact absurd h id

/-- All failures lie in the transaction but those over what is taken for granted. -/
theorem isOfTransaction_iff {e : ReadError} :
    e.IsOfTransaction ↔ (∀ key, e ≠ absentField key) ∧ e ≠ absentPosition := by
  cases e <;> simp [IsOfTransaction, category]

end ReadError

theorem RefusesShape.failsOnly {α : Type} {x : Except ReadError α} (h : RefusesShape x) :
    FailsOnly ReadError.IsOfTransaction x :=
  fun e he => .inl (h e he ▸ List.mem_cons_self)

open ReadError

/-! ## Amounts and assets -/

namespace Amount

theorem failsOnly_read (text : String) : FailsOnly IsOfValue (read text) := by
  unfold read
  split
  · exact .of_eq_ok rfl
  · dsimp only
    split
    · exact .error trivial
    · exact .error trivial
    · intro e he
      obtain ⟨cause, -, rfl⟩ := mapError_eq_error.1 he
      trivial

theorem failsOnly_write (n : Int) : FailsOnly IsOfValue (write n) := by
  intro e he
  obtain ⟨cause, -, rfl⟩ := mapError_eq_error.1 he
  trivial

theorem failsOnly_negate (text : String) : FailsOnly IsOfValue (negate text) :=
  (failsOnly_read text).bind fun _ _ => failsOnly_write _

theorem failsOnly_sub (a b : String) : FailsOnly IsOfValue (sub a b) :=
  (failsOnly_read a).bind fun _ _ => (failsOnly_read b).bind fun _ _ => failsOnly_write _

end Amount

namespace Asset

theorem failsOnly_ofCoin (text : List Char) : FailsOnly IsOfCoins (ofCoin text) := by
  unfold ofCoin
  dsimp only
  split
  · exact .error trivial
  · exact .of_eq_ok rfl

theorem failsOnly_ofCoins (text : String) : FailsOnly IsOfCoins (ofCoins text) :=
  .mapM fun coin _ => failsOnly_ofCoin coin

theorem failsOnly_ofCoinPair (text : String) : FailsOnly IsOfCoins (ofCoinPair text) := by
  unfold ofCoinPair
  split
  · exact (failsOnly_ofCoin _).bind fun _ _ => (failsOnly_ofCoin _).bind_pure _
  · exact .error trivial

end Asset

/-! ## Values that are there -/

theorem Fields.failsOnly_value {P : ReadError → Prop} {fields : Fields} {key : String}
    (h : fields.has key) : FailsOnly P (fields.value key) := by
  cases hget : fields.get? key with
  | some v => exact .of_eq_ok (Fields.value_eq_ok.2 hget)
  | none =>
    obtain ⟨entry, hentry, rfl⟩ := List.mem_map.1 (List.contains_iff_mem.1 h)
    have hne := List.lookup_eq_none_iff.1 hget entry hentry
    simp at hne

theorem Fields.has_of_read {kind : SubEvent} {action : String} {attrs : List Attribute}
    {fields : Fields} (h : Fields.read kind action attrs = .ok fields) {key : String}
    (hkey : key ∈ attrs.map (·.key)) :
    fields.has key := by
  rw [Fields.read_eq_ok h]
  exact Fields.has_iff.2 hkey

theorem failsOnly_attributeAt {P : ReadError → Prop} {attrs : List Attribute} {i : Nat}
    (h : i < attrs.length) : FailsOnly P (attributeAt attrs i) := by
  rw [attributeAt, List.getElem?_eq_getElem h]
  exact .of_eq_ok rfl

/-! ## Actions of pairs -/

namespace Strategy

/-- The keys without which a strategy cannot handle an action. -/
def needs (s : Strategy) (action : String) : List String :=
  if action = Action.swap then ["offer_asset", "offer_amount", "return_amount", "commission_amount"]
  else if action = Action.provide then
    match s with
    | reconciling _ => ["assets", "refund_assets", "share"]
    | _ => ["assets", "share"]
  else ["refund_assets", "withdrawn_share"]

variable {fields : Fields} {pair : Pair}

theorem failsOnly_plainSwap (hoffered : fields.has "offer_asset")
    (hoffer : fields.has "offer_amount") (hreturn : fields.has "return_amount")
    (hcommission : fields.has "commission_amount") :
    FailsOnly IsOfValue (plainSwap fields pair) :=
  (Fields.failsOnly_value hoffered).bind fun _ _ => (Fields.failsOnly_value hoffer).bind fun _ _ =>
    (Amount.failsOnly_read _).bind fun _ _ => (Amount.failsOnly_write _).bind fun _ _ =>
    (Fields.failsOnly_value hreturn).bind fun _ _ => (Amount.failsOnly_negate _).bind fun _ _ =>
    (Fields.failsOnly_value hcommission).bind_pure _

theorem failsOnly_swap (s : Strategy) (hoffered : fields.has "offer_asset")
    (hoffer : fields.has "offer_amount") (hreturn : fields.has "return_amount")
    (hcommission : fields.has "commission_amount") : FailsOnly IsOfValue (s.swap fields pair) := by
  have hplain : FailsOnly IsOfValue (plainSwap fields pair) :=
    failsOnly_plainSwap hoffered hoffer hreturn hcommission
  unfold swap
  split
  · refine hplain.bind fun r _ => ?_
    split
    · exact .of_eq_ok rfl
    · refine (Fields.failsOnly_value hreturn).bind fun _ _ =>
        (Amount.failsOnly_read _).bind fun _ _ =>
        (Amount.failsOnly_read _).bind fun _ _ => (Amount.failsOnly_write _).bind fun _ _ =>
        (Fields.failsOnly_value hoffered).bind fun _ _ => ?_
      split <;> exact .of_eq_ok rfl
  · exact hplain

theorem failsOnly_listed (text : String) : FailsOnly IsOfValue (Asset.ofCoinPair text) :=
  (Asset.failsOnly_ofCoinPair text).mono fun _ => IsOfCoins.isOfValue

theorem failsOnly_plainProvide (hassets : fields.has "assets") (hshare : fields.has "share") :
    FailsOnly IsOfValue (plainProvide fields pair) :=
  (Fields.failsOnly_value hassets).bind fun _ _ => (failsOnly_listed _).bind fun _ _ =>
    (Fields.failsOnly_value hshare).bind_pure _

theorem failsOnly_netLeg (tokenPrefix : String) (provided refunded : Asset) :
    FailsOnly IsOfValue (netLeg tokenPrefix provided refunded) := by
  unfold netLeg
  split
  · split
    · exact (Amount.failsOnly_sub _ _).bind_pure _
    · exact .of_eq_ok rfl
  · exact .error trivial

theorem failsOnly_refundedProvide (tokenPrefix : String) (hassets : fields.has "assets")
    (hrefund : fields.has "refund_assets") (hshare : fields.has "share") :
    FailsOnly IsOfValue (refundedProvide tokenPrefix fields pair) :=
  (Fields.failsOnly_value hassets).bind fun _ _ => (failsOnly_listed _).bind fun _ _ =>
    (Fields.failsOnly_value hrefund).bind fun _ _ => (failsOnly_listed _).bind fun _ _ =>
    (failsOnly_netLeg _ _ _).bind fun _ _ => (failsOnly_netLeg _ _ _).bind fun _ _ =>
    (Fields.failsOnly_value hshare).bind_pure _

theorem failsOnly_withdrawnAmount (s : Strategy) (amount : String) :
    FailsOnly IsOfValue (s.withdrawnAmount amount) := by
  unfold withdrawnAmount
  split
  · exact (Amount.failsOnly_read _).bind fun _ _ => (Amount.failsOnly_write _).bind fun _ _ =>
      Amount.failsOnly_negate _
  · exact Amount.failsOnly_negate _

theorem failsOnly_withdraw (s : Strategy) (hrefund : fields.has "refund_assets")
    (hshare : fields.has "withdrawn_share") : FailsOnly IsOfValue (s.withdraw fields pair) := by
  have hlegs (text : String) : FailsOnly IsOfValue (s.withdrawnLegs text pair) :=
    (failsOnly_listed _).bind fun _ _ => (failsOnly_withdrawnAmount s _).bind fun _ _ =>
      (failsOnly_withdrawnAmount s _).bind_pure _
  exact (Fields.failsOnly_value hrefund).bind fun _ _ => (hlegs _).bind fun _ _ =>
    (Fields.failsOnly_value hshare).bind_pure _

/-- **With the keys that it needs, a strategy fails only over the text of a value.** -/
theorem failsOnly_handle {s : Strategy} {action : String} (haction : action ∈ actions)
    (h : ∀ key ∈ s.needs action, fields.has key) :
    FailsOnly IsOfValue (s.handle action fields pair) := by
  simp only [actions, List.mem_cons, List.not_mem_nil, or_false] at haction
  rcases haction with rfl | rfl | rfl
  · show FailsOnly IsOfValue (s.provide fields pair)
    cases s with
    | reconciling tokenPrefix =>
      have h : ∀ key ∈ ["assets", "refund_assets", "share"], fields.has key := h
      exact failsOnly_refundedProvide _ (h _ (by decide)) (h _ (by decide)) (h _ (by decide))
    | taxedReconciling tokenPrefix =>
      have h : ∀ key ∈ ["assets", "share"], fields.has key := h
      rw [provide]
      split
      · exact failsOnly_refundedProvide _ (h _ (by decide)) ‹_› (h _ (by decide))
      · exact failsOnly_plainProvide (h _ (by decide)) (h _ (by decide))
    | plain | feeDeducting => exact failsOnly_plainProvide (h _ (by decide)) (h _ (by decide))
  · have h : ∀ key ∈ ["offer_asset", "offer_amount", "return_amount", "commission_amount"],
        fields.has key := h
    exact failsOnly_swap s (h _ (by decide)) (h _ (by decide)) (h _ (by decide)) (h _ (by decide))
  · have h : ∀ key ∈ ["refund_assets", "withdrawn_share"], fields.has key := h
    exact failsOnly_withdraw s (h _ (by decide)) (h _ (by decide))

/-- The layout has only actions with a meaning, and asks for the keys that the
strategy needs for them. -/
def Suits (s : Strategy) (l : Layout) : Prop :=
  ∀ entry ∈ l.fields, entry.1 ∈ actions ∧ ∀ key ∈ s.needs entry.1, key ∈ entry.2

end Strategy

/-- **At every height the layout in force suits the strategy in force.** -/
theorem Deployment.suits (d : Deployment) (height : Int) :
    (d.strategy height).Suits (d.pairLayout height) := by
  unfold Strategy.Suits
  cases d with
  | dezswap network | starfleit network =>
    dsimp only [strategy, pairLayout, tokenPrefix]
    split <;> decide
  | phoenix | columbusFour | columbusFive =>
    dsimp only [strategy, pairLayout, tokenPrefix]
    decide

/-! ## The readers -/

theorem failsOnly_readCreation (attrs : List Attribute) :
    FailsOnly IsOfTransaction (readCreation 0 attrs) := by
  refine (refusesShape_checkShape _ _ _ _ _).failsOnly.bind fun _ hshape => ?_
  have hlen : attrs.length = 5 := by
    have h := (checkShape_eq_ok.1 hshape).1
    omega
  refine (failsOnly_attributeAt (by omega)).bind fun names _ => ?_
  split
  · exact .error (isOfTransaction_iff.2 ⟨nofun, nofun⟩)
  · exact (failsOnly_attributeAt (by omega)).bind fun _ _ =>
      (failsOnly_attributeAt (by omega)).bind_pure _

/-- A first provision that the rule finds has the fields that are read. -/
theorem failsOnly_readFirstProvide {pairs : List String} {entries : List Entry}
    {attrs : List Attribute} (hm : attrs ∈ (Rule.firstProvide pairs).findIn entries) :
    FailsOnly IsOfTransaction (readFirstProvide 0 attrs) := by
  obtain ⟨hfits, hlen⟩ := Rule.fits_of_mem_findIn hm
  have hkeys : attrs.map (·.key) = [contractKey, actionKey, "amount", "to"] :=
    Rule.keys_of_fits hfits (hlen rfl)
  refine (refusesShape_checkShape _ _ _ _ _).failsOnly.bind fun _ _ =>
    (refusesShape_read _ _ _).failsOnly.bind fun fields hfields => ?_
  have hhas : ∀ key ∈ [contractKey, actionKey, "amount", "to"], fields.has key :=
    fun key hkey => Fields.has_of_read hfields (hkeys ▸ hkey)
  exact (Fields.failsOnly_value (hhas _ (by decide))).bind fun _ _ =>
    (Fields.failsOnly_value (hhas _ (by decide))).bind fun _ _ =>
    (Fields.failsOnly_value (hhas _ (by decide))).bind_pure _

theorem failsOnly_party (registry : Registry) (sender recipient : String) :
    FailsOnly IsOfTransaction (registry.party sender recipient) := by
  unfold Registry.party
  split
  · exact .error (isOfTransaction_iff.2 ⟨nofun, nofun⟩)
  · exact .of_eq_ok rfl
  · exact .of_eq_ok rfl
  · exact .of_eq_ok rfl

theorem runFailsOnly_place (party : Party) (legs : List Asset) (r : Record) :
    RunFailsOnly IsOfTransaction (party.place legs r) := by
  induction legs generalizing r with
  | nil => exact .pure r
  | cons leg rest ih =>
    have hsigned : FailsOnly IsOfTransaction (party.signed leg.amount) := by
      unfold Party.signed
      split
      · exact (Amount.failsOnly_negate _).mono fun _ => IsOfValue.isOfTransaction
      · exact .of_eq_ok rfl
    rw [Party.place]
    refine .lift_bind hsigned fun amount _ => ?_
    split_ifs
    · exact ih _
    · exact ih _
    · exact .bind (fun _ => .of_eq_ok rfl) fun _ => ih _

/-- A bank transfer that the rule finds has the fields that are read. -/
theorem runFailsOnly_readBankTransfer (registry : Registry) {attrs : List Attribute}
    (hkeys : (attrs.map (·.key)).Perm transferKeys) :
    RunFailsOnly IsOfTransaction (readBankTransfer 0 registry attrs) := by
  refine .lift_bind (refusesShape_checkShape _ _ _ _ _).failsOnly fun _ _ =>
    .lift_bind (refusesShape_read _ _ _).failsOnly fun fields hfields => ?_
  have hhas : ∀ key ∈ transferKeys, fields.has key :=
    fun key hkey => Fields.has_of_read hfields (hkeys.mem_iff.2 hkey)
  refine .lift_bind (Fields.failsOnly_value (hhas _ (by decide))) fun sender _ =>
    .lift_bind (Fields.failsOnly_value (hhas _ (by decide))) fun recipient _ =>
    .lift_bind (failsOnly_party _ _ _) fun party? _ => ?_
  cases party? with
  | none => exact .pure none
  | some party =>
    exact .lift_bind (Fields.failsOnly_value (hhas _ (by decide))) fun text _ =>
      .lift_bind ((Asset.failsOnly_ofCoins _).mono fun _ h => h.isOfValue.isOfTransaction)
        fun coins _ => (runFailsOnly_place _ _ _).bind fun r => .pure (some r)

namespace PairReader

theorem failsOnly_acceptAction (reader : PairReader) (registry : Registry)
    (contract action : String) (attrs : List Attribute) :
    FailsOnly IsOfTransaction (reader.acceptAction registry contract action attrs) := by
  unfold acceptAction
  cases registry.get? contract with
  | none => exact .error (isOfTransaction_iff.2 ⟨nofun, nofun⟩)
  | some pair =>
    cases hrequired : reader.layout.required? action with
    | none => exact .error (isOfTransaction_iff.2 ⟨nofun, nofun⟩)
    | some required =>
      have hexpected (present : List String) :
          FailsOnly IsOfTransaction (reader.layout.expectedLength action present) := by
        rw [Layout.expectedLength, hrequired]
        exact .of_eq_ok rfl
      exact (refusesShape_read _ _ _).failsOnly.bind fun _ _ => (hexpected _).bind fun _ _ =>
        (refusesShape_checkShape _ _ _ _ _).failsOnly.bind fun _ _ =>
        (refusesShape_checkKeys _ _ _).failsOnly.bind_pure _

theorem failsOnly_accept (reader : PairReader) (registry : Registry) (attrs : List Attribute) :
    FailsOnly IsOfTransaction (reader.accept registry attrs) := by
  unfold accept
  split
  · exact failsOnly_acceptAction _ _ _ _ _
  · exact .error (isOfTransaction_iff.2 ⟨nofun, nofun⟩)

/-- An accepted action is one of the layout, and has the keys that the layout asks for. -/
theorem exists_required {reader : PairReader} {registry : Registry} {attrs : List Attribute}
    {accepted : PairAction} (h : reader.accept registry attrs = .ok accepted) :
    ∃ required, reader.layout.required? accepted.action = some required ∧
      ∀ key ∈ required, accepted.fields.has key := by
  unfold accept at h
  split at h
  · unfold acceptAction at h
    split at h
    · cases h
    · split at h
      · cases h
      · rename_i required hrequired
        simp only [bind_eq_ok, pure_eq_ok, checkKeys_eq_ok] at h
        obtain ⟨fields, -, _, -, -, -, -, hhas, rfl⟩ := h
        exact ⟨required, hrequired, hhas⟩
  · cases h

end PairReader

namespace Profile

variable {p : Profile} {height : Int} {registry : Registry} {tx : RawTx} {attrs : List Attribute}

/-- **The layout in force guarantees the strategy in force all that it reads.** -/
theorem failsOnly_handle {action : String} {required : List String}
    (hrequired : (p.pairReader height).layout.required? action = some required) {fields : Fields}
    (hhas : ∀ key ∈ required, fields.has key) (pair : Pair) :
    FailsOnly IsOfValue ((p.pairReader height).strategy.handle action fields pair) := by
  obtain ⟨front, back, hsplit, -⟩ := List.lookup_eq_some_iff.1 hrequired
  have hlisted : (action, required) ∈ (p.deployment.pairLayout height).fields := by
    show _ ∈ (p.pairReader height).layout.fields
    rw [hsplit]
    exact List.mem_append_right _ List.mem_cons_self
  obtain ⟨haction, hneeds⟩ := p.deployment.suits height _ hlisted
  exact Strategy.failsOnly_handle haction fun key hkey => hhas key (hneeds key hkey)

theorem failsOnly_readPair (p : Profile) (height : Int) (registry : Registry)
    (attrs : List Attribute) :
    FailsOnly IsOfTransaction ((p.pairReader height).read registry attrs) := by
  refine (PairReader.failsOnly_accept _ _ _).bind fun accepted haccepted => ?_
  obtain ⟨required, hrequired, hhas⟩ := PairReader.exists_required haccepted
  exact (failsOnly_handle hrequired hhas _).mono fun _ => IsOfValue.isOfTransaction

/-- A transfer of a token that the rule finds has the fields that are read, once its shape is
checked. -/
theorem runFailsOnly_readToken (height : Int) (registry : Registry) {entries : List Entry}
    (hm : attrs ∈ p.tokenRule.findIn entries) :
    RunFailsOnly IsOfTransaction ((p.tokenReader height).read registry attrs) := by
  -- The key of the contract is not among the required fields, but the rule opens with it.
  have hopens : p.deployment.contractKey ∈ attrs.map (·.key) := by
    have hfits := (Rule.fits_of_mem_findIn hm).1
    cases attrs with
    | nil => cases hfits
    | cons a rest =>
      simp only [tokenRule, Rule.tokenTransfer, Rule.fits, RuleItem.accepts, Bool.and_eq_true,
        beq_iff_eq] at hfits
      exact hfits.1.1 ▸ List.mem_cons_self
  refine .lift_bind (TokenReader.refusesShape_fields _ _).failsOnly fun fields hfields => ?_
  obtain ⟨-, hview, required, _, hrequired, -, -, -, hhas⟩ := TokenReader.fields_eq_ok.1 hfields
  obtain ⟨hfrom, hto, hamount⟩ :=
    mem_keys_of_mem_transferFields (tokenLayout_required?_eq_some.1 hrequired)
  have htoken : fields.has (p.tokenReader height).layout.contractKey := by
    have hperm := (Layout.prepare_perm (p.tokenReader height).layout attrs).map (·.key)
    rw [hview]
    exact Fields.has_iff.2 (hperm.mem_iff.2 (contractKey_tokenLayout p.deployment ▸ hopens))
  refine .lift_bind (Fields.failsOnly_value (hhas _ hfrom)) fun sender _ =>
    .lift_bind (Fields.failsOnly_value (hhas _ hto)) fun recipient _ =>
    .lift_bind (failsOnly_party _ _ _) fun party? _ => ?_
  cases party? with
  | none => exact .pure none
  | some party =>
    exact .lift_bind (Fields.failsOnly_value htoken) fun token _ =>
      .lift_bind (Fields.failsOnly_value (hhas _ hamount)) fun amount _ =>
      (runFailsOnly_place _ _ _).bind fun r => .pure (some r)

/-! ## Whole transactions -/

theorem failsOnly_creations (p : Profile) (tx : RawTx) (entries : List Entry) :
    FailsOnly IsOfTransaction (p.creations tx entries) :=
  .mapM fun m _ => (failsOnly_readCreation m).bind_pure _

theorem failsOnly_pairActions (p : Profile) (height : Int) (registry : Registry) (tx : RawTx)
    (entries : List Entry) : FailsOnly IsOfTransaction (p.pairActions height registry tx entries) :=
  .mapM fun m _ => (failsOnly_readPair p height registry m).bind_pure _

theorem failsOnly_minted (p : Profile) (registry : Registry) (tx : RawTx) (e : Entry)
    (actions : List Record) : FailsOnly IsOfTransaction (p.minted registry tx e actions) := by
  unfold minted firstProvides?
  split
  · rename_i found hfound
    split at hfound
    · rw [← Option.some.inj hfound]
      split
      · exact .mapM fun m hm => (failsOnly_readFirstProvide hm).bind_pure _
      · exact .of_eq_ok rfl
    · cases hfound
  · exact .of_eq_ok rfl

theorem runFailsOnly_findings (p : Profile) (height : Int) (registry : Registry) (tx : RawTx)
    (e : Entry) :
    RunFailsOnly IsOfTransaction (p.findings height registry tx e) := by
  have htokens : RunFailsOnly IsOfTransaction (p.tokenTransfers height registry tx [e]) :=
    .bind (.mapM fun _ hm => runFailsOnly_readToken height registry hm) fun _ => .pure _
  have hcoins : RunFailsOnly IsOfTransaction (p.bankTransfers registry tx [p.prepare e]) :=
    .bind (.mapM fun _ hm => runFailsOnly_readBankTransfer registry (keys_of_mem_bankRule hm))
      fun _ => .pure _
  exact .lift_bind (failsOnly_pairActions _ _ _ _ _) fun _ _ =>
    .lift_bind (failsOnly_minted _ _ _ _ _) fun _ _ => htokens.bind fun _ => hcoins.bind fun _ =>
      .pure _

theorem runFailsOnly_allFindings (p : Profile) (height : Int) (registry : Registry) (tx : RawTx)
    (entries : List Entry) :
    RunFailsOnly IsOfTransaction (p.allFindings height registry tx entries) := by
  induction entries with
  | nil => exact .pure _
  | cons e rest ih => exact (runFailsOnly_findings _ _ _ _ e).bind fun _ => ih.bind fun _ => .pure _

theorem failsOnly_extract (p : Profile) (height : Int) (tx : RawTx) (known : Knowledge) :
    FailsOnly IsOfTransaction (p.extract height tx known).1 := by
  have hcreations := failsOnly_creations p tx tx.entries
  unfold extract
  split
  · rename_i e he
    exact .error (hcreations e he)
  · exact (runFailsOnly_allFindings _ _ _ _ _ _).map _

/-- **Extraction fails only over what is in the transaction**, never over a field or a place
that is taken for granted. The layout in force guarantees the strategy in force every field
that it reads, for every action, and the rules of transfers and first provisions guarantee
their readers the same. -/
theorem extract_fails_only (p : Profile) (height : Int) (tx : RawTx) (known : Knowledge) :
    ((∃ records, (p.extract height tx known).1 = .ok records) ∨
      ∃ e, (p.extract height tx known).1 = .error e ∧ (∀ key, e ≠ .absentField key) ∧
        e ≠ .absentPosition ∧
        (e.category ∈ [.structuralMismatch, .unknownPair, .ambiguousTransfer] ∨
          ∃ cause, e = .numeral cause)) ∧
      (∀ action required, (p.pairReader height).layout.required? action = some required →
        ∀ fields pair, (∀ key ∈ required, fields.has key) →
          FailsOnly IsOfValue ((p.pairReader height).strategy.handle action fields pair)) ∧
      (∀ m ∈ p.tokenRule.findIn tx.entries,
        RunFailsOnly IsOfTransaction ((p.tokenReader height).read known.registry m)) ∧
      (∀ m ∈ p.bankRule.findIn (tx.entries.map p.prepare),
        RunFailsOnly IsOfTransaction (readBankTransfer 0 known.registry m)) ∧
      ∀ m ∈ (Rule.firstProvide known.registry.contracts).findIn tx.entries,
        FailsOnly IsOfTransaction (readFirstProvide 0 m) := by
  refine ⟨?_, fun action required hrequired fields pair hhas => failsOnly_handle hrequired
    hhas pair, fun m hm => runFailsOnly_readToken height known.registry hm,
    fun m hm => runFailsOnly_readBankTransfer known.registry (keys_of_mem_bankRule hm),
    fun m hm => failsOnly_readFirstProvide hm⟩
  cases houtcome : (p.extract height tx known).1 with
  | ok records => exact .inl ⟨records, rfl⟩
  | error e =>
    have he := failsOnly_extract p height tx known e houtcome
    obtain ⟨hfield, hposition⟩ := isOfTransaction_iff.1 he
    exact .inr ⟨e, rfl, hfield, hposition, he⟩

end Profile

end PoolLedger
