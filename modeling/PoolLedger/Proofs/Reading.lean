import PoolLedger.Proofs.Outcome
import PoolLedger.Proofs.Scan
import PoolLedger.Reading.Creation

/-!
# What the readers give

For each reader, what is known when it succeeds: where the parts of the record come from. Each
function of `Strategy` has one such statement (`plainSwap_eq_ok` to `withdraw_eq_ok`); together they
give the kind and the contract of every action of a pair (`handle_eq_ok`).
-/

namespace PoolLedger

namespace Fields

theorem value_eq_ok {fields : Fields} {key v : String} :
    fields.value key = .ok v ↔ fields.get? key = some v := by
  unfold value
  cases fields.get? key <;> simp

theorem read_eq_ok {kind : SubEvent} {action : String} {attrs : List Attribute} {fields : Fields}
    (h : Fields.read kind action attrs = .ok fields) :
    fields = attrs.map fun a => (a.key, a.value) := by
  rw [Fields.read, mapError_eq_ok, ofAttributes] at h
  split at h
  · cases h
  · injection h with h
    exact h.symm

end Fields

/-! ## Creations and first provisions -/

theorem readCreation_eq_ok {added : Int} {attrs : List Attribute} {r : Record}
    (h : readCreation added attrs = .ok r) :
    ∃ contract first second share, r = {
      kind := .creation, contract, share
      legs := { first := { addr := first }, second := { addr := second } } } := by
  simp only [readCreation, bind_eq_ok] at h
  obtain ⟨-, -, names, -, h⟩ := h
  split at h
  · cases h
  · simp only [bind_eq_ok, pure_eq_ok] at h
    obtain ⟨contract, -, share, -, rfl⟩ := h
    exact ⟨_, _, _, _, rfl⟩

theorem readCreation_addr_ne {added : Int} {attrs : List Attribute} {r : Record}
    (h : readCreation added attrs = .ok r) : r.legs.first.addr ≠ "" ∧ r.legs.second.addr ≠ "" := by
  simp only [readCreation, bind_eq_ok] at h
  obtain ⟨-, -, names, -, h⟩ := h
  split at h
  · cases h
  · rename_i first second hnames
    simp only [bind_eq_ok, pure_eq_ok] at h
    obtain ⟨contract, -, share, -, rfl⟩ := h
    unfold assetNames? at hnames
    split at hnames
    · split at hnames
      · cases hnames
      · rename_i hne
        obtain ⟨rfl, rfl⟩ := Prod.mk.inj (Option.some.inj hnames)
        simpa using hne
    · cases hnames

theorem readFirstProvide_eq_ok {added : Int} {attrs : List Attribute} {r : Record}
    (h : readFirstProvide added attrs = .ok r) :
    ∃ fields contract share amount, fields = attrs.map (fun a => (a.key, a.value)) ∧
      Fields.get? fields "to" = some contract ∧ Fields.get? fields contractKey = some share ∧
      Fields.get? fields "amount" = some amount ∧
      r = { kind := .firstProvide, contract, share, shareAmount := amount } := by
  simp only [readFirstProvide, bind_eq_ok, pure_eq_ok, Fields.value_eq_ok] at h
  obtain ⟨-, -, fields, hfields, contract, hto, share, hshare, amount, hamount, rfl⟩ := h
  exact ⟨fields, contract, share, amount, Fields.read_eq_ok hfields, hto, hshare, hamount, rfl⟩

/-- A match of the rule of first provisions has its four attributes, and the last names a pair. -/
theorem firstProvide_match {pairs : List String} {attrs : List Attribute}
    (h : Rule.fits (Rule.firstProvide pairs).items attrs) (hlen : attrs.length = 4) :
    ∃ contract amount pair, pair ∈ pairs ∧ attrs.map (fun a => (a.key, a.value)) =
      [(contractKey, contract), (actionKey, Action.mint), ("amount", amount), ("to", pair)] := by
  match attrs, hlen with
  | [a, b, c, d], _ =>
    simp only [Rule.firstProvide, Rule.fits, RuleItem.accepts, Filter.accepts, Bool.and_eq_true,
      beq_iff_eq, List.contains_iff_mem, Bool.and_true] at h
    obtain ⟨ha, ⟨hb, hmint⟩, hc, hd, hmem⟩ := h
    exact ⟨a.value, c.value, d.value, hmem, by simp [ha, hb, hmint, hc, hd]⟩

/-- **A first provision that a rule finds is one of the pairs of the rule.** -/
theorem readFirstProvide_contract_mem {pairs : List String} {entries : List Entry} {added : Int}
    {attrs : List Attribute} {r : Record} (hm : attrs ∈ (Rule.firstProvide pairs).findIn entries)
    (h : readFirstProvide added attrs = .ok r) : r.contract ∈ pairs := by
  obtain ⟨hfits, hlen⟩ := Rule.fits_of_mem_findIn hm
  obtain ⟨token, amount, pair, hmem, hattrs⟩ := firstProvide_match hfits (hlen rfl)
  obtain ⟨fields, contract, share, shareAmount, rfl, hto, -, -, rfl⟩ := readFirstProvide_eq_ok h
  rw [hattrs] at hto
  have : pair = contract := by
    simpa [Fields.get?, List.lookup_cons, contractKey, actionKey] using hto
  exact this ▸ hmem

/-! ## Actions of pairs -/

theorem PairReader.accept_eq_ok {reader : PairReader} {registry : Registry}
    {attrs : List Attribute} {accepted : PairAction}
    (h : reader.accept registry attrs = .ok accepted) :
    ∃ contract, registry.get? contract = some accepted.pair := by
  unfold accept at h
  split at h
  · rename_i contract action rest _
    unfold acceptAction at h
    split at h
    · cases h
    · rename_i pair hget
      split at h
      · cases h
      · simp only [bind_eq_ok, pure_eq_ok] at h
        obtain ⟨_, -, _, -, -, -, -, -, rfl⟩ := h
        exact ⟨contract.value, hget⟩
  · cases h

namespace Strategy

variable {s : Strategy} {fields : Fields} {pair : Pair} {r : Record}

theorem plainSwap_eq_ok (h : plainSwap fields pair = .ok r) :
    ∃ offered offer n inflow given outflow commission,
      fields.get? "offer_asset" = some offered ∧ fields.get? "offer_amount" = some offer ∧
      Amount.read offer = .ok n ∧ Amount.write n = .ok inflow ∧
      fields.get? "return_amount" = some given ∧ Amount.negate given = .ok outflow ∧
      fields.get? "commission_amount" = some commission ∧ r = {
        kind := .swap
        sender := (fields.get? "sender").getD ""
        contract := pair.contract
        legs := swapLegs pair (offered = pair.second) inflow outflow
        commission } := by
  simp only [plainSwap, bind_eq_ok, pure_eq_ok, Fields.value_eq_ok] at h
  obtain ⟨offered, hoffered, offer, hoffer, n, hn, inflow, hinflow, given, hgiven, outflow,
    houtflow, commission, hcommission, rfl⟩ := h
  exact ⟨offered, offer, n, inflow, given, outflow, commission, hoffered, hoffer, hn, hinflow,
    hgiven, houtflow, hcommission, rfl⟩

/-- A swap is plain, or a tax adds to what goes out in it and replaces that leg, and nothing
else. -/
theorem exists_of_swap (h : s.swap fields pair = .ok r) :
    plainSwap fields pair = .ok r ∨
      ∃ plain tax offered given m n outflow, plainSwap fields pair = .ok plain ∧
        fields.get? "tax_amount" = some tax ∧ fields.get? "offer_asset" = some offered ∧
        fields.get? "return_amount" = some given ∧ Amount.read given = .ok m ∧
        Amount.read tax = .ok n ∧ Amount.write (-(m + n)) = .ok outflow ∧
        r = if offered = pair.second then
          { plain with
            legs := { plain.legs with first := { addr := pair.first, amount := outflow } }
            tax := some { addr := pair.first, amount := tax } }
        else
          { plain with
            legs := { plain.legs with second := { addr := pair.second, amount := outflow } }
            tax := some { addr := pair.second, amount := tax } } := by
  unfold swap at h
  -- Taxes are looked for by some strategies only.
  split at h
  · cases htax : fields.get? "tax_amount" with
    | none =>
      simp only [taxedSwap, bind_eq_ok, htax, pure_eq_ok] at h
      obtain ⟨plain, hplain, rfl⟩ := h
      exact .inl hplain
    | some tax =>
      simp only [taxedSwap, bind_eq_ok, htax, Fields.value_eq_ok] at h
      obtain ⟨plain, hplain, given, hgiven, m, hm, n, hn, outflow, houtflow, offered, hoffered,
        h⟩ := h
      refine .inr ⟨plain, tax, offered, given, m, n, outflow, hplain, rfl, hoffered, hgiven, hm, hn,
        houtflow, ?_⟩
      split at h
      · rename_i hsecond
        rw [if_pos hsecond, ← pure_eq_ok.1 h]
      · rename_i hsecond
        rw [if_neg hsecond, ← pure_eq_ok.1 h]
  · exact .inl h

theorem plainProvide_eq_ok (h : plainProvide fields pair = .ok r) :
    ∃ text provided share, fields.get? "assets" = some text ∧
      Asset.ofCoinPair text = .ok provided ∧ fields.get? "share" = some share ∧ r = {
        kind := .provide
        sender := (fields.get? "sender").getD ""
        contract := pair.contract
        legs := provided.orderBy pair.first
        share := pair.share
        shareAmount := share } := by
  simp only [plainProvide, bind_eq_ok, pure_eq_ok, Fields.value_eq_ok] at h
  obtain ⟨text, htext, provided, hprovided, share, hshare, rfl⟩ := h
  exact ⟨text, provided, share, htext, hprovided, hshare, rfl⟩

/-- A token comes net of its refund, and any other leg as it was provided. -/
theorem exists_of_netLeg {tokenPrefix : String} {provided refunded leg : Asset}
    (h : netLeg tokenPrefix provided refunded = .ok leg) :
    (tokenPrefix.toList.isPrefixOf provided.addr.toList = true ∧
        ∃ amount, Amount.sub provided.amount refunded.amount = .ok amount ∧
          leg = { addr := provided.addr, amount }) ∨
      tokenPrefix.toList.isPrefixOf provided.addr.toList = false ∧ leg = provided := by
  unfold netLeg at h
  split at h
  · split at h
    · rename_i htoken
      obtain ⟨amount, hsub, h⟩ := bind_eq_ok.1 h
      exact .inl ⟨htoken, amount, hsub, (pure_eq_ok.1 h).symm⟩
    · rename_i htoken
      exact .inr ⟨Bool.eq_false_iff.2 htoken, (Except.ok.inj h).symm⟩
  · cases h

theorem refundedProvide_eq_ok {tokenPrefix : String}
    (h : refundedProvide tokenPrefix fields pair = .ok r) :
    ∃ text provided refundText refunded first second share, fields.get? "assets" = some text ∧
      Asset.ofCoinPair text = .ok provided ∧ fields.get? "refund_assets" = some refundText ∧
      Asset.ofCoinPair refundText = .ok refunded ∧
      netLeg tokenPrefix (provided.orderBy pair.first).first (refunded.orderBy pair.first).first =
        .ok first ∧
      netLeg tokenPrefix (provided.orderBy pair.first).second (refunded.orderBy pair.first).second =
        .ok second ∧
      fields.get? "share" = some share ∧ r = {
        kind := .provide
        sender := (fields.get? "sender").getD ""
        contract := pair.contract
        legs := { first, second }
        share := pair.share
        shareAmount := share
        refund := some (refunded.orderBy pair.first).toList } := by
  simp only [refundedProvide, bind_eq_ok, pure_eq_ok, Fields.value_eq_ok] at h
  obtain ⟨text, htext, provided, hprovided, refundText, hrefund, refunded, hrefunded, first, hfirst,
    second, hsecond, share, hshare, rfl⟩ := h
  exact ⟨text, provided, refundText, refunded, first, second, share, htext, hprovided, hrefund,
    hrefunded, hfirst, hsecond, hshare, rfl⟩

/-- A provision is refunded in part, or not at all. -/
theorem exists_of_provide (h : s.provide fields pair = .ok r) :
    plainProvide fields pair = .ok r ∨
      ∃ tokenPrefix, refundedProvide tokenPrefix fields pair = .ok r := by
  unfold provide at h
  split at h
  · exact .inl h
  · exact .inl h
  · exact .inr ⟨_, h⟩
  · split at h
    · exact .inr ⟨_, h⟩
    · exact .inl h

theorem withdraw_eq_ok (h : s.withdraw fields pair = .ok r) :
    ∃ text legs share, fields.get? "refund_assets" = some text ∧
      s.withdrawnLegs text pair = .ok legs ∧ fields.get? "withdrawn_share" = some share ∧ r = {
        kind := .withdraw
        sender := (fields.get? "sender").getD ""
        contract := pair.contract
        legs
        share := pair.share
        shareAmount := share } := by
  simp only [withdraw, bind_eq_ok, pure_eq_ok, Fields.value_eq_ok] at h
  obtain ⟨text, htext, legs, hlegs, share, hshare, rfl⟩ := h
  exact ⟨text, legs, share, htext, hlegs, hshare, rfl⟩

theorem swap_eq_ok (h : s.swap fields pair = .ok r) :
    r.kind = .swap ∧ r.contract = pair.contract := by
  have hplain {r : Record} (h : plainSwap fields pair = .ok r) :
      r.kind = .swap ∧ r.contract = pair.contract := by
    obtain ⟨_, _, _, _, _, _, _, -, -, -, -, -, -, -, rfl⟩ := plainSwap_eq_ok h
    exact ⟨rfl, rfl⟩
  obtain h | ⟨plain, _, _, _, _, _, _, hp, -, -, -, -, -, -, rfl⟩ := exists_of_swap h
  · exact hplain h
  · have hswap := hplain hp
    split <;> exact ⟨hswap.1, hswap.2⟩

theorem provide_eq_ok (h : s.provide fields pair = .ok r) :
    r.kind = .provide ∧ r.contract = pair.contract := by
  obtain h | ⟨_, h⟩ := exists_of_provide h
  · obtain ⟨_, _, _, -, -, -, rfl⟩ := plainProvide_eq_ok h
    exact ⟨rfl, rfl⟩
  · obtain ⟨_, _, _, _, _, _, _, -, -, -, -, -, -, -, rfl⟩ := refundedProvide_eq_ok h
    exact ⟨rfl, rfl⟩

/-- The actions that have a meaning, and the kind of record that each gives. -/
theorem handle_eq_ok {action : String} (h : s.handle action fields pair = .ok r) :
    r.contract = pair.contract ∧
      (action = Action.swap ∧ s.swap fields pair = .ok r ∧ r.kind = .swap ∨
        action = Action.provide ∧ s.provide fields pair = .ok r ∧ r.kind = .provide ∨
        action = Action.withdraw ∧ s.withdraw fields pair = .ok r ∧ r.kind = .withdraw) := by
  unfold handle at h
  split at h
  · obtain ⟨hkind, hcontract⟩ := swap_eq_ok h
    exact ⟨hcontract, .inl ⟨‹_›, h, hkind⟩⟩
  · split at h
    · obtain ⟨hkind, hcontract⟩ := provide_eq_ok h
      exact ⟨hcontract, .inr (.inl ⟨‹_›, h, hkind⟩)⟩
    · split at h
      · have hr := withdraw_eq_ok h
        obtain ⟨_, _, _, -, -, -, rfl⟩ := hr
        exact ⟨rfl, .inr (.inr ⟨‹_›, h, rfl⟩)⟩
      · cases h

end Strategy

end PoolLedger
