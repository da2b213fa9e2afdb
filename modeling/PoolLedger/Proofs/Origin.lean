import PoolLedger.Proofs.Scan
import PoolLedger.Proofs.Transfer
import PoolLedger.Sync.Run

/-!
# Where records come from

Every record of a transaction has an `Origin`: a creation, an action of a pair, a first provision,
or a transfer. `Profile.Yields` says how the record arises from it, given the registry after the
creations of the transaction. The main result is `yields_of_extract`: extraction gives no other
records. It is put together from one statement for each of the five kinds of sub-event.

An origin gives records of its own kinds (`Yields.kind_mem`). Whatever is not a creation is found at
a registered pair (`Finds.contract_mem`), and the registry grows by the creations alone
(`registry_of_extract`).
-/

namespace PoolLedger

/-! ## Origins -/

/-- What a record is read from. -/
inductive Origin where
  | creation (attrs : List Attribute)
  | action (accepted : PairAction)
  | firstProvide (attrs : List Attribute)
  | transfer (party : Party) (legs : List Asset)
deriving DecidableEq, Repr

/-- Whether a record is read from the announcement of a pair. -/
def Origin.IsCreation : Origin → Prop
  | creation _ => True
  | _ => False

/-- Whether a record is read from what a pair does, or from its first provision. -/
def Origin.IsAction : Origin → Prop
  | action _ | firstProvide _ => True
  | _ => False

/-- The kinds of record that are read from an origin. -/
def Origin.kinds : Origin → List RecordKind
  | creation _ => [.creation]
  | action _ => [.swap, .provide, .withdraw]
  | firstProvide _ => [.firstProvide]
  | transfer _ _ => [.transfer]

theorem Origin.IsAction.not_isCreation {o : Origin} (h : o.IsAction) : ¬o.IsCreation := by
  cases o with
  | creation _ => exact absurd h id
  | _ => exact id

namespace Profile

/-- A transaction tells that a sender moves some legs to a recipient: of a token, or coins. -/
inductive Moves (p : Profile) (height : Int) (tx : RawTx) : String → String → List Asset → Prop
  | token {attrs fields sender recipient token amount} :
      attrs ∈ p.tokenRule.findIn tx.entries → (p.tokenReader height).fields attrs = .ok fields →
      fields.get? "from" = some sender → fields.get? "to" = some recipient →
      fields.get? (p.tokenReader height).layout.contractKey = some token →
      fields.get? "amount" = some amount →
      Moves p height tx sender recipient [{ addr := token, amount }]
  | coins {attrs fields sender recipient text coins} :
      attrs ∈ p.bankRule.findIn (tx.entries.map p.prepare) →
      Fields.read .bankTransfer RecordKind.transfer.name attrs = .ok fields →
      fields.get? "sender" = some sender → fields.get? "recipient" = some recipient →
      fields.get? "amount" = some text → Asset.ofCoins text = .ok coins →
      Moves p height tx sender recipient coins

/-- What record an origin in a transaction gives. -/
inductive Yields (p : Profile) (height : Int) (registry : Registry) (tx : RawTx) :
    Origin → Record → Prop
  | creation {attrs r} :
      attrs ∈ p.creationRule.findIn tx.entries → readCreation 0 attrs = .ok r →
      Yields p height registry tx (.creation attrs) { r.stamped tx with sender := tx.sender }
  | action {attrs accepted r} :
      attrs ∈ (p.pairRule registry.contracts).findIn tx.entries →
      (p.pairReader height).accept registry attrs = .ok accepted →
      (p.deployment.strategy height).handle accepted.action accepted.fields accepted.pair = .ok r →
      Yields p height registry tx (.action accepted) { r.stamped tx with sender := tx.sender }
  | firstProvide {attrs r} :
      attrs ∈ (Rule.firstProvide registry.contracts).findIn tx.entries →
      readFirstProvide 0 attrs = .ok r →
      Yields p height registry tx (.firstProvide attrs) { r.stamped tx with sender := tx.sender }
  | transfer {sender recipient party legs flags flags' r} :
      p.Moves height tx sender recipient legs →
      registry.party sender recipient = .ok (some party) →
      party.record sender recipient legs flags = (.ok r, flags') →
      Yields p height registry tx (.transfer party legs) (r.stamped tx)

/-- A record is read from something in a transaction that is not a creation. -/
def Finds (p : Profile) (height : Int) (registry : Registry) (tx : RawTx) (r : Record) : Prop :=
  ∃ o, ¬o.IsCreation ∧ p.Yields height registry tx o r

variable {p : Profile} {height : Int} {registry : Registry} {tx : RawTx} {o : Origin} {r : Record}

/-- **An origin gives records of its own kinds only.** -/
theorem Yields.kind_mem (h : p.Yields height registry tx o r) : r.kind ∈ o.kinds := by
  cases h with
  | creation _ hread =>
    obtain ⟨_, _, _, _, rfl⟩ := readCreation_eq_ok hread
    exact List.mem_singleton_self _
  | @action _ _ r _ _ hhandle =>
    show r.kind ∈ [RecordKind.swap, .provide, .withdraw]
    rcases (Strategy.handle_eq_ok hhandle).2 with ⟨-, -, hkind⟩ | ⟨-, -, hkind⟩ | ⟨-, -, hkind⟩
    all_goals
      rw [hkind]
      decide
  | firstProvide _ hread =>
    obtain ⟨_, _, _, _, -, -, -, -, rfl⟩ := readFirstProvide_eq_ok hread
    exact List.mem_singleton_self _
  | transfer _ _ hrecord => exact List.mem_singleton.2 (Party.record_eq_ok hrecord).1

theorem Yields.kind_eq_creation_iff (h : p.Yields height registry tx o r) :
    r.kind = .creation ↔ o.IsCreation := by
  have hkinds := h.kind_mem
  cases o with
  | creation _ => exact iff_of_true (List.mem_singleton.1 hkinds) trivial
  | _ => exact iff_of_false (fun hkind => by simp [hkind, Origin.kinds] at hkinds) id

theorem Yields.exists_transfer (h : p.Yields height registry tx o r) (hkind : r.kind = .transfer) :
    ∃ party legs, o = .transfer party legs := by
  have hkinds := hkind ▸ h.kind_mem
  cases o with
  | transfer party legs => exact ⟨party, legs, rfl⟩
  | _ => simp [Origin.kinds] at hkinds

/-- **What is found in a transaction belongs to a registered pair.** -/
theorem Finds.contract_mem (h : p.Finds height registry tx r) :
    r.contract ∈ registry.contracts := by
  obtain ⟨o, ho, h⟩ := h
  cases h with
  | creation => exact absurd trivial ho
  | @action attrs accepted r _ haccept hhandle =>
    obtain ⟨contract, hget⟩ := PairReader.accept_eq_ok haccept
    show r.contract ∈ _
    rw [(Strategy.handle_eq_ok hhandle).1]
    exact Registry.mem_contracts_of_get? hget
  | @firstProvide _ r hattrs hread =>
    show r.contract ∈ _
    exact readFirstProvide_contract_mem hattrs hread
  | @transfer _ _ _ _ _ _ r _ hparty hrecord =>
    show r.contract ∈ _
    rw [(Party.record_eq_ok hrecord).2.1]
    exact Registry.party_mem_contracts hparty

theorem Finds.kind_ne (h : p.Finds height registry tx r) : r.kind ≠ .creation := by
  obtain ⟨o, ho, h⟩ := h
  exact fun hkind => ho (h.kind_eq_creation_iff.1 hkind)

end Profile

/-! ## The five kinds of sub-event -/

/-- What a rule finds in one entry it finds in all of them. -/
theorem Rule.mem_findIn_of_mem {r : Rule} {e : Entry} {entries : List Entry} {m : List Attribute}
    (h : m ∈ r.findIn [e]) (he : e ∈ entries) : m ∈ r.findIn entries := by
  obtain ⟨e', he', hkind, hm⟩ := mem_findIn.1 h
  rw [List.mem_singleton] at he'
  subst he'
  exact mem_findIn.2 ⟨e', he, hkind, hm⟩

namespace Profile

variable {p : Profile} {height : Int} {registry : Registry} {tx : RawTx} {e : Entry}
  {records : List Record} {r : Record} {flags flags' : Flags}

theorem yields_of_creations (height : Int) (registry : Registry) {created : List Record}
    (h : p.creations tx tx.entries = .ok created) (hr : r ∈ created) :
    ∃ o, o.IsCreation ∧ p.Yields height registry tx o { r with sender := tx.sender } := by
  obtain ⟨attrs, hattrs, h⟩ := exists_of_mem_mapM h hr
  simp only [bind_eq_ok, pure_eq_ok] at h
  obtain ⟨r', hread, rfl⟩ := h
  exact ⟨.creation attrs, trivial, .creation hattrs hread⟩

theorem yields_of_pairActions (he : e ∈ tx.entries)
    (h : p.pairActions height registry tx [e] = .ok records) (hr : r ∈ records) :
    ∃ o, o.IsAction ∧ p.Yields height registry tx o { r with sender := tx.sender } := by
  obtain ⟨attrs, hattrs, h⟩ := exists_of_mem_mapM h hr
  simp only [PairReader.read, bind_eq_ok, pure_eq_ok] at h
  obtain ⟨r', ⟨accepted, haccepted, hhandle⟩, rfl⟩ := h
  exact ⟨.action accepted, trivial, .action (Rule.mem_findIn_of_mem hattrs he) haccepted hhandle⟩

theorem yields_of_firstProvides {found : Except ReadError (List Record)} (he : e ∈ tx.entries)
    (hfound : p.firstProvides? registry tx [e] = some found) (h : found = .ok records)
    (hr : r ∈ records) :
    ∃ o, o.IsAction ∧ p.Yields height registry tx o { r with sender := tx.sender } := by
  unfold firstProvides? at hfound
  split at hfound
  · injection hfound with hfound
    rw [← hfound] at h
    obtain ⟨attrs, hattrs, h⟩ := exists_of_mem_mapM h hr
    simp only [bind_eq_ok, pure_eq_ok] at h
    obtain ⟨r', hread, rfl⟩ := h
    exact ⟨.firstProvide attrs, trivial, .firstProvide (Rule.mem_findIn_of_mem hattrs he) hread⟩
  · cases hfound

theorem yields_of_minted {actions : List Record} (he : e ∈ tx.entries)
    (h : p.minted registry tx e actions = .ok records) (hr : r ∈ records) :
    ∃ o, o.IsAction ∧ p.Yields height registry tx o { r with sender := tx.sender } := by
  unfold minted at h
  split at h
  · rename_i found hfound
    split at h
    · exact yields_of_firstProvides he hfound h hr
    · rw [← pure_eq_ok.1 h] at hr
      cases hr
  · rw [← pure_eq_ok.1 h] at hr
    cases hr

/-- The records of transfers come from those readings that matter. -/
theorem mem_of_readings {read : List Attribute → Flagging (Option Record)}
    {found : List (List Attribute)}
    (h : (do let readings ← found.mapM read
             return (readings.filterMap id).map (·.stamped tx) : Flagging (List Record)) flags =
      (.ok records, flags')) (hr : r ∈ records) :
    ∃ attrs ∈ found, ∃ r' flags₁ flags₂, read attrs flags₁ = (.ok (some r'), flags₂) ∧
      r = r'.stamped tx := by
  obtain ⟨readings, _, hm, h⟩ := run_bind_eq_ok.1 h
  obtain ⟨rfl, -⟩ := run_pure_eq_ok.1 h
  obtain ⟨r', hr', rfl⟩ := List.mem_map.1 hr
  obtain ⟨reading, hreading, heq⟩ := List.mem_filterMap.1 hr'
  obtain ⟨attrs, hattrs, flags₁, flags₂, hread⟩ := run_mapM_mem hm hreading
  rw [show reading = some r' from heq] at hread
  exact ⟨attrs, hattrs, r', flags₁, flags₂, hread, rfl⟩

theorem yields_of_tokenTransfers (he : e ∈ tx.entries)
    (h : p.tokenTransfers height registry tx [e] flags = (.ok records, flags')) (hr : r ∈ records) :
    ∃ party leg, p.Yields height registry tx (.transfer party [leg]) r := by
  obtain ⟨attrs, hattrs, r', flags₁, flags₂, hread, rfl⟩ := mem_of_readings h hr
  obtain ⟨fields, sender, recipient, party, token, amount, hfields, hsender, hrecipient, hparty,
    htoken, hamount, hrecord⟩ := TokenReader.read_eq_ok hread
  have hmoves : p.Moves height tx sender recipient [{ addr := token, amount }] :=
    .token (Rule.mem_findIn_of_mem hattrs he) hfields hsender hrecipient htoken hamount
  exact ⟨party, _, .transfer hmoves hparty hrecord⟩

theorem yields_of_bankTransfers (he : e ∈ tx.entries)
    (h : p.bankTransfers registry tx [p.prepare e] flags = (.ok records, flags'))
    (hr : r ∈ records) : ∃ party legs, p.Yields height registry tx (.transfer party legs) r := by
  obtain ⟨attrs, hattrs, r', flags₁, flags₂, hread, rfl⟩ := mem_of_readings h hr
  obtain ⟨fields, sender, recipient, party, text, coins, hfields, hsender, hrecipient, hparty,
    htext, hcoins, hrecord⟩ := readBankTransfer_eq_ok hread
  have he : p.prepare e ∈ tx.entries.map p.prepare := List.mem_map_of_mem he
  have hmoves : p.Moves height tx sender recipient coins :=
    .coins (Rule.mem_findIn_of_mem hattrs he) hfields hsender hrecipient htext hcoins
  exact ⟨party, coins, .transfer hmoves hparty hrecord⟩

/-! ## Whole transactions -/

/-- Everything among the findings has an origin in the transaction; actions are yet to get its
sender. The transfer of a token moves one leg. -/
structure Accounts (p : Profile) (height : Int) (registry : Registry) (tx : RawTx)
    (found : Findings) : Prop where
  actions : ∀ r ∈ found.actions,
    ∃ o, o.IsAction ∧ p.Yields height registry tx o { r with sender := tx.sender }
  tokenTransfers : ∀ r ∈ found.tokenTransfers,
    ∃ party leg, p.Yields height registry tx (.transfer party [leg]) r
  bankTransfers : ∀ r ∈ found.bankTransfers,
    ∃ party legs, p.Yields height registry tx (.transfer party legs) r

theorem Accounts.empty : p.Accounts height registry tx {} where
  actions _ hr := absurd hr List.not_mem_nil
  tokenTransfers _ hr := absurd hr List.not_mem_nil
  bankTransfers _ hr := absurd hr List.not_mem_nil

theorem Accounts.append {a b : Findings} (ha : p.Accounts height registry tx a)
    (hb : p.Accounts height registry tx b) : p.Accounts height registry tx (a.append b) where
  actions r hr := (List.mem_append.1 hr).elim (ha.actions r) (hb.actions r)
  tokenTransfers r hr := (List.mem_append.1 hr).elim (ha.tokenTransfers r) (hb.tokenTransfers r)
  bankTransfers r hr := (List.mem_append.1 hr).elim (ha.bankTransfers r) (hb.bankTransfers r)

theorem accounts_of_findings {found : Findings} (he : e ∈ tx.entries)
    (h : p.findings height registry tx e flags = (.ok found, flags')) :
    p.Accounts height registry tx found := by
  simp only [findings, run_bind_eq_ok, run_lift_eq_ok, run_pure_eq_ok] at h
  obtain ⟨actions, _, ⟨hactions, rfl⟩, minted, _, ⟨hminted, rfl⟩, tokens, _, htokens, coins, _,
    hcoins, rfl, -⟩ := h
  refine ⟨?_, fun r hr => yields_of_tokenTransfers he htokens hr,
    fun r hr => yields_of_bankTransfers he hcoins hr⟩
  intro r hr
  rcases List.mem_append.1 hr with hr | hr
  · exact yields_of_pairActions he hactions hr
  · exact yields_of_minted he hminted hr

theorem accounts_of_allFindings {entries : List Entry} {found : Findings}
    (hsub : ∀ e ∈ entries, e ∈ tx.entries)
    (h : p.allFindings height registry tx entries flags = (.ok found, flags')) :
    p.Accounts height registry tx found := by
  induction entries generalizing found flags flags' with
  | nil =>
    rw [← (run_pure_eq_ok.1 h).1]
    exact .empty
  | cons e rest ih =>
    simp only [allFindings, run_bind_eq_ok, run_pure_eq_ok] at h
    obtain ⟨here, _, hhere, more, _, hmore, rfl, -⟩ := h
    have hfirst := accounts_of_findings (hsub e List.mem_cons_self) hhere
    exact hfirst.append (ih (fun e he => hsub e (List.mem_cons_of_mem _ he)) hmore)

/-- What the findings leave after duplicates are taken out is among them. -/
theorem Accounts.finds_of_mem_records {found : Findings} (h : p.Accounts height registry tx found)
    (hr : r ∈ found.records tx.sender) : p.Finds height registry tx r := by
  simp only [Findings.records, withoutDuplicates, List.mem_append, List.mem_map,
    List.mem_filter] at hr
  rcases hr with (⟨r, hr, rfl⟩ | ⟨hr, -⟩) | ⟨hr, -⟩
  · obtain ⟨o, ho, hy⟩ := h.actions r hr
    exact ⟨o, ho.not_isCreation, hy⟩
  · obtain ⟨party, leg, hy⟩ := h.tokenTransfers r hr
    exact ⟨_, id, hy⟩
  · obtain ⟨party, legs, hy⟩ := h.bankTransfers r hr
    exact ⟨_, id, hy⟩

variable {known known' : Knowledge}

/-- What extraction gives: the creations, which are registered first, and what is found besides. -/
theorem extract_eq_ok (h : p.extract height tx known = (.ok records, known')) :
    ∃ created found, p.creations tx tx.entries = .ok created ∧
      known'.registry = known.registry.afterCreations created ∧
      p.allFindings height known'.registry tx tx.entries known.flags = (.ok found, known'.flags) ∧
      records = created.map (fun r => { r with sender := tx.sender }) ++
        found.records tx.sender := by
  unfold extract at h
  split at h
  · cases h
  · rename_i created hcreated
    rcases hall : p.allFindings height (known.registry.afterCreations created) tx tx.entries
      known.flags with ⟨outcome, flags⟩
    simp only [hall, Prod.mk.injEq] at h
    obtain ⟨houtcome, rfl⟩ := h
    obtain ⟨found, rfl, hrecords⟩ := map_eq_ok.1 houtcome
    exact ⟨created, found, hcreated, rfl, hall, hrecords.symm⟩

/-- **Every record of a transaction has an origin in it.** -/
theorem yields_of_extract (h : p.extract height tx known = (.ok records, known'))
    (hr : r ∈ records) :
    ∃ o, p.Yields height known'.registry tx o r := by
  obtain ⟨created, found, hcreated, -, hfound, rfl⟩ := extract_eq_ok h
  rcases List.mem_append.1 hr with hr | hr
  · obtain ⟨r', hr', rfl⟩ := List.mem_map.1 hr
    obtain ⟨o, -, hy⟩ := yields_of_creations height known'.registry hcreated hr'
    exact ⟨o, hy⟩
  · obtain ⟨o, -, hy⟩ := (accounts_of_allFindings (fun _ he => he) hfound).finds_of_mem_records hr
    exact ⟨o, hy⟩

/-- The records of kind creation are those of the pairs that extraction registers. -/
theorem registry_of_extract (h : p.extract height tx known = (.ok records, known')) :
    known'.registry = known.registry.insertAll (createdPairs records) := by
  obtain ⟨created, found, hcreated, hregistry, hfound, rfl⟩ := extract_eq_ok h
  have hkept : ∀ r ∈ created, r.kind = .creation := fun r hr => by
    obtain ⟨o, ho, hy⟩ := yields_of_creations height {} hcreated hr
    exact hy.kind_eq_creation_iff.2 ho
  have hleft : ∀ r ∈ found.records tx.sender, r.kind ≠ .creation := fun r hr =>
    ((accounts_of_allFindings (fun _ he => he) hfound).finds_of_mem_records hr).kind_ne
  have hcreatedPairs : createdPairs (created.map (fun r => { r with sender := tx.sender }) ++
      found.records tx.sender) = created.map (·.createdPair) := by
    rw [createdPairs, List.filter_append, List.filter_eq_self.2, List.filter_eq_nil_iff.2,
      List.append_nil, List.map_map]
    · rfl
    · intro r hr
      simpa using hleft r hr
    · intro r hr
      obtain ⟨r', hr', rfl⟩ := List.mem_map.1 hr
      simpa using hkept r' hr'
  rw [hregistry, hcreatedPairs, Registry.afterCreations]

theorem contract_mem_of_extract (h : p.extract height tx known = (.ok records, known'))
    (hr : r ∈ records) : r.contract ∈ known'.registry.contracts := by
  by_cases hkind : r.kind = .creation
  · rw [registry_of_extract h, Registry.mem_contracts_insertAll]
    refine .inr (List.mem_map.2 ⟨r.createdPair, List.mem_map_of_mem ?_, rfl⟩)
    exact List.mem_filter.2 ⟨hr, by simp [hkind]⟩
  · obtain ⟨o, hy⟩ := yields_of_extract h hr
    exact Finds.contract_mem ⟨o, fun ho => hkind (hy.kind_eq_creation_iff.2 ho), hy⟩

end Profile

end PoolLedger
