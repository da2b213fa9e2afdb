import PoolLedger.Extraction
import PoolLedger.Proofs.Registry
import PoolLedger.Proofs.Scan
import PoolLedger.Proofs.Shape

/-!
# Transactions that concern no pair

A transaction in which no attribute names the factory or a registered pair is `Profile.Unrelated`.
Nothing is extracted from it, nothing is registered and nothing is flagged. The readers of creations
and of pair actions do not even look at it, but those of transfers check the shape of every transfer
before they ask whom it concerns. So extraction succeeds exactly when all transfers are in good
shape (`Profile.IsShapely`), and otherwise it fails over a shape (`extract_of_unrelated`).

`Settles` says this of each step: it comes to a value under a condition, and
otherwise refuses a shape.
-/

namespace PoolLedger

/-! ## Readings that refuse a shape or come to a known value -/

/-- The reading comes to the value if the condition holds, and otherwise refuses the shape of
something. It flags nothing in either case. -/
def Settles {α : Type} (m : Flagging α) (a : α) (good : Prop) : Prop :=
  ∀ flags, (good → m flags = (.ok a, flags)) ∧
    (¬good → ∃ e, e.category = .structuralMismatch ∧ m flags = (.error e, flags))

namespace Settles

variable {α β : Type} {m : Flagging α} {k : α → Flagging β} {a : α} {b : β} {P Q : Prop}

theorem pure (a : α) : Settles (pure a) a True :=
  fun _ => ⟨fun _ => rfl, fun h => absurd trivial h⟩

theorem congr (h : Settles m a P) (hPQ : P ↔ Q) : Settles m a Q := by
  rwa [propext hPQ] at h

theorem lift {x : Except ReadError α} (hok : P → x = .ok a) (hP : (∃ a, x = .ok a) → P)
    (hx : RefusesShape x) : Settles (liftM x) a P := by
  intro flags
  refine ⟨fun h => run_lift_eq_ok.2 ⟨hok h, rfl⟩, fun h => ?_⟩
  cases x with
  | error e => exact ⟨e, hx e rfl, rfl⟩
  | ok a => exact absurd (hP ⟨a, rfl⟩) h

theorem bind (hm : Settles m a P) (hk : P → Settles (k a) b Q) : Settles (m >>= k) b (P ∧ Q) := by
  intro flags
  rw [run_bind]
  by_cases hP : P
  · rw [(hm flags).1 hP]
    exact ⟨fun h => (hk hP flags).1 h.2, fun h => (hk hP flags).2 fun hQ => h ⟨hP, hQ⟩⟩
  · obtain ⟨e, he, hrun⟩ := (hm flags).2 hP
    rw [hrun]
    exact ⟨fun h => absurd h.1 hP, fun _ => ⟨e, he, rfl⟩⟩

theorem map (hm : Settles m a P) (g : α → β) : Settles (m >>= fun a => Pure.pure (g a)) (g a) P :=
  (hm.bind fun _ => pure (g a)).congr (and_iff_left trivial)

theorem bind_ok {x : Except ReadError α} (hx : x = .ok a) (hk : Settles (k a) b Q) :
    Settles (liftM x >>= k) b Q := by
  intro flags
  rw [run_bind, run_lift_eq_ok.2 ⟨hx, rfl⟩]
  exact hk flags

theorem mapM {ι : Type} {k : ι → Flagging β} {P : ι → Prop} {l : List ι}
    (h : ∀ i ∈ l, Settles (k i) b (P i)) :
    Settles (l.mapM k) (l.map fun _ => b) (∀ i ∈ l, P i) := by
  induction l with
  | nil =>
    rw [List.mapM_nil]
    exact (pure []).congr (by simp)
  | cons i l ih =>
    rw [List.mapM_cons]
    have hrest := ih fun j hj => h j (List.mem_cons_of_mem _ hj)
    have hall := (h i List.mem_cons_self).bind
      (k := fun c => l.mapM k >>= fun bs => Pure.pure (c :: bs))
      fun _ => hrest.map (b :: ·)
    exact hall.congr (by simp)

end Settles

/-- Where no reading matters there are no records. -/
theorem settles_kept {ι : Type} {read : ι → Flagging (Option Record)} {tx : RawTx} {found : List ι}
    {P : Prop} (h : Settles (found.mapM read) (found.map fun _ => none) P) :
    Settles (do let readings ← found.mapM read
                return (readings.filterMap id).map (·.stamped tx)) [] P := by
  have hnone : ((found.map fun _ => (none : Option Record)).filterMap id).map (·.stamped tx) =
      [] := by
    simp
  exact hnone ▸ h.map fun readings => (readings.filterMap id).map (·.stamped tx)

/-! ## The readers of transfers -/

theorem mem_keys_of_mem_transferFields {action : String} {required : List String}
    (h : (action, required) ∈ Layout.transferFields) :
    "from" ∈ required ∧ "to" ∈ required ∧ "amount" ∈ required := by
  simp only [Layout.transferFields, List.mem_cons, Prod.mk.injEq, List.not_mem_nil, or_false] at h
  rcases h with ⟨-, rfl⟩ | ⟨-, rfl⟩ <;> decide

namespace Profile

variable {p : Profile} {height : Int} {registry : Registry} {tx : RawTx} {attrs : List Attribute}

theorem settles_readToken (h : ∀ a ∈ attrs, a.value ∉ registry.contracts) :
    Settles ((p.tokenReader height).read registry attrs) none (p.IsTokenTransfer height attrs) := by
  have hperm : ((p.tokenReader height).layout.prepare attrs).Perm attrs := Layout.prepare_perm _ _
  have hfields : Settles (liftM ((p.tokenReader height).fields attrs))
      (((p.tokenReader height).layout.prepare attrs).map fun a => (a.key, a.value))
      (p.IsTokenTransfer height attrs) := by
    refine .lift (fun hshape => ?_) exists_fields_iff.1 (TokenReader.refusesShape_fields _ _)
    obtain ⟨fields, hok⟩ := exists_fields_iff.2 hshape
    rw [hok, (TokenReader.fields_eq_ok.1 hok).2.1]
  refine (hfields.bind (Q := True) fun hshape => ?_).congr (and_iff_left trivial)
  obtain ⟨action, required, hlisted, -, hhas, -⟩ := hshape.complete
  obtain ⟨hfrom, hto, -⟩ := mem_keys_of_mem_transferFields hlisted
  have hkeys := hperm.map (·.key)
  have hdistinct := hkeys.nodup_iff.2 hshape.distinct
  obtain ⟨sender, hsender, hmem⟩ := Fields.exists_value hdistinct (hkeys.mem_iff.2 (hhas _ hfrom))
  obtain ⟨recipient, hrecipient, hmem'⟩ := Fields.exists_value hdistinct
    (hkeys.mem_iff.2 (hhas _ hto))
  have hparty : registry.party sender recipient = .ok none :=
    Registry.party_eq_none (h _ (hperm.mem_iff.1 hmem)) (h _ (hperm.mem_iff.1 hmem'))
  exact .bind_ok hsender (.bind_ok hrecipient (.bind_ok hparty (.pure none)))

theorem settles_readBankTransfer (hkeys : (attrs.map (·.key)).Perm transferKeys)
    (h : ∀ a ∈ attrs, a.value ∉ registry.contracts) :
    Settles (readBankTransfer 0 registry attrs) none (∀ a ∈ attrs, a.value ≠ "") := by
  have hlen : (attrs.length : Int) = (transferKeys.length : Nat) + (0 : Int) := by
    rw [← hkeys.length_eq, List.length_map, Int.add_zero]
  have hshape : Settles
      (liftM (checkShape .bankTransfer RecordKind.transfer.name transferKeys.length 0
      attrs)) ⟨⟩ (∀ a ∈ attrs, a.value ≠ "") :=
    .lift (fun hvalued => checkShape_eq_ok.2 ⟨hlen, hvalued⟩)
      (fun ⟨_, hok⟩ => (checkShape_eq_ok.1 hok).2)
      (refusesShape_checkShape _ _ _ _ _)
  -- Once the shape is checked, nothing fails: neither side is a pair.
  refine (hshape.bind (Q := True) fun _ => ?_).congr (and_iff_left trivial)
  have hdistinct : (attrs.map (·.key)).Nodup := hkeys.nodup_iff.2 (by decide)
  have hfrom : "sender" ∈ attrs.map (·.key) := hkeys.mem_iff.2 (by decide)
  have hto : "recipient" ∈ attrs.map (·.key) := hkeys.mem_iff.2 (by decide)
  obtain ⟨sender, hsender, hmem⟩ := Fields.exists_value hdistinct hfrom
  obtain ⟨recipient, hrecipient, hmem'⟩ := Fields.exists_value hdistinct hto
  have hparty : registry.party sender recipient = .ok none :=
    Registry.party_eq_none (h _ hmem) (h _ hmem')
  exact .bind_ok (Fields.read_eq_ok_iff.2 ⟨hdistinct, rfl⟩)
    (.bind_ok hsender (.bind_ok hrecipient (.bind_ok hparty (.pure none))))

/-! ## One entry -/

theorem mem_attributes_of_mem_prepare {e : Entry} {a : Attribute}
    (h : a ∈ (p.prepare e).attributes) :
    a ∈ e.attributes := by
  unfold prepare at h
  split at h
  · split at h
    · exact List.mem_of_mem_filter ((arrange_perm _ _).mem_iff.1 h)
    · exact h
  · exact h

theorem keys_of_mem_bankRule {entries : List Entry} (h : attrs ∈ p.bankRule.findIn entries) :
    (attrs.map (·.key)).Perm transferKeys := by
  obtain ⟨keys, hne, hrule, hperm⟩ : ∃ (keys : List String) (hne : keys ≠ []),
      p.bankRule = .bankTransfer keys hne ∧ keys.Perm transferKeys := by
    unfold bankRule
    split
    · exact ⟨sortedTransferKeys, by decide, rfl, by decide⟩
    · exact ⟨transferKeys, by decide, rfl, .refl _⟩
  rw [hrule] at h
  obtain ⟨hfits, hlen⟩ := Rule.fits_of_mem_findIn h
  rw [Rule.keys_of_fits hfits (hlen rfl), Rule.bankTransfer, List.map_map]
  simpa [Function.comp_def] using hperm

/-- The transfers in some entries are in good shape. -/
def IsShapely (p : Profile) (height : Int) (entries : List Entry) : Prop :=
  (∀ m ∈ p.tokenRule.findIn entries, p.IsTokenTransfer height m) ∧
    ∀ m ∈ p.bankRule.findIn (entries.map p.prepare), ∀ a ∈ m, a.value ≠ ""

theorem isShapely_cons {e : Entry} {rest : List Entry} :
    p.IsShapely height (e :: rest) ↔ p.IsShapely height [e] ∧ p.IsShapely height rest := by
  rw [IsShapely, IsShapely, IsShapely, List.map_cons, Rule.findIn_cons _ e rest,
    Rule.findIn_cons _ (p.prepare e), List.map_singleton]
  simp only [List.mem_append, or_imp, forall_and]
  tauto

variable {e : Entry} (h : ∀ a ∈ e.attributes, a.value ∉ registry.contracts)

include h

theorem pairActions_of_unrelated : p.pairActions height registry tx [e] = .ok [] := by
  have hnone : (p.pairRule registry.contracts).findIn [e] = [] := by
    refine Rule.findIn_eq_nil rfl ?_
    intro e' he' a ha
    rw [List.mem_singleton.1 he'] at ha
    simp [RuleItem.accepts, Filter.accepts, h a ha]
  rw [pairActions, hnone]
  rfl

theorem settles_tokenTransfers : Settles (p.tokenTransfers height registry tx [e]) []
    (∀ m ∈ p.tokenRule.findIn [e], p.IsTokenTransfer height m) := by
  refine settles_kept (.mapM fun m hm => settles_readToken fun a ha => ?_)
  obtain ⟨e', he', hmem⟩ := Rule.mem_attributes_of_mem_findIn hm ha
  exact h a (List.mem_singleton.1 he' ▸ hmem)

theorem settles_bankTransfers : Settles (p.bankTransfers registry tx [p.prepare e]) []
    (∀ m ∈ p.bankRule.findIn [p.prepare e], ∀ a ∈ m, a.value ≠ "") := by
  refine settles_kept (.mapM fun m hm =>
    settles_readBankTransfer (keys_of_mem_bankRule hm) fun a ha => ?_)
  obtain ⟨e', he', hmem⟩ := Rule.mem_attributes_of_mem_findIn hm ha
  exact h a (mem_attributes_of_mem_prepare (List.mem_singleton.1 he' ▸ hmem))

theorem settles_findings :
    Settles (p.findings height registry tx e) {} (p.IsShapely height [e]) := by
  have hminted : p.minted registry tx e [] = .ok [] := by
    unfold minted
    split <;> rfl
  refine .bind_ok (pairActions_of_unrelated h) (.bind_ok hminted ?_)
  exact (settles_tokenTransfers h).bind fun _ => (settles_bankTransfers h).map _

omit h

/-! ## Whole transactions -/

theorem settles_allFindings {entries : List Entry}
    (h : ∀ e ∈ entries, ∀ a ∈ e.attributes, a.value ∉ registry.contracts) :
    Settles (p.allFindings height registry tx entries) {} (p.IsShapely height entries) := by
  induction entries with
  | nil =>
    refine (Settles.pure ({} : Findings)).congr ?_
    simp [IsShapely, Rule.findIn]
  | cons e rest ih =>
    have hhere : Settles (p.findings height registry tx e) {} (p.IsShapely height [e]) :=
      settles_findings (h e List.mem_cons_self)
    have hrest := ih fun e he => h e (List.mem_cons_of_mem _ he)
    exact (hhere.bind fun _ => hrest.map (Findings.append {})).congr isShapely_cons.symm

/-- Nothing in a transaction names the factory or a registered pair. -/
def Unrelated (p : Profile) (registry : Registry) (tx : RawTx) : Prop :=
  ∀ e ∈ tx.entries, ∀ a ∈ e.attributes, a.value ≠ p.factory ∧ a.value ∉ registry.contracts

theorem Unrelated.creations (h : p.Unrelated registry tx) : p.creations tx tx.entries = .ok [] := by
  have hnone : p.creationRule.findIn tx.entries = [] := by
    refine Rule.findIn_eq_nil rfl ?_
    intro e he a ha
    simp [RuleItem.accepts, Filter.accepts, (h e he a ha).1]
  rw [Profile.creations, hnone]
  rfl

/-- **Nothing is extracted from an unrelated transaction, registered or flagged.** Extraction
succeeds exactly when the transfers are in good shape, and otherwise fails over a shape. -/
theorem extract_of_unrelated (p : Profile) (height : Int) (tx : RawTx) (known : Knowledge)
    (h : p.Unrelated known.registry tx) :
    (p.IsShapely height tx.entries → p.extract height tx known = (.ok [], known)) ∧
      (¬p.IsShapely height tx.entries → ∃ e, e.category = .structuralMismatch ∧
        p.extract height tx known = (.error e, known)) := by
  have hall : Settles (p.allFindings height known.registry tx tx.entries) {}
      (p.IsShapely height tx.entries) := settles_allFindings fun e he a ha => (h e he a ha).2
  have hextract : p.extract height tx known =
      ((p.allFindings height known.registry tx tx.entries known.flags).1.map
        fun found => found.records tx.sender,
        { known with flags :=
          (p.allFindings height known.registry tx tx.entries known.flags).2 }) := by
    rw [extract, h.creations]
    rfl
  rw [hextract]
  constructor
  · intro hshapely
    rw [(hall known.flags).1 hshapely]
    rfl
  · intro hshapely
    obtain ⟨e, he, hrun⟩ := (hall known.flags).2 hshapely
    rw [hrun]
    exact ⟨e, he, rfl⟩

end Profile

/-! A profile with one pair, and transactions that do not concern it. -/

def phoenixProfile : Profile where
  deployment := .phoenix
  chainId := "phoenix-1"
  factory := "terra1maker"
  factory_ne := by decide

def onePair : Knowledge where
  registry := .ofList [{
    contract := "terra1pair", share := "terra1share", first := "uluna", second := "terra1token" }]

/-- A transfer of some other token, which also moves coins. -/
def strangeTx : RawTx where
  hash := "A1"
  sender := "terra1user"
  entries := [
    { kind := "wasm"
      attributes := [⟨"_contract_address", "terra1other"⟩, ⟨"action", "transfer"⟩,
        ⟨"from", "terra1user"⟩, ⟨"to", "terra1friend"⟩, ⟨"amount", "1"⟩] },
    { kind := "transfer"
      attributes := [⟨"recipient", "terra1friend"⟩, ⟨"sender", "terra1user"⟩,
        ⟨"amount", "5uluna"⟩] }]

theorem extract_strangeTx : phoenixProfile.Unrelated onePair.registry strangeTx ∧
    phoenixProfile.IsShapely 1 strangeTx.entries ∧
    phoenixProfile.extract 1 strangeTx onePair = (.ok [], onePair) := by
  have hunrelated : phoenixProfile.Unrelated onePair.registry strangeTx := by
    unfold Profile.Unrelated
    decide +kernel
  have htokens : phoenixProfile.tokenRule.findIn strangeTx.entries =
      strangeTx.entries.head?.toList.map (·.attributes) := by decide +kernel
  have hshapely : phoenixProfile.IsShapely 1 strangeTx.entries := by
    refine ⟨?_, by decide +kernel⟩
    intro m hm
    rw [htokens] at hm
    rw [List.mem_singleton.1 hm]
    exact ⟨by decide, by decide, Action.transfer, ["amount", "from", "to"], by decide, by decide,
      by decide, by decide⟩
  exact ⟨hunrelated, hshapely,
    (Profile.extract_of_unrelated phoenixProfile 1 strangeTx onePair hunrelated).1 hshapely⟩

/-- A transfer of some other token that does not say to whom. -/
def halfTx : RawTx where
  hash := "A1"
  sender := "terra1user"
  entries := [{
    kind := "wasm"
    attributes := [⟨"_contract_address", "terra1other"⟩, ⟨"action", "transfer"⟩,
      ⟨"from", "terra1user"⟩, ⟨"amount", "1"⟩] }]

/-- **An unrelated transaction can fail**: its transfers are checked before it is asked whom they
concern. -/
theorem refused_unrelated : phoenixProfile.Unrelated onePair.registry halfTx ∧
    (phoenixProfile.extract 1 halfTx onePair).1 =
      .error (.wrongLength Action.transfer .tokenTransfer 4 5) := by
  refine ⟨?_, by decide +kernel⟩
  unfold Profile.Unrelated
  decide +kernel

end PoolLedger
