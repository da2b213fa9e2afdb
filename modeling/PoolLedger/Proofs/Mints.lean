import PoolLedger.Proofs.Origin
import PoolLedger.Proofs.Segments

/-!
# Tokens minted to pairs

Beside a provision, a token that is minted to a pair counts as the first provision of the
pair. A mint is looked for at the front of a sub-event: its contract, the action, the amount
and the recipient, in this order (`Rule.find_firstProvide`). So the first provisions of a
transaction are the mints that lie so (`Profile.firstProvisions_of_extract`), and two things
follow that one would not expect.

* **Theorem (`Profile.firstProvisions_of_logged`).** A mint that names its recipient before the
  amount is passed over, though the chain may log the two in either order
  (`unordered_mint_left_out`).
* **Theorem (`Profile.firstProvisions_are_shares_iff`).** Nothing says that the token is the share
  token of the pair: any token counts that is minted to a pair beside a provision
  (`foreign_mint_recorded`).
-/

namespace PoolLedger

/-- A token is minted to a pair. -/
structure Mint where
  token : String
  amount : String
  pair : String
deriving DecidableEq, Repr

namespace Mint

/-- The attributes by which a mint is found. -/
def attributes (m : Mint) : List Attribute :=
  [⟨contractKey, m.token⟩, ⟨actionKey, Action.mint⟩, ⟨"amount", m.amount⟩, ⟨"to", m.pair⟩]

/-- A sub-event in which a chain logs a mint: the recipient may stand before the amount,
and an index may follow. -/
def logged (m : Mint) (recipientFirst : Bool) (index : Option String) : List Attribute :=
  [⟨contractKey, m.token⟩, ⟨actionKey, Action.mint⟩] ++
    (if recipientFirst then [⟨"to", m.pair⟩, ⟨"amount", m.amount⟩]
      else [⟨"amount", m.amount⟩, ⟨"to", m.pair⟩]) ++
    index.toList.map (⟨indexKey, ·⟩)

/-- The mint to one of the given pairs that a segment opens with. -/
def ofSegment? (pairs : List String) : List Attribute → Option Mint
  | contract :: action :: amount :: recipient :: _ =>
    if contract.key = contractKey ∧ action = ⟨actionKey, Action.mint⟩ ∧ amount.key = "amount" ∧
        recipient.key = "to" ∧ recipient.value ∈ pairs then
      some { token := contract.value, amount := amount.value, pair := recipient.value }
    else none
  | _ => none

/-- The first provision that a mint counts as. -/
def provision (m : Mint) : Record where
  kind := .firstProvide
  contract := m.pair
  share := m.token
  shareAmount := m.amount

/-- The same in a transaction. -/
def record (m : Mint) (tx : RawTx) : Record :=
  { m.provision.stamped tx with sender := tx.sender }

/-- Everything that is said about a mint has a value. -/
def IsValued (m : Mint) : Prop :=
  m.token ≠ "" ∧ m.amount ≠ "" ∧ m.pair ≠ ""

variable {pairs : List String} {m : Mint} {segment : List Attribute}

/-! ## Segments that open with a mint -/

theorem ofSegment?_eq_some :
    ofSegment? pairs segment = some m ↔
      m.pair ∈ pairs ∧ ∃ rest, segment = m.attributes ++ rest := by
  constructor
  · intro h
    unfold ofSegment? at h
    split at h
    · rename_i contract action amount recipient rest
      split at h
      · rename_i hkeys
        obtain ⟨hcontract, rfl, hamount, hto, hpair⟩ := hkeys
        obtain rfl := Option.some.inj h
        refine ⟨hpair, rest, ?_⟩
        rw [attributes, ← hcontract, ← hamount, ← hto]
        rfl
      · cases h
    · cases h
  · rintro ⟨hpair, rest, rfl⟩
    exact if_pos ⟨rfl, rfl, rfl, rfl, hpair⟩

/-- The rule of first provisions fits the segments that open with a mint to one of the pairs. -/
theorem fits_firstProvide_iff :
    Rule.fits (Rule.firstProvide pairs).items segment ↔ ∃ m, ofSegment? pairs segment = some m := by
  simp only [ofSegment?_eq_some]
  constructor
  · intro h
    -- The rule has four items, so shorter segments do not fit.
    match segment, h with
    | [_], h | [_, _], h | [_, _, _], h => simp [Rule.firstProvide, Rule.fits] at h
    | contract :: action :: amount :: recipient :: rest, h =>
      simp only [Rule.firstProvide, Rule.fits, RuleItem.accepts, Filter.accepts, Bool.and_eq_true,
        beq_iff_eq, List.contains_iff_mem, Bool.and_true] at h
      obtain ⟨hcontract, ⟨haction, hmint⟩, hamount, hto, hpair⟩ := h
      refine ⟨{ token := contract.value, amount := amount.value, pair := recipient.value }, hpair,
        rest, ?_⟩
      cases contract
      cases action
      cases amount
      cases recipient
      simp_all [attributes]
  · rintro ⟨m, hpair, rest, rfl⟩
    simp [attributes, Rule.firstProvide, Rule.fits, RuleItem.accepts, Filter.accepts, hpair]

theorem isHeadedBy_firstProvide (pairs : List String) :
    (Rule.firstProvide pairs).IsHeadedBy contractKey where
  boundary := rfl
  key_ne := by decide
  items := by
    refine ⟨_, _, rfl, rfl, ?_⟩
    intro i hi
    simp only [List.mem_cons, List.not_mem_nil, or_false] at hi
    rcases hi with rfl | rfl | rfl <;> simp [contractKey, actionKey]

/-- **The rule of first provisions finds the mints that segments open with.** -/
theorem find_firstProvide (pairs : List String) (attrs : List Attribute) :
    (Rule.firstProvide pairs).find attrs =
      ((segments contractKey attrs).filterMap (ofSegment? pairs)).map Mint.attributes := by
  rw [Rule.find_eq_fronts (isHeadedBy_firstProvide pairs)]
  induction segments contractKey attrs with
  | nil => rfl
  | cons segment rest ih =>
    by_cases h : Rule.fits (Rule.firstProvide pairs).items segment
    · obtain ⟨m, hm⟩ := fits_firstProvide_iff.1 h
      obtain ⟨-, more, hsegment⟩ := ofSegment?_eq_some.1 hm
      rw [List.filter_cons_of_pos h, List.filterMap_cons_some hm, List.map_cons, List.map_cons, ih,
        hsegment]
      rfl
    · have hnone : ofSegment? pairs segment = none :=
        Option.eq_none_iff_forall_ne_some.2 fun m hm => h (fits_firstProvide_iff.2 ⟨m, hm⟩)
      rw [List.filter_cons_of_neg h, List.filterMap_cons_none hnone, ih]

/-- A mint that is logged with the amount first opens its segment, and one with the
recipient first does not. -/
theorem ofSegment?_logged (m : Mint) (recipientFirst : Bool) (index : Option String)
    (hpair : m.pair ∈ pairs) :
    ofSegment? pairs (m.logged recipientFirst index) = if recipientFirst then none else some m := by
  cases recipientFirst with
  | true => rfl
  | false => exact ofSegment?_eq_some.2 ⟨hpair, _, rfl⟩

theorem find?_attributes_eq_none : m.attributes.find? (·.value == "") = none ↔ m.IsValued := by
  simp [attributes, IsValued, Action.mint]

/-- A mint is read as a first provision if everything about it has a value. -/
theorem read_of_isValued (h : m.IsValued) : readFirstProvide 0 m.attributes = .ok m.provision := by
  have hshape : checkShape .firstProvide RecordKind.firstProvide.name 4 0 m.attributes =
      .ok () := by
    rw [checkShape, find?_attributes_eq_none.2 h]
    rfl
  unfold readFirstProvide
  rw [hshape]
  rfl

theorem read_eq_ok {r : Record} (h : readFirstProvide 0 m.attributes = .ok r) :
    m.IsValued ∧ r = m.provision := by
  obtain ⟨_, hshape, -⟩ := bind_eq_ok.1 h
  have hvalued : m.IsValued := by
    rw [← find?_attributes_eq_none]
    unfold checkShape at hshape
    split at hshape
    · split at hshape
      · cases hshape
      · assumption
    · cases hshape
  exact ⟨hvalued, (Except.ok.inj ((read_of_isValued hvalued).symm.trans h)).symm⟩

end Mint

/-! ## Mints that count -/

/-- The mints to the given pairs in an entry. -/
def Entry.mints (pairs : List String) (e : Entry) : List Mint :=
  if e.kind = EventType.wasm.name then
    (segments contractKey e.attributes).filterMap (Mint.ofSegment? pairs)
  else []

theorem Entry.findIn_firstProvide (pairs : List String) (e : Entry) :
    (Rule.firstProvide pairs).findIn [e] = (e.mints pairs).map Mint.attributes := by
  unfold mints
  by_cases hkind : e.kind = EventType.wasm.name
  · have hrule : e.kind = (Rule.firstProvide pairs).kind := hkind
    rw [if_pos hkind, ← Mint.find_firstProvide]
    simp [Rule.findIn, hrule]
  · rw [if_neg hkind]
    exact Rule.findIn_singleton_of_kind_ne hkind

namespace Profile

/-- Whether a provision is read from an entry. -/
def provides (p : Profile) (height : Int) (registry : Registry) (tx : RawTx) (e : Entry) : Bool :=
  match p.pairActions height registry tx [e] with
  | .ok actions => actions.any (·.kind = .provide)
  | .error _ => false

/-- The mints in an entry that count as first provisions: those beside a provision. -/
def mints (p : Profile) (height : Int) (registry : Registry) (tx : RawTx) (e : Entry) : List Mint :=
  if p.deployment.hasFirstProvide && p.provides height registry tx e then e.mints registry.contracts
  else []

variable {p : Profile} {height : Int} {registry : Registry} {tx : RawTx} {e : Entry}
  {actions records : List Record} {flags flags' : Flags} {known known' : Knowledge}

theorem mapM_readFirstProvide_eq_ok {ms : List Mint} :
    ((ms.map Mint.attributes).mapM fun m => return (← readFirstProvide 0 m).stamped tx) =
      .ok records ↔
      (∀ m ∈ ms, m.IsValued) ∧ records = ms.map (·.provision.stamped tx) := by
  induction ms generalizing records with
  | nil =>
    rw [List.map_nil, List.mapM_nil, pure_eq_ok, List.map_nil]
    exact ⟨fun h => ⟨nofun, h.symm⟩, fun h => h.2.symm⟩
  | cons m ms ih =>
    simp only [List.map_cons, mapM_cons_eq_ok, ih, bind_eq_ok, pure_eq_ok, List.forall_mem_cons]
    constructor
    · rintro ⟨_, ⟨r, hread, rfl⟩, _, ⟨hvalued, rfl⟩, rfl⟩
      obtain ⟨hfirst, rfl⟩ := Mint.read_eq_ok hread
      exact ⟨⟨hfirst, hvalued⟩, rfl⟩
    · rintro ⟨⟨hfirst, hvalued⟩, rfl⟩
      exact ⟨_, ⟨_, Mint.read_of_isValued hfirst, rfl⟩, _, ⟨hvalued, rfl⟩, rfl⟩

/-- **The first provisions in an entry are read from the mints that count**, if everything
about these has a value. -/
theorem minted_eq_ok (hactions : p.pairActions height registry tx [e] = .ok actions) :
    p.minted registry tx e actions = .ok records ↔
      (∀ m ∈ p.mints height registry tx e, m.IsValued) ∧
        records = (p.mints height registry tx e).map (·.provision.stamped tx) := by
  have hnone : (pure [] : Except ReadError (List Record)) = .ok records ↔
      (∀ m ∈ ([] : List Mint), m.IsValued) ∧
      records = ([] : List Mint).map (·.provision.stamped tx) := by
    rw [pure_eq_ok]
    exact ⟨fun h => ⟨nofun, h.symm⟩, fun h => h.2.symm⟩
  unfold minted firstProvides? mints provides
  rw [hactions, Entry.findIn_firstProvide]
  cases p.deployment.hasFirstProvide with
  | false => exact hnone
  | true =>
    show (if actions.any (·.kind = .provide) then _ else _) = _ ↔ _
    rw [Bool.true_and]
    by_cases hprovides : actions.any (·.kind = .provide)
    · rw [if_pos hprovides, if_pos hprovides]
      exact mapM_readFirstProvide_eq_ok
    · rw [if_neg hprovides, if_neg hprovides]
      exact hnone

/-! ## First provisions of a transaction -/

theorem kind_of_pairActions (h : p.pairActions height registry tx [e] = .ok actions) {r : Record}
    (hr : r ∈ actions) : r.kind ≠ .firstProvide := by
  obtain ⟨attrs, -, h⟩ := exists_of_mem_mapM h hr
  simp only [PairReader.read, bind_eq_ok, pure_eq_ok] at h
  obtain ⟨r', ⟨accepted, -, hhandle⟩, rfl⟩ := h
  intro hkind
  rcases (Strategy.handle_eq_ok hhandle).2 with ⟨-, -, hk⟩ | ⟨-, -, hk⟩ | ⟨-, -, hk⟩
  all_goals cases hk.symm.trans hkind

theorem Yields.kind_of_transfer {party : Party} {legs : List Asset} {r : Record}
    (h : p.Yields height registry tx (.transfer party legs) r) : r.kind ≠ .firstProvide := by
  rw [List.mem_singleton.1 h.kind_mem]
  decide

end Profile

/-- The first provisions among some records. -/
def firstProvisions (records : List Record) : List Record :=
  records.filter (·.kind = .firstProvide)

theorem firstProvisions_append (records more : List Record) :
    firstProvisions (records ++ more) = firstProvisions records ++ firstProvisions more :=
  List.filter_append ..

theorem firstProvisions_eq_nil {records : List Record} (h : ∀ r ∈ records, r.kind ≠ .firstProvide) :
    firstProvisions records = [] := by
  apply List.filter_eq_nil_iff.2
  intro r hr
  simpa using h r hr

namespace Profile

variable {p : Profile} {height : Int} {registry : Registry} {tx : RawTx} {e : Entry}
  {entries : List Entry}
  {found : Findings} {records : List Record} {flags flags' : Flags} {known known' : Knowledge}

theorem firstProvisions_of_findings
    (h : p.findings height registry tx e flags = (.ok found, flags')) :
    firstProvisions found.actions = (p.mints height registry tx e).map (·.provision.stamped tx) ∧
      ∀ m ∈ p.mints height registry tx e, m.IsValued := by
  simp only [findings, run_bind_eq_ok, run_lift_eq_ok, run_pure_eq_ok] at h
  obtain ⟨actions, _, ⟨hactions, rfl⟩, minted, _, ⟨hminted, rfl⟩, tokens, _, -, coins, _, -, rfl,
    -⟩ := h
  obtain ⟨hvalued, rfl⟩ := (minted_eq_ok hactions).1 hminted
  refine ⟨?_, hvalued⟩
  rw [firstProvisions_append, firstProvisions_eq_nil fun r hr => kind_of_pairActions hactions hr,
    List.nil_append]
  apply List.filter_eq_self.2
  intro r hr
  obtain ⟨m, -, rfl⟩ := List.mem_map.1 hr
  rfl

theorem firstProvisions_of_allFindings
    (h : p.allFindings height registry tx entries flags = (.ok found, flags')) :
    firstProvisions found.actions =
        (entries.flatMap (p.mints height registry tx)).map (·.provision.stamped tx) ∧
      ∀ e ∈ entries, ∀ m ∈ p.mints height registry tx e, m.IsValued := by
  induction entries generalizing found flags flags' with
  | nil =>
    rw [← (run_pure_eq_ok.1 h).1]
    exact ⟨rfl, nofun⟩
  | cons e rest ih =>
    simp only [allFindings, run_bind_eq_ok, run_pure_eq_ok] at h
    obtain ⟨here, _, hhere, more, _, hmore, rfl, -⟩ := h
    obtain ⟨hfirst, hvalued⟩ := firstProvisions_of_findings hhere
    obtain ⟨hrest, hvalued'⟩ := ih hmore
    refine ⟨?_, List.forall_mem_cons.2 ⟨hvalued, hvalued'⟩⟩
    rw [Findings.append, firstProvisions_append, hfirst, hrest, List.flatMap_cons, List.map_append]

/-- **The first provisions of a transaction are the mints that count**, in order. -/
theorem firstProvisions_of_extract (h : p.extract height tx known = (.ok records, known')) :
    firstProvisions records =
        (tx.entries.flatMap (p.mints height known'.registry tx)).map (·.record tx) ∧
      ∀ e ∈ tx.entries, ∀ m ∈ p.mints height known'.registry tx e, m.IsValued := by
  obtain ⟨created, found, hcreated, -, hfound, rfl⟩ := extract_eq_ok h
  obtain ⟨hactions, hvalued⟩ := firstProvisions_of_allFindings hfound
  have haccounts := accounts_of_allFindings (fun _ he => he) hfound
  refine ⟨?_, hvalued⟩
  -- Creations and transfers are of other kinds.
  have hcreations : firstProvisions (created.map fun r => { r with sender := tx.sender }) = [] := by
    apply firstProvisions_eq_nil
    intro r hr
    obtain ⟨r', hr', rfl⟩ := List.mem_map.1 hr
    obtain ⟨o, ho, hyields⟩ := yields_of_creations height known'.registry hcreated hr'
    rw [hyields.kind_eq_creation_iff.2 ho]
    exact nofun
  have htokens (actions : List Record) :
      firstProvisions (withoutDuplicates actions found.tokenTransfers) = [] := by
    apply firstProvisions_eq_nil
    intro r hr
    obtain ⟨party, leg, hyields⟩ := haccounts.tokenTransfers r (List.mem_filter.1 hr).1
    exact hyields.kind_of_transfer
  have hcoins (actions : List Record) :
      firstProvisions (withoutDuplicates actions found.bankTransfers) = [] := by
    apply firstProvisions_eq_nil
    intro r hr
    obtain ⟨party, legs, hyields⟩ := haccounts.bankTransfers r (List.mem_filter.1 hr).1
    exact hyields.kind_of_transfer
  -- A sender is put in, and the kind is left as it is.
  have hsent : firstProvisions (found.actions.map fun r => { r with sender := tx.sender }) =
      (firstProvisions found.actions).map fun r => { r with sender := tx.sender } :=
    List.filter_map ..
  rw [firstProvisions_append, hcreations, List.nil_append, Findings.records, firstProvisions_append,
    firstProvisions_append, htokens, hcoins, List.append_nil, List.append_nil, hsent, hactions,
    List.map_map]
  rfl

/-! ## Mints that name the recipient first -/

/-- The mints that segments open with, around one that is logged. -/
theorem filterMap_ofSegment?_logged {pairs : List String} {m : Mint} (hpair : m.pair ∈ pairs)
    (pre post : List (List Attribute)) (recipientFirst : Bool) (index : Option String) :
    (pre ++ m.logged recipientFirst index :: post).filterMap (Mint.ofSegment? pairs) =
      pre.filterMap (Mint.ofSegment? pairs) ++ (if recipientFirst then [] else [m]) ++
        post.filterMap (Mint.ofSegment? pairs) := by
  have hlogged := m.ofSegment?_logged recipientFirst index hpair
  rw [List.filterMap_append, List.append_assoc]
  congr 1
  cases recipientFirst with
  | true => exact List.filterMap_cons_none hlogged
  | false => exact List.filterMap_cons_some hlogged

/-- **A mint beside a provision gives one first provision if the amount stands before the
recipient, and none otherwise.** What else is minted in the transaction gives the same either
way, and reading the mints of the entry fails only over one of those that count: if something
about it has no value. -/
theorem firstProvisions_of_logged {before after : List Entry} {pre post : List (List Attribute)}
    {m : Mint} {recipientFirst : Bool} {index : Option String} (hhas : p.deployment.hasFirstProvide)
    (hentries : tx.entries = before ++ e :: after) (hkind : e.kind = EventType.wasm.name)
    (hsegments : segments contractKey e.attributes = pre ++ m.logged recipientFirst index :: post) :
    (∀ registry actions, p.pairActions height registry tx [e] = .ok actions →
      ((∃ minted, p.minted registry tx e actions = .ok minted) ↔
        ∀ m ∈ p.mints height registry tx e, m.IsValued)) ∧
      ∀ known records known', p.extract height tx known = (.ok records, known') →
        p.provides height known'.registry tx e → m.pair ∈ known'.registry.contracts →
          firstProvisions records =
            (before.flatMap (p.mints height known'.registry tx) ++
                pre.filterMap (Mint.ofSegment? known'.registry.contracts)).map (·.record tx) ++
              (if recipientFirst then [] else [m.record tx]) ++
              (post.filterMap (Mint.ofSegment? known'.registry.contracts) ++
                after.flatMap (p.mints height known'.registry tx)).map (·.record tx) := by
  constructor
  · intro registry actions hactions
    simp only [minted_eq_ok hactions]
    exact ⟨fun ⟨_, hvalued, _⟩ => hvalued, fun hvalued => ⟨_, hvalued, rfl⟩⟩
  · intro known records known' hextract hprovides hpair
    have hmints : p.mints height known'.registry tx e =
        pre.filterMap (Mint.ofSegment? known'.registry.contracts) ++
          (if recipientFirst then [] else [m]) ++
          post.filterMap (Mint.ofSegment? known'.registry.contracts) := by
      rw [← filterMap_ofSegment?_logged hpair, ← hsegments, mints, hhas, hprovides]
      exact if_pos hkind
    rw [(firstProvisions_of_extract hextract).1, hentries, List.flatMap_append, List.flatMap_cons,
      hmints]
    cases recipientFirst <;> simp

end Profile

def mainnetProfile : Profile where
  deployment := .dezswap .mainnet
  chainId := "dimension_37-1"
  factory := "xpla1builder"
  factory_ne := by decide

def mintedPair : Pair where
  contract := "xpla1pair"
  share := "xpla1share"
  first := "xpla1token"
  second := "axpla"

/-- The attributes of a provision to it. -/
def mintedProvide : List Attribute :=
  [⟨"_contract_address", "xpla1pair"⟩, ⟨"action", "provide_liquidity"⟩,
    ⟨"assets", "2000xpla1token, 2000axpla"⟩, ⟨"receiver", "xpla1user"⟩, ⟨"sender", "xpla1user"⟩,
    ⟨"share", "1000"⟩]

/-- An entry in which a mint is logged beside the provision. -/
def mintingEntry (m : Mint) (recipientFirst : Bool) : Entry where
  kind := EventType.wasm.name
  attributes := mintedProvide ++ m.logged recipientFirst none

def mintingTx (m : Mint) (recipientFirst : Bool) : RawTx where
  hash := "A1"
  sender := "xpla1user"
  entries := [mintingEntry m recipientFirst]

/-- What is extracted from it, and what is known afterwards. -/
def minting (m : Mint) (recipientFirst : Bool) : Except ReadError (List Record) × Knowledge :=
  mainnetProfile.extract 100 (mintingTx m recipientFirst) { registry := .ofList [mintedPair] }

theorem minting_eq_ok {m : Mint} {recipientFirst : Bool}
    (h : (minting m recipientFirst).1.toOption.isSome) :
    minting m recipientFirst =
      (.ok ((minting m recipientFirst).1.toOption.getD []), (minting m recipientFirst).2) :=
  Prod.ext (eq_ok_getD h) rfl

/-- The share tokens of the first provision. -/
def shareMint : Mint where
  token := "xpla1share"
  amount := "1000"
  pair := "xpla1pair"

/-- The mint is found if the amount stands first. -/
theorem ordered_mint_found :
    mainnetProfile.deployment.hasFirstProvide ∧
      segments contractKey (mintingEntry shareMint false).attributes =
        [mintedProvide] ++ shareMint.logged false none :: [] ∧
      ∃ records known', minting shareMint false = (.ok records, known') ∧
        mainnetProfile.provides 100 known'.registry (mintingTx shareMint false)
          (mintingEntry shareMint false) ∧
        shareMint.pair ∈ known'.registry.contracts ∧
        firstProvisions records = [shareMint.record (mintingTx shareMint false)] := by
  have hhas : mainnetProfile.deployment.hasFirstProvide := by decide
  have hentries : (mintingTx shareMint false).entries =
      [] ++ mintingEntry shareMint false :: [] := rfl
  have hsegments : segments contractKey (mintingEntry shareMint false).attributes =
      [mintedProvide] ++ shareMint.logged false none :: [] := by decide
  have hsome : (minting shareMint false).1.toOption.isSome := by decide +kernel
  have hextract := minting_eq_ok hsome
  have hprovides : mainnetProfile.provides 100 (minting shareMint false).2.registry
      (mintingTx shareMint false) (mintingEntry shareMint false) := by decide +kernel
  have hpair : shareMint.pair ∈ (minting shareMint false).2.registry.contracts := by decide +kernel
  refine ⟨hhas, hsegments, _, _, hextract, hprovides, hpair, ?_⟩
  rw [(Profile.firstProvisions_of_logged hhas hentries rfl hsegments).2 _ _ _ hextract hprovides
    hpair]
  decide +kernel

/-- **A first provision may be missed**: nothing is made of the mint if the recipient stands
first. -/
theorem unordered_mint_left_out :
    segments contractKey (mintingEntry shareMint true).attributes =
        [mintedProvide, shareMint.logged true none] ∧
      ∃ records known', minting shareMint true = (.ok records, known') ∧
        shareMint.pair ∈ known'.registry.contracts ∧ (∃ r ∈ records, r.kind = .provide) ∧
        firstProvisions records = [] := by
  have hsome : (minting shareMint true).1.toOption.isSome := by decide +kernel
  have hextract := minting_eq_ok hsome
  refine ⟨by decide, _, _, hextract, ?_, ?_, ?_⟩
  · decide +kernel
  · decide +kernel
  · decide +kernel

namespace Profile

/-! ## Mints of other tokens -/

/-- **The first provisions of a transaction are issues of share tokens exactly if every
token is a share token that is minted to a pair beside a provision.** They are of
registered pairs in any case. -/
theorem firstProvisions_are_shares_iff {p : Profile} {height : Int} {tx : RawTx}
    {known known' : Knowledge} {records : List Record}
    (h : p.extract height tx known = (.ok records, known')) :
    (∀ r ∈ firstProvisions records, r.contract ∈ known'.registry.contracts) ∧
      ((∀ r ∈ firstProvisions records, ∀ pair, known'.registry.get? r.contract = some pair →
          r.share = pair.share) ↔
        ∀ e ∈ tx.entries, ∀ m ∈ p.mints height known'.registry tx e, ∀ pair,
          known'.registry.get? m.pair = some pair → m.token = pair.share) ∧
      firstProvisions records =
        (tx.entries.flatMap (p.mints height known'.registry tx)).map (·.record tx) := by
  have hmints := (firstProvisions_of_extract h).1
  refine ⟨?_, ?_, hmints⟩
  · intro r hr
    exact contract_mem_of_extract h (List.mem_filter.1 hr).1
  · simp only [hmints, List.forall_mem_map, List.mem_flatMap, forall_exists_index, and_imp]
    constructor
    · intro hall e he m hm
      exact hall m e he hm
    · intro hall m e he hm
      exact hall e he m hm

end Profile

/-- The share tokens of the pair count as such. -/
theorem share_mint_recorded :
    ∃ records known', minting shareMint false = (.ok records, known') ∧
      ∀ r ∈ firstProvisions records, ∀ pair, known'.registry.get? r.contract = some pair →
        r.share = pair.share := by
  have hsome : (minting shareMint false).1.toOption.isSome := by decide +kernel
  have hextract := minting_eq_ok hsome
  refine ⟨_, _, hextract, (Profile.firstProvisions_are_shares_iff hextract).2.1.2 ?_⟩
  have hmints : mainnetProfile.mints 100 (minting shareMint false).2.registry
      (mintingTx shareMint false)
      (mintingEntry shareMint false) = [shareMint] := by decide +kernel
  have hget : (minting shareMint false).2.registry.get? shareMint.pair = some mintedPair := by
    decide +kernel
  intro e he m hm pair hpair
  obtain rfl := List.mem_singleton.1 he
  rw [hmints] at hm
  obtain rfl := List.mem_singleton.1 hm
  obtain rfl := Option.some.inj (hget.symm.trans hpair)
  rfl

/-- A token that has nothing to do with the pair. -/
def foreignMint : Mint where
  token := "xpla1other"
  amount := "7"
  pair := "xpla1pair"

/-- **Any token counts toward the supply of a pair** if it is minted to it beside a provision. -/
theorem foreign_mint_recorded :
    ∃ records known', minting foreignMint false = (.ok records, known') ∧
      (∃ r ∈ firstProvisions records, known'.registry.get? r.contract = some mintedPair ∧
        r.share = "xpla1other" ∧ mintedPair.share = "xpla1share") ∧
      (({ records := records.map (.ofRecord "dimension_37-1" 100) } : Store).impliedPools
        "dimension_37-1" 100 100).map (·.map (·.supply)) = .ok ["1007"] := by
  have hsome : (minting foreignMint false).1.toOption.isSome := by decide +kernel
  have hextract := minting_eq_ok hsome
  refine ⟨_, _, hextract, ?_, ?_⟩
  · decide +kernel
  · decide +kernel

end PoolLedger
