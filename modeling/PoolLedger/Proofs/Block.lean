import PoolLedger.Proofs.Flags
import PoolLedger.Proofs.Origin

/-!
# Reading a block

The transactions of a block are read one after another, and the registry that one leaves is what the
next begins with. The registry grows by the pairs that the records create
(`registry_of_extractAll`), a record names a pair that is then registered
(`contract_mem_of_extractAll`), and flags make no difference (`extractAll_flags`).
-/

namespace PoolLedger

theorem createdPairs_append (a b : List Record) :
    createdPairs (a ++ b) = createdPairs a ++ createdPairs b := by
  rw [createdPairs, List.filter_append, List.map_append, createdPairs, createdPairs]

theorem mem_createdPairs {records : List Record} {q : Pair} :
    q ∈ createdPairs records ↔ ∃ r ∈ records, r.kind = .creation ∧ r.createdPair = q := by
  simp only [createdPairs, List.mem_map, List.mem_filter, beq_iff_eq, and_assoc]

namespace Profile

variable {p : Profile} {height : Int} {tx : RawTx} {txs : List RawTx} {known known' : Knowledge}
  {records : List Record} {r : Record}

theorem extractAll_cons_eq_ok :
    p.extractAll height (tx :: txs) known = (.ok records, known') ↔
      ∃ first between more, p.extract height tx known = (.ok first, between) ∧
        p.extractAll height txs between = (.ok more, known') ∧ records = first ++ more := by
  rw [extractAll]
  rcases p.extract height tx known with ⟨e | first, between⟩
  · exact ⟨nofun, fun ⟨_, _, _, h, _⟩ => nomatch h⟩
  · rcases hmore : p.extractAll height txs between with ⟨more, after⟩
    simp only [hmore, Prod.mk.injEq, map_eq_ok]
    constructor
    · rintro ⟨⟨more, rfl, rfl⟩, rfl⟩
      exact ⟨first, between, more, ⟨rfl, rfl⟩, hmore, rfl⟩
    · rintro ⟨first', between', more', ⟨hfirst, rfl⟩, hafter, rfl⟩
      obtain rfl := Except.ok.inj hfirst
      obtain ⟨rfl, rfl⟩ := Prod.mk.inj (hmore.symm.trans hafter)
      exact ⟨⟨more', rfl, rfl⟩, rfl⟩

/-- **Reading a block registers exactly the pairs that its records create.** -/
theorem registry_of_extractAll (h : p.extractAll height txs known = (.ok records, known')) :
    known'.registry = known.registry.insertAll (createdPairs records) := by
  induction txs generalizing known records with
  | nil =>
    obtain ⟨hrecords, rfl⟩ := Prod.mk.inj h
    obtain rfl := Except.ok.inj hrecords
    rfl
  | cons tx txs ih =>
    obtain ⟨first, between, more, hfirst, hmore, rfl⟩ := extractAll_cons_eq_ok.1 h
    rw [ih hmore, registry_of_extract hfirst, createdPairs_append, Registry.insertAll_append]

theorem contract_mem_of_extractAll (h : p.extractAll height txs known = (.ok records, known'))
    (hr : r ∈ records) : r.contract ∈ known'.registry.contracts := by
  induction txs generalizing known records with
  | nil =>
    obtain rfl := Except.ok.inj (Prod.mk.inj h).1
    cases hr
  | cons tx txs ih =>
    obtain ⟨first, between, more, hfirst, hmore, rfl⟩ := extractAll_cons_eq_ok.1 h
    rcases List.mem_append.1 hr with hr | hr
    · rw [registry_of_extractAll hmore, Registry.mem_contracts_insertAll]
      exact .inl (contract_mem_of_extract hfirst hr)
    · exact ih hmore hr

/-- Every record of a block has an origin in one of its transactions. -/
theorem yields_of_extractAll (h : p.extractAll height txs known = (.ok records, known'))
    (hr : r ∈ records) : ∃ tx ∈ txs, ∃ registry o, p.Yields height registry tx o r := by
  induction txs generalizing known records with
  | nil =>
    obtain rfl := Except.ok.inj (Prod.mk.inj h).1
    cases hr
  | cons tx txs ih =>
    obtain ⟨first, between, more, hfirst, hmore, rfl⟩ := extractAll_cons_eq_ok.1 h
    rcases List.mem_append.1 hr with hr | hr
    · exact ⟨tx, List.mem_cons_self, between.registry, yields_of_extract hfirst hr⟩
    · obtain ⟨tx', htx', hy⟩ := ih hmore hr
      exact ⟨tx', List.mem_cons_of_mem _ htx', hy⟩

/-! ## Flags make no difference -/

theorem extract_congr (p : Profile) (height : Int) (tx : RawTx) {a b : Knowledge}
    (h : a.registry = b.registry) :
    (p.extract height tx a).1 = (p.extract height tx b).1 ∧
      (p.extract height tx a).2.registry = (p.extract height tx b).2.registry := by
  unfold extract
  rw [h]
  cases p.creations tx tx.entries with
  | error e => exact ⟨rfl, h⟩
  | ok created =>
    have hsteady := (marks_allFindings p height (b.registry.afterCreations created) tx
      tx.entries).steady
      a.flags b.flags
    rcases ha : p.allFindings height (b.registry.afterCreations created) tx tx.entries a.flags
      with ⟨x, flags⟩
    rcases hb : p.allFindings height (b.registry.afterCreations created) tx tx.entries b.flags
      with ⟨y, flags'⟩
    rw [ha, hb] at hsteady
    have hxy : x = y := hsteady
    simp only [ha, hb, hxy, and_self]

theorem extractAll_congr (p : Profile) (height : Int) (txs : List RawTx) {a b : Knowledge}
    (h : a.registry = b.registry) :
    (p.extractAll height txs a).1 = (p.extractAll height txs b).1 ∧
      (p.extractAll height txs a).2.registry = (p.extractAll height txs b).2.registry := by
  induction txs generalizing a b with
  | nil => exact ⟨rfl, h⟩
  | cons tx txs ih =>
    obtain ⟨houtcome, hregistry⟩ := extract_congr p height tx h
    rw [extractAll, extractAll]
    rcases ha : p.extract height tx a with ⟨x, a'⟩
    rcases hb : p.extract height tx b with ⟨y, b'⟩
    rw [ha, hb] at houtcome hregistry
    have hxy : x = y := houtcome
    subst hxy
    cases x with
    | error e => exact ⟨rfl, hregistry⟩
    | ok first =>
      have hregistry : a'.registry = b'.registry := hregistry
      obtain ⟨hmore, hlast⟩ := ih hregistry
      exact ⟨congrArg (·.map (first ++ ·)) hmore, hlast⟩

/-- **What is flagged makes no difference to the records of a block.** -/
theorem extractAll_flags (p : Profile) (height : Int) (txs : List RawTx) (registry : Registry)
    (flags flags' : Flags) :
    (p.extractAll height txs { registry, flags }).1 =
      (p.extractAll height txs { registry, flags := flags' }).1 := by
  have h := extractAll_congr p height txs (a := { registry, flags })
    (b := { registry, flags := flags' }) rfl
  exact h.1

/-! ## What a block flags -/

/-- What comes of a transaction and which pairs it flags depends on the registry alone. -/
theorem extract_marks (p : Profile) (height : Int) (tx : RawTx) (registry : Registry) :
    ∃ outcome after contracts, ∀ flags : Flags, p.extract height tx { registry, flags } =
      (outcome, { registry := after, flags := flags.addAll contracts }) := by
  unfold extract
  cases p.creations tx tx.entries with
  | error e => exact ⟨.error e, registry, [], fun _ => rfl⟩
  | ok created =>
    obtain ⟨outcome, contracts, h⟩ :=
      marks_allFindings p height (registry.afterCreations created) tx tx.entries
    let created' := created.map fun r => { r with sender := tx.sender }
    refine ⟨outcome.map fun found => created' ++ found.records tx.sender,
      registry.afterCreations created, contracts, fun flags => ?_⟩
    simp only [h flags, created']

/-- **What comes of a block and which pairs it flags depends on the registry alone.** -/
theorem extractAll_marks (p : Profile) (height : Int) (txs : List RawTx) (registry : Registry) :
    ∃ outcome after contracts, ∀ flags : Flags, p.extractAll height txs { registry, flags } =
      (outcome, { registry := after, flags := flags.addAll contracts }) := by
  induction txs generalizing registry with
  | nil => exact ⟨.ok [], registry, [], fun _ => rfl⟩
  | cons tx txs ih =>
    obtain ⟨outcome, between, contracts, h⟩ := extract_marks p height tx registry
    cases outcome with
    | error e =>
      refine ⟨.error { hash := tx.hash, cause := e }, between, contracts, fun flags => ?_⟩
      rw [extractAll, h]
    | ok first =>
      obtain ⟨outcome, after, more, hmore⟩ := ih between
      refine ⟨outcome.map (first ++ ·), after, contracts ++ more, fun flags => ?_⟩
      rw [extractAll, h, Flags.addAll_append]
      simp only [hmore]

end Profile

end PoolLedger
