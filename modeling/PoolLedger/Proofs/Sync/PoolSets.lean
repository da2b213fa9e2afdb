import PoolLedger.Proofs.ChainPart
import PoolLedger.Proofs.Sync.Comparison
import PoolLedger.Proofs.Sync.ExactlyOnce
import PoolLedger.Source.Node

/-!
# The pools of the store and of the source

The contracts that records name are those of the pairs in the store (`Follower.Agreeing`): a record
names a pair that is registered when its block has been read, and a pair is stored with the record
of its creation. What is exempt from validation is among them.

So if the source gives one pool for each pair that it is asked about, as a node does
(`answersEach_node`), no run fails because a pool is unexpected or missing (`pool_sets_agree`).
-/

namespace PoolLedger

variable {σ : Type}

/-! ## Contracts -/

namespace Store

/-- The contracts that the records of a chain name. -/
def recordContracts (s : Store) (chain : String) : List String :=
  (s.records.filter (·.chain == chain)).map (·.contract)

/-- The contracts of the pairs of a chain. -/
def pairContracts (s : Store) (chain : String) : List String :=
  (s.pairs.filter (·.chain == chain)).map (·.contract)

theorem mem_contracts_registry (s : Store) (chain c : String) :
    c ∈ (s.registry chain).contracts ↔ c ∈ s.pairContracts chain := by
  rw [registry, Registry.mem_contracts_ofList, List.map_map]
  rfl

theorem mem_recordContracts {s : Store} {chain c : String} :
    c ∈ s.recordContracts chain ↔ ∃ r ∈ s.records, r.chain = chain ∧ r.contract = c := by
  simp only [recordContracts, List.mem_map, List.mem_filter, beq_iff_eq, and_assoc]

theorem recordContracts_insert {s s' : Store} {chain : String} {height : Int}
    {records : List Record} {pools : List Pool} {pairs : List Pair}
    (h : s.insert chain height records pools pairs = .ok s') :
    s'.recordContracts chain = s.recordContracts chain ++ records.map (·.contract) ∧
      s'.pairContracts chain = s.pairContracts chain ++ pairs.map (·.contract) ∧
      s'.exemptions chain = s.exemptions chain := by
  obtain ⟨-, rows, -, rfl⟩ := insert_eq_ok h
  refine ⟨?_, ?_, rfl⟩
  · rw [recordContracts, List.filter_append, List.map_append, filter_ofRecord_own, List.map_map]
    rfl
  · rw [pairContracts, List.filter_append, List.map_append, filter_ofPair_own, List.map_map]
    rfl

end Store

namespace Follower

/-- Records name the pairs in the store and no others, and only these are exempt. -/
structure Agreeing (f : Follower σ) (s : Store) : Prop where
  contracts : ∀ c, c ∈ s.recordContracts f.chain ↔ c ∈ s.pairContracts f.chain
  exempt : ∀ c ∈ s.exemptions f.chain, c ∈ s.pairContracts f.chain

variable {f : Follower σ} {s s' : Store} {journal : List Moment}

theorem Agreeing.keep (h : f.Agreeing s) (hrecords : s'.records = s.records)
    (hpairs : s'.pairs = s.pairs)

    (hexempt : ∀ c ∈ s'.exemptions f.chain, c ∈ s.exemptions f.chain ∨
      c ∈ s.recordContracts f.chain) :
    f.Agreeing s' := by
  have hcontracts : s'.pairContracts f.chain = s.pairContracts f.chain := by
    rw [Store.pairContracts, hpairs, Store.pairContracts]
  refine ⟨?_, ?_⟩
  · intro c
    rw [Store.recordContracts, hrecords, hcontracts]
    exact h.contracts c
  · intro c hc
    rw [hcontracts]
    exact (hexempt c hc).elim (h.exempt c) (h.contracts c).1

/-- A block that is written has records of registered pairs only, and brings its new pairs with the
records of their creation. -/
theorem Agreeing.write (h : f.Agreeing s) {height : Int} {txs : List RawTx} {records : List Record}
    {pools : List Pool}
    (hall : (f.profile.extractAll height txs { registry := s.registry f.chain }).1 = .ok records)
    (hinsert : s.insert f.chain height records pools (createdPairs records) = .ok s') :
    f.Agreeing s' := by
  obtain ⟨hrecords, hpairs, hexempt⟩ := Store.recordContracts_insert hinsert
  have hextract : f.profile.extractAll height txs { registry := s.registry f.chain } =
      (.ok records, (f.profile.extractAll height txs { registry := s.registry f.chain }).2) :=
    Prod.ext hall rfl
  refine ⟨?_, ?_⟩
  · intro c
    rw [hrecords, hpairs, List.mem_append, List.mem_append, h.contracts]
    constructor
    · -- A record of the block names a pair that was registered or is created with it.
      rintro (hc | hc)
      · exact .inl hc
      · obtain ⟨r, hr, rfl⟩ := List.mem_map.1 hc
        have hknown := Profile.contract_mem_of_extractAll hextract hr
        rw [Profile.registry_of_extractAll hextract, Registry.mem_contracts_insertAll] at hknown
        exact hknown.imp_left (s.mem_contracts_registry _ _).1
    · rintro (hc | hc)
      · exact .inl hc
      · obtain ⟨q, hq, rfl⟩ := List.mem_map.1 hc
        obtain ⟨r, hr, -, rfl⟩ := mem_createdPairs.1 hq
        exact .inr (List.mem_map_of_mem hr)
  · intro c hc
    rw [hpairs]
    exact List.mem_append_left _ (h.exempt c (hexempt ▸ hc))

theorem syncedHeight_snd (s : Store) (chain : String) :
    (s.syncedHeight chain).2.records = s.records ∧ (s.syncedHeight chain).2.pairs = s.pairs ∧
      (s.syncedHeight chain).2.exempt = s.exempt := by
  unfold Store.syncedHeight
  split <;> exact ⟨rfl, rfl, rfl⟩

/-- **Records and pairs agree in every store that can be reached.** -/
theorem Reached.agreeing (h : f.Reached s journal) : f.Agreeing s := by
  induction h with
  | start => exact ⟨fun c => Iff.rfl, nofun⟩
  | @opened s _ _ ih =>
    obtain ⟨hrecords, hpairs, hexempt⟩ := syncedHeight_snd s f.chain
    refine ih.keep hrecords hpairs fun c hc => .inl ?_
    rwa [Store.exemptions, hexempt] at hc
  | step _ hstep ih =>
    cases hstep with
    | plain _ hsame hexempt =>
      refine ih.keep hsame.records hsame.pairs fun c hc => .inl ?_
      rwa [Store.exemptions, hexempt] at hc
    | validated _ _ hvalidate =>
      have hsame := sameBlocks_of_validate hvalidate
      refine ih.keep hsame.records hsame.pairs ?_
      intro c hc
      -- Only validation exempts pairs, and it exempts pairs of records.
      rcases exemptions_of_validate hvalidate hc with hc | ⟨r, hr, rfl⟩
      · exact .inl hc
      · have hr := List.mem_filter.1 hr
        simp only [Bool.and_eq_true, beq_iff_eq] at hr
        exact .inr (Store.mem_recordContracts.2 ⟨r, hr.1, hr.2.1.1, rfl⟩)
    | wrote _ _ _ _ hall hinsert => exact ih.write (hall []) hinsert

end Follower

/-! ## Sources that give one pool for each pair -/

/-- If pools are told, there is one for each pair, and no other one. -/
def Deed.AnswersEach : Deed → Prop
  | listed _ pairs pools => (pools.map (·.contract)).Perm (pairs.map (·.contract))
  | _ => True

/-- A source that gives one pool for each pair, if it gives any. -/
def Source.AnswersEach (source : Source σ) : Prop :=
  ∀ height pairs s pools, (source.pools height pairs s).1 = .ok pools →
    (pools.map (·.contract)).Perm (pairs.map (·.contract))

theorem contract_of_readPool {pair : Pair} {data : Json} {pool : Pool}
    (h : Client.readPool pair data = .ok pool) : pool.contract = pair.contract := by
  unfold Client.readPool at h
  obtain ⟨members, -, h⟩ := bind_eq_ok.1 h
  obtain ⟨data, -, h⟩ := bind_eq_ok.1 h
  obtain ⟨assets, -, h⟩ := bind_eq_ok.1 h
  cases assets with
  | none => cases h
  | some both =>
    obtain ⟨_, -, h⟩ := bind_eq_ok.1 h
    obtain ⟨_, -, h⟩ := bind_eq_ok.1 h
    obtain ⟨_, -, h⟩ := bind_eq_ok.1 h
    obtain ⟨_, -, h⟩ := bind_eq_ok.1 h
    obtain ⟨_, -, h⟩ := bind_eq_ok.1 h
    exact pure_eq_ok.1 h ▸ rfl

/-- **A node gives one pool for each pair, in the order in which they are asked about.** -/
theorem contracts_of_node (c : Client σ) (height : Int) {pairs : List Pair} {line line' : Line σ}
    {pools : List Pool} (h : c.source.pools height pairs line = (.ok pools, line')) :
    pools.map (·.contract) = pairs.map (·.contract) := by
  change pairs.mapM (c.pool height) line = (.ok pools, line') at h
  induction pairs generalizing pools line line' with
  | nil =>
    rw [List.mapM_nil, run_pure_eq_ok] at h
    rw [← h.1]
    rfl
  | cons pair pairs ih =>
    rw [List.mapM_cons] at h
    obtain ⟨pool, line₁, hpool, h⟩ := run_bind_eq_ok.1 h
    obtain ⟨rest, line₂, hrest, h⟩ := run_bind_eq_ok.1 h
    obtain ⟨rfl, -⟩ := run_pure_eq_ok.1 h
    obtain ⟨data, line₃, -, hread⟩ := run_bind_eq_ok.1 hpool
    rw [List.map_cons, List.map_cons, ih hrest, contract_of_readPool (run_lift_eq_ok.1 hread).1]

theorem answersEach_node (c : Client σ) : c.source.AnswersEach := by
  intro height pairs line pools h
  rw [contracts_of_node c height (Prod.ext h rfl)]

namespace Follower

variable {f : Follower σ} {s : Store} {journal : List Moment}

/-- What such a source is said to tell is in order. -/
theorem Witnessed.answersEach {m : Moment} (h : f.Witnessed m) (hsource : f.source.AnswersEach) :
    m.deed.AnswersEach := by
  cases hdeed : m.deed with
  | listed height pairs pools =>
    rw [Witnessed, hdeed] at h
    obtain ⟨s, hs⟩ := h
    exact hsource height pairs s pools hs
  | _ => trivial

/-- The pools that the source tells of the registered pairs are those that the records imply. -/
theorem contracts_of_listed {t : Trail σ} {height : Int} {pools : List Pool}
    (hreached : f.Reached t.world.store t.journal) (hat : f.At height t.world.store)
    (hanswers : ∀ m ∈ t.journal, m.deed.AnswersEach)
    (hlisted : Listed height (t.world.store.registry f.chain).pairs pools t.journal) (c : String) :
    c ∈ pools.map (·.contract) ↔
      ∃ r ∈ t.world.store.recordsIn f.chain 0 height, r.contract = c := by
  obtain ⟨early, late, store, hjournal, -⟩ := hlisted
  have hperm := hanswers _ (hjournal ▸ List.mem_append_right _ List.mem_cons_self)
  -- No record of the chain is outside of the range.
  have hrecords : ∀ r ∈ t.world.store.records, 0 ≤ r.height ∧ r.height ≤ height := by
    rcases hreached.synced with ⟨hempty, -⟩ | ⟨height', hsynced⟩
    · rw [hempty]
      exact nofun
    · intro r hr
      obtain ⟨-, hlow, hhigh⟩ := hsynced.records r hr
      rw [At.unique hat hsynced.progress]
      omega
  rw [hperm.mem_iff]
  refine (t.world.store.mem_contracts_registry f.chain c).trans ?_
  rw [← hreached.agreeing.contracts, Store.mem_recordContracts]
  simp only [Store.recordsIn, List.mem_filter, Bool.and_eq_true, beq_iff_eq, decide_eq_true_eq]
  constructor
  · rintro ⟨r, hr, hchain, rfl⟩
    obtain ⟨hlow, hhigh⟩ := hrecords r hr
    exact ⟨r, ⟨hr, ⟨hchain, hlow⟩, hhigh⟩, rfl⟩
  · rintro ⟨r, ⟨hr, ⟨hchain, -⟩, -⟩, rfl⟩
    exact ⟨r, hr, hchain, rfl⟩

/-- If the source has given one pool for each pair so far, nothing has failed because
one side lacks a pool. -/
theorem Reached.not_isDisagreement (h : f.Reached s journal)
    (hanswers : ∀ m ∈ journal, m.deed.AnswersEach) {m : Moment} (hm : m ∈ journal) {e : SyncError}
    (hdeed : m.deed = .failed e) : ¬e.IsDisagreement := by
  induction h with
  | start => cases hm
  | opened _ ih =>
    rcases List.mem_append.1 hm with hm | hm
    · exact ih (fun m hm => hanswers m (List.mem_append_left _ hm)) hm
    · rw [List.mem_singleton.1 hm] at hdeed
      cases hdeed
  | @step t t' hreached hstep ih =>
    have hbefore := fun m hm => hanswers m (hstep.prefix_journal.subset hm)
    by_cases hold : m ∈ t.journal
    · exact ih hbefore hold
    cases hstep with
    | plain _ _ _ hmore =>
      have hplain := (hmore m ((List.mem_append.1 hm).resolve_left hold)).2
      rw [hdeed] at hplain
      cases e with
      | mismatch found => exact absurd rfl (hplain found)
      | _ => exact id
    | @validated height pools outcome world hat hlisted hvalidate =>
      obtain rfl := List.mem_singleton.1 ((List.mem_append.1 hm).resolve_left hold)
      cases outcome with
      | ok _ => cases hdeed
      | error e' =>
        obtain rfl := Deed.failed.inj hdeed
        exact not_isDisagreement_of_validate
          (contracts_of_listed hreached hat hbefore hlisted) hvalidate
    | wrote =>
      obtain rfl := List.mem_singleton.1 ((List.mem_append.1 hm).resolve_left hold)
      cases hdeed

/-- If the source has given one pool for each pair so far, no run fails because one side lacks a
pool. -/
theorem not_isDisagreement_of_run {t : Trail σ} (h : f.Reached t.world.store t.journal)
    (hanswers : ∀ m ∈ (f.journaledRun t).2.journal, m.deed.AnswersEach) {e : SyncError}
    (hrun : (f.run t.world).1 = .error e) : ¬e.IsDisagreement := by
  rw [← f.reports_run.forgets t] at hrun
  obtain ⟨store, hfailed⟩ := f.reports_run.confesses t e hrun
  exact h.run.not_isDisagreement hanswers hfailed rfl

/-- **The pools of the store and of the source are of the same pairs.** In every store that
runs lead to or pass through, the records name the pairs that are stored, and no other ones
are exempt from validation. So no run fails over a pool that one side lacks, as long as the
source has given one pool for each pair that it was asked about. There are sources that always
do, and a node is one. -/
theorem pool_sets_agree (f : Follower σ) (source : σ) (turns : List (Turn σ)) :
    f.Agreeing (f.worldAfter source turns).store ∧
      (∀ m ∈ (f.history source turns).journal, f.Agreeing m.store) ∧
      (∀ turn e, (∀ m ∈ (f.history source (turns ++ [turn])).journal, m.deed.AnswersEach) →
        (f.run (turn.enter (f.worldAfter source turns))).1 = .error e → ¬e.IsDisagreement) ∧
      (f.source.AnswersEach → ∀ m ∈ (f.history source turns).journal, m.deed.AnswersEach) ∧
      ∀ (τ : Type) (c : Client τ), c.source.AnswersEach := by
  have hreached := f.reached_history source turns
  refine ⟨?_, ?_, ?_, ?_,
    fun _ => answersEach_node⟩
  · rw [← f.world_history]
    exact hreached.agreeing
  · intro m hm
    obtain ⟨_, hbefore⟩ := hreached.of_mem hm
    exact hbefore.agreeing
  · intro turn e hanswers hrun
    obtain ⟨t, hworld, -, hstart, hlast⟩ := f.exists_last_run source turns turn
    rw [← hworld] at hrun
    rw [hlast] at hanswers
    exact not_isDisagreement_of_run hstart hanswers hrun
  · intro hsource m hm
    exact (hreached.witnessed m hm).answersEach hsource

end Follower

end PoolLedger
