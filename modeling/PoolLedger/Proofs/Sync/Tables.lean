import PoolLedger.Proofs.Sync.PoolSets
import PoolLedger.Proofs.Sync.Stages
import PoolLedger.Proofs.Sync.Validated

/-!
# The registry and the tables

A follower keeps its pairs twice: in the registry that reading a block leaves, which is changed in
place, and in the table of pairs, which is filled from the records of creations and takes each
contract once. Once the block is written the two are the same (`writeBlock_eq_ok`), and a block on
which they would differ, since it creates a pair that is known or one pair twice, is not written at
all (`Reached.insert_ne_ok`).

Hence the pairs are only ever added to (`Reached.pairwise_pairs`), and the pools that are stored
with a block are those of all pairs created so far (`Follower.Tabled`). `registry_agrees` says so of
every store that runs pass through or lead to.
-/

namespace PoolLedger

variable {σ : Type}

/-! ## Registries without repetition -/

namespace Registry

theorem put_of_not_mem {p : Pair} {l : List Pair} (h : p.contract ∉ l.map (·.contract)) :
    put p l = l ++ [p] := by
  induction l with
  | nil => rfl
  | cons q l ih =>
    rw [List.map_cons, List.mem_cons, not_or] at h
    rw [put, if_neg (Ne.symm h.1), ih h.2]
    rfl

/-- A list of pairs in which no contract occurs twice is registered as it is. -/
theorem pairs_ofList {ps : List Pair} (h : (ps.map (·.contract)).Nodup) :
    (ofList ps).pairs = ps := by
  induction ps using List.reverseRecOn with
  | nil => rfl
  | append_singleton ps p ih =>
    rw [List.map_append, List.nodup_append] at h
    rw [ofList_append]
    show put p (ofList ps).pairs = _
    rw [ih h.1]
    exact put_of_not_mem fun hp => h.2.2 _ hp _ (by simp) rfl

end Registry

/-! ## Rows that are written -/

namespace Store

variable {s s' : Store} {chain : String} {height : Int}

/-- The pairs whose creation is recorded up to a height, in order. -/
def createdUpTo (s : Store) (height : Int) : List PairRow :=
  (s.records.filter fun r => r.kind = .creation ∧ r.height ≤ height).map (·.pairRow)

/-- The pools that are stored with a block. -/
def poolsAt (s : Store) (height : Int) : List PoolRow :=
  s.pools.filter (·.height = height)

theorem createdUpTo_of_le (h : ∀ r ∈ s.records, r.height ≤ height) :
    s.createdUpTo height = (s.records.filter (·.kind = .creation)).map (·.pairRow) := by
  refine congrArg (List.map _) (List.filter_congr ?_)
  intro r hr
  simp [h r hr]

theorem createdUpTo_congr (h : s'.records = s.records) (height : Int) :
    s'.createdUpTo height = s.createdUpTo height := by
  rw [createdUpTo, h, createdUpTo]

theorem poolsAt_congr (h : s'.pools = s.pools) (height : Int) :
    s'.poolsAt height = s.poolsAt height := by
  rw [poolsAt, h, poolsAt]

/-- Rows of one chain are written only if no contract occurs twice. -/
theorem nodup_of_addPairs {rows more rows' : List PairRow} (h : addPairs rows more = .ok rows')
    (hrows : ∀ r ∈ rows, r.chain = chain) (hmore : ∀ r ∈ more, r.chain = chain)
    (hnodup : (rows.map (·.contract)).Nodup) : (rows'.map (·.contract)).Nodup := by
  induction more generalizing rows with
  | nil =>
    obtain rfl := Except.ok.inj h
    exact hnodup
  | cons r more ih =>
    rw [addPairs] at h
    split at h
    · cases h
    · rename_i hnew
      have hr : r.chain = chain := hmore r List.mem_cons_self
      refine ih h ?_ (fun q hq => hmore q (List.mem_cons_of_mem _ hq)) ?_
      · intro q hq
        rcases List.mem_append.1 hq with hq | hq
        · exact hrows q hq
        · rwa [List.mem_singleton.1 hq]
      · rw [List.map_append, List.nodup_append]
        refine ⟨hnodup, by simp, ?_⟩
        -- A contract that is there already would have been refused.
        intro c hc c' hc' heq
        obtain ⟨q, hq, rfl⟩ := List.mem_map.1 hc
        rw [List.map_singleton, List.mem_singleton] at hc'
        refine hnew (List.any_eq_true.2 ⟨q, hq, ?_⟩)
        simp [hrows q hq, hr, heq, hc']

theorem addPairs_of_insert {records : List Record} {pools : List Pool} {pairs : List Pair}
    (h : s.insert chain height records pools pairs = .ok s') :
    addPairs s.pairs (pairs.map (.ofPair chain)) = .ok s'.pairs := by
  simp only [insert, guard_eq_ok, bind_eq_ok, pure_eq_ok] at h
  obtain ⟨-, -, rows, -, -, pairRows, hpairs, rfl⟩ := h
  exact hpairs

theorem contracts_of_poolRows {pools : List Pool} {rows : List PoolRow}
    (h : poolRows chain height pools = .ok rows) :
    rows.map (·.contract) = pools.map (·.contract) := by
  refine map_eq_of_mapM_eq_ok ?_ h
  intro p row hrow
  split at hrow
  · rename_i r hr
    obtain rfl := Except.ok.inj hrow
    unfold PoolRow.ofPool? at hr
    split at hr
    · exact Option.some.inj hr ▸ rfl
    · cases hr
  · cases hrow

end Store

/-! ## Writing a block -/

namespace Follower

variable {f : Follower σ} {w w' : World σ} {height : Int} {registry : Registry} {pools : List Pool}

theorem snapshot_eq_ok (h : f.snapshot height registry w = (.ok pools, w')) :
    f.IsSnapshot height registry pools := by
  obtain ⟨isDue, w₁, hdue, h⟩ := run_bind_eq_ok.1 h
  have hiff := due_eq_ok (run_lift_eq_ok.1 hdue).1
  cases isDue with
  | false => exact ⟨fun _ => (run_pure_eq_ok.1 h).1.symm, fun hdvd => nomatch hiff.2 hdvd⟩
  | true => exact ⟨fun hdvd => absurd (hiff.1 rfl) hdvd, fun _ => ⟨_, (ask_eq_ok h).1⟩⟩

/-- **When a block is written, the registry afterwards is that of the store.** Its new pairs are
those that its records create. -/
theorem writeBlock_eq_ok (h : f.writeBlock height w = (.ok (registry, pools), w')) :
    registry = w'.store.registry f.chain ∧ ∃ records,
      registry = (w.store.registry f.chain).insertAll (createdPairs records) ∧
      f.IsSnapshot height registry pools ∧
      w.store.insert f.chain height records pools (createdPairs records) = .ok w'.store := by
  obtain ⟨txs, w₁, htxs, h⟩ := run_bind_eq_ok.1 h
  obtain ⟨⟨records, registry'⟩, w₂, hread, h⟩ := run_bind_eq_ok.1 h
  obtain ⟨pools', w₃, hsnapshot, h⟩ := run_bind_eq_ok.1 h
  obtain ⟨_, w₄, hcommit, h⟩ := run_bind_eq_ok.1 h
  obtain ⟨hresult, rfl⟩ := run_pure_eq_ok.1 h
  obtain ⟨rfl, rfl⟩ := Prod.mk.inj hresult
  obtain ⟨hstore₂, known, rfl, hall⟩ := readBlock_eq_ok hread
  obtain ⟨store, hinsert, rfl⟩ := commit_eq_ok hcommit
  have hstore₃ : w₃.store = w₂.store := by
    rw [← snapshot_store f height known.registry w₂, hsnapshot]
  rw [hstore₃, hstore₂, (ask_eq_ok htxs).2] at hinsert
  rw [(ask_eq_ok htxs).2] at hall
  have hregistry := Profile.registry_of_extractAll hall
  exact ⟨hregistry.trans (Store.registry_of_insert hinsert).symm, records, hregistry,
    snapshot_eq_ok hsnapshot, hinsert⟩

/-! ## Tables in order -/

end Follower

/-- A source that gives the pools of the pairs that it is asked about in their order, if it gives
any. -/
def Source.ListsEach (source : Source σ) : Prop :=
  ∀ height pairs s pools, (source.pools height pairs s).1 = .ok pools →
    pools.map (·.contract) = pairs.map (·.contract)

theorem listsEach_node {τ : Type} (c : Client τ) : c.source.ListsEach := by
  intro height pairs line pools h
  exact contracts_of_node c height (Prod.ext h rfl)

namespace Follower

/-- The pairs are those whose creation is recorded, each once, and are registered as they
are. The pools that are stored with a block are those of the pairs created by then, in
the same order, or none. -/
structure Tabled (f : Follower σ) (s : Store) : Prop where
  pairs : s.pairs = s.createdUpTo (f.heightIn s)
  nodup : (s.pairs.map (·.contract)).Nodup
  registered : (s.registry f.chain).pairs = s.pairs.map (·.toPair)
  skipped : ∀ height, ¬f.policy.snapshotInterval ∣ height → s.poolsAt height = []
  stored : f.source.ListsEach → ∀ height, f.policy.snapshotInterval ∣ height → 1 ≤ height →
    height ≤ f.heightIn s →
    (s.poolsAt height).map (·.contract) = (s.createdUpTo height).map (·.contract)

variable {f : Follower σ} {s s' : Store} {height : Int} {journal : List Moment}
  {records : List Record}
  {pools : List Pool}

theorem Tabled.keep (h : f.Tabled s) (hpairs : s'.pairs = s.pairs)
    (hrecords : s'.records = s.records) (hpools : s'.pools = s.pools)
    (hheight : f.heightIn s' = f.heightIn s) : f.Tabled s' where
  pairs := by
    rw [hpairs, hheight, Store.createdUpTo_congr hrecords]
    exact h.pairs
  nodup := hpairs ▸ h.nodup
  registered := by
    rw [Store.registry, hpairs]
    exact h.registered
  skipped height hskip := by
    rw [Store.poolsAt_congr hpools]
    exact h.skipped height hskip
  stored hlists height hdvd hlow hhigh := by
    rw [Store.poolsAt_congr hpools, Store.createdUpTo_congr hrecords]
    exact h.stored hlists height hdvd hlow (hheight ▸ hhigh)

theorem Synced.chain_of_mem_pairs (h : f.Synced height s journal) :
    ∀ r ∈ s.pairs, r.chain = f.chain := by
  intro r hr
  rw [h.pairs] at hr
  obtain ⟨q, hq, rfl⟩ := List.mem_map.1 hr
  exact (h.records q (List.mem_filter.1 hq).1).1

/-- The contracts in the table stay without repetition. -/
theorem Synced.nodup_of_insert (h : f.Synced height s journal)
    (hnodup : (s.pairs.map (·.contract)).Nodup) {height' : Int} {pairs : List Pair}
    (hinsert : s.insert f.chain height' records pools pairs = .ok s') :
    (s'.pairs.map (·.contract)).Nodup := by
  refine Store.nodup_of_addPairs (Store.addPairs_of_insert hinsert) h.chain_of_mem_pairs ?_ hnodup
  intro r hr
  obtain ⟨_, -, rfl⟩ := List.mem_map.1 hr
  rfl

/-- The registry of a store lists its pairs, if no contract occurs twice. -/
theorem pairs_registry (hchain : ∀ r ∈ s.pairs, r.chain = f.chain)
    (hnodup : (s.pairs.map (·.contract)).Nodup) :
    (s.registry f.chain).pairs = s.pairs.map (·.toPair) := by
  have hall : s.pairs.filter (·.chain == f.chain) = s.pairs :=
    List.filter_eq_self.2 fun r hr => beq_iff_eq.2 (hchain r hr)
  rw [Store.registry, hall]
  refine Registry.pairs_ofList ?_
  rw [List.map_map]
  exact hnodup

theorem createdUpTo_of_insert {height' : Int} {pairs : List Pair}
    (hinsert : s.insert f.chain height' records pools pairs = .ok s') (hlt : height < height') :
    s'.createdUpTo height = s.createdUpTo height := by
  obtain ⟨-, rows, -, rfl⟩ := Store.insert_eq_ok hinsert
  have hnew : (records.map (RecordRow.ofRecord f.chain height')).filter
      (fun r => r.kind = .creation ∧ r.height ≤ height) = [] := by
    refine List.filter_eq_nil_iff.2 ?_
    intro r hr
    obtain ⟨_, -, rfl⟩ := List.mem_map.1 hr
    intro hkept
    have hle : height' ≤ height := (of_decide_eq_true hkept).2
    omega
  rw [Store.createdUpTo, List.filter_append, hnew, List.append_nil, Store.createdUpTo]

theorem poolsAt_of_insert (hsynced : f.Synced height s journal) {height' : Int} {pairs : List Pair}
    (hinsert : s.insert f.chain height' records pools pairs = .ok s') :
    (∀ k, k ≠ height' → s'.poolsAt k = s.poolsAt k) ∧
      (height < height' → (s'.poolsAt height').map (·.contract) = pools.map (·.contract)) := by
  obtain ⟨-, rows, hrows, rfl⟩ := Store.insert_eq_ok hinsert
  have hheight := fun r hr => (Store.poolRows_eq_ok hrows r hr).2
  refine ⟨fun k hk => ?_, fun hlt => ?_⟩
  · have hnew : rows.filter (·.height = k) = [] :=
      List.filter_eq_nil_iff.2 fun r hr => by simp [hheight r hr, Ne.symm hk]
    rw [Store.poolsAt, List.filter_append, hnew, List.append_nil, Store.poolsAt]
  · have hold : s.pools.filter (·.height = height') = [] := by
      refine List.filter_eq_nil_iff.2 fun r hr => ?_
      have hle := (hsynced.pools r hr).2.2
      simp only [decide_eq_true_eq]
      omega
    have hnew : rows.filter (·.height = height') = rows :=
      List.filter_eq_self.2 fun r hr => by simp [hheight r hr]
    rw [Store.poolsAt, List.filter_append, hold, hnew, List.nil_append,
      Store.contracts_of_poolRows hrows]

/-- A block that is written keeps the tables in order. -/
theorem Tabled.write (h : f.Tabled s) (hsynced : f.Synced height s journal)
    (hinsert : s.insert f.chain (height + 1) records pools (createdPairs records) = .ok s')

    (hsnapshot : f.IsSnapshot (height + 1) ((s.registry f.chain).insertAll (createdPairs records))
      pools) :
    f.Tabled s' := by
  have hheight : f.heightIn s = height := At.heightIn_eq hsynced.progress
  have hheight' : f.heightIn s' = height + 1 := (At.insert hsynced.progress hinsert).2.heightIn_eq
  have hnodup := hsynced.nodup_of_insert h.nodup hinsert
  have hcreated : s'.pairs = s'.createdUpTo (height + 1) := by
    rw [hsynced.pairs_of_insert hinsert, Store.createdUpTo_of_le]
    exact fun r hr => ((hsynced.rows_of_insert hinsert).1 r hr).2.2
  have hchain : ∀ r ∈ s'.pairs, r.chain = f.chain := by
    intro r hr
    rw [hcreated] at hr
    obtain ⟨q, hq, rfl⟩ := List.mem_map.1 hr
    exact ((hsynced.rows_of_insert hinsert).1 q (List.mem_filter.1 hq).1).1
  have hregistered := pairs_registry hchain hnodup
  obtain ⟨hold, hnew⟩ := poolsAt_of_insert hsynced hinsert
  refine ⟨hheight' ▸ hcreated, hnodup, hregistered, ?_, ?_⟩
  · intro k hskip
    by_cases hk : k = height + 1
    · subst hk
      have hnone := hnew (by omega)
      rw [hsnapshot.skipped hskip] at hnone
      exact List.map_eq_nil_iff.1 hnone
    · rw [hold k hk]
      exact h.skipped k hskip
  · intro hlists k hdvd hlow hhigh
    by_cases hk : k = height + 1
    · subst hk
      obtain ⟨told, htold⟩ := hsnapshot.told hdvd
      rw [hnew (by omega), hlists _ _ _ _ htold, ← Store.registry_of_insert hinsert, hregistered,
        List.map_map, ← hcreated]
      rfl
    · rw [hold k hk, createdUpTo_of_insert hinsert (by omega)]
      exact h.stored hlists k hdvd hlow (by omega)

theorem syncedHeight_snd_pools (s : Store) (chain : String) :
    (s.syncedHeight chain).2.pools = s.pools := by
  unfold Store.syncedHeight
  split <;> rfl

theorem heightIn_opened (hsound : f.Sound s) :
    f.heightIn (s.syncedHeight f.chain).2 = f.heightIn s :=
  hsound.at_opened.heightIn_eq

/-- **In every store that can be reached the tables are in order.** -/
theorem Reached.tabled (h : f.Reached s journal) : f.Tabled s := by
  induction h with
  | start =>
    refine ⟨rfl, .nil, rfl, fun _ _ => rfl, fun _ height _ hlow hhigh => ?_⟩
    have hzero : height ≤ 0 := hhigh
    omega
  | @opened s _ hreached ih =>
    obtain ⟨hrecords, hpairs, -⟩ := syncedHeight_snd s f.chain
    exact ih.keep hpairs hrecords (syncedHeight_snd_pools s f.chain)
      (heightIn_opened hreached.sound)
  | @step t t' hreached hstep ih =>
    cases hstep with
    | plain hat hsame =>
      have hheight := (At.heightIn_eq (hsame.progress.trans hat)).trans (At.heightIn_eq hat).symm
      exact ih.keep hsame.pairs hsame.records hsame.pools hheight
    | validated hat _ hvalidate =>
      have hsame := sameBlocks_of_validate hvalidate
      have hheight := (At.heightIn_eq (hsame.progress.trans hat)).trans (At.heightIn_eq hat).symm
      exact ih.keep hsame.pairs hsame.records hsame.pools hheight
    | wrote hat _ _ _ _ hinsert hsnapshot =>
      -- A block is written only after the run has been opened, so the store is not empty.
      rcases hreached.synced with ⟨hempty, -⟩ | ⟨height, hsynced⟩
      · rw [hempty] at hat
        cases hat
      · obtain rfl := At.unique hat hsynced.progress
        exact ih.write hsynced hinsert hsnapshot

/-! ## Pairs that are only added to -/

theorem Step.prefix_pairs {t t' : Trail σ} (h : f.Step t t') :
    t.world.store.pairs <+: t'.world.store.pairs := by
  cases h with
  | plain _ hsame => exact hsame.pairs ▸ List.prefix_refl _
  | validated _ _ hvalidate => exact (sameBlocks_of_validate hvalidate).pairs ▸ List.prefix_refl _
  | wrote _ _ _ _ _ hinsert =>
    obtain ⟨-, rows, -, hstore⟩ := Store.insert_eq_ok hinsert
    exact hstore ▸ List.prefix_append _ _

theorem pairwise_prefix_append {α : Type} {l more : List (List α)} {a b : List α}
    (h : (l ++ [a]).Pairwise (· <+: ·)) (hab : a <+: b) (hmore : ∀ x ∈ more, x = b) :
    (l ++ more ++ [b]).Pairwise (· <+: ·) := by
  have hlast : ∀ x ∈ more ++ [b], x = b := fun x hx =>
    (List.mem_append.1 hx).elim (hmore x) List.mem_singleton.1
  rw [List.append_assoc, List.pairwise_append]
  refine ⟨(List.pairwise_append.1 h).1, ?_, ?_⟩
  · rw [List.eq_replicate_of_mem hlast, List.pairwise_replicate]
    exact .inr (List.prefix_refl b)
  · intro x hx y hy
    rw [hlast y hy]
    exact ((List.pairwise_append.1 h).2.2 x hx a (List.mem_singleton_self a)).trans hab

/-- **The pairs are only ever added to**: those noted with an earlier moment are the first of those
noted with a later one, and of those in the store. -/
theorem Reached.pairwise_pairs (h : f.Reached s journal) :
    (journal.map (·.store.pairs) ++ [s.pairs]).Pairwise (· <+: ·) := by
  induction h with
  | start => exact List.pairwise_singleton _ _
  | @opened s journal _ ih =>
    have hpairs := (syncedHeight_snd s f.chain).2.1
    rw [List.map_append, hpairs]
    refine pairwise_prefix_append ih (List.prefix_refl _) ?_
    intro x hx
    rw [List.map_singleton, List.mem_singleton] at hx
    exact hx.trans hpairs
  | step _ hstep ih =>
    obtain ⟨more, hjournal, hmore⟩ := hstep.exists_more
    rw [hjournal, List.map_append]
    refine pairwise_prefix_append ih hstep.prefix_pairs ?_
    intro x hx
    obtain ⟨m, hm, rfl⟩ := List.mem_map.1 hx
    rw [hmore m hm]

/-! ## Blocks that are not written -/

variable {w : World σ}

/-- If the store does not take the records of a block, the block is not processed, and the
store stays as it is. -/
theorem processBlock_of_refused {txs : List RawTx} {source : σ} {known : Knowledge}
    (htxs : f.source.transactions height w.source = (.ok txs, source))
    (hall : f.profile.extractAll height txs
      { registry := w.store.registry f.chain, flags := w.flags } = (.ok records, known))

    (hrefused : ∀ pools s',
      w.store.insert f.chain height records pools (createdPairs records) ≠ .ok s') :
    ∃ e w', f.processBlock height w = (.error e, w') ∧ w'.store = w.store := by
  have htold : f.told height w = .ok txs := congrArg Prod.fst htxs
  have hall : f.profile.extractAll height txs (f.known w) = (.ok records, known) := hall
  have hstore := f.snapshot_store height known.registry (f.afterReading height w known)
  rw [processBlock_eq, htold]
  dsimp only
  rw [hall]
  dsimp only
  revert hstore
  rcases f.snapshot height known.registry (f.afterReading height w known) with ⟨e | pools, w₁⟩
  · exact fun hstore => ⟨e, w₁, rfl, hstore⟩
  · intro hstore
    dsimp only
    cases hinsert : w.store.insert f.chain height records pools (createdPairs records) with
    | ok s' => exact absurd hinsert (hrefused pools s')
    | error cause => exact ⟨.store cause, w₁, rfl, hstore⟩

/-- A block that creates a pair that is known, or one pair twice, is not written. -/
theorem Reached.insert_ne_ok (h : f.Reached s journal)
    (hclash : ¬(s.pairs.map (·.contract) ++ (createdPairs records).map (·.contract)).Nodup)
    (pools : List Pool) (s' : Store) :
    s.insert f.chain height records pools (createdPairs records) ≠ .ok s' := by
  intro hinsert
  rcases h.synced with ⟨rfl, -⟩ | ⟨_, hsynced⟩
  · obtain ⟨⟨r, hr, -⟩, -⟩ := Store.insert_eq_ok hinsert
    cases hr
  · have hnodup := hsynced.nodup_of_insert h.tabled.nodup hinsert
    obtain ⟨-, rows, -, rfl⟩ := Store.insert_eq_ok hinsert
    refine hclash ?_
    rw [List.map_append, List.map_map] at hnodup
    exact hnodup

/-- A block that is written leaves the registry of the store and the tables in order,
and adds to the pairs. -/
theorem Reached.tables_of_writeBlock {w w' : World σ} {height : Int} {registry : Registry}
    {pools : List Pool} (h : f.Reached w.store journal)
    (hwrite : f.writeBlock height w = (.ok (registry, pools), w')) :
    registry = w'.store.registry f.chain ∧ w.store.pairs <+: w'.store.pairs ∧ f.At height w'.store ∧
      f.Tabled w'.store := by
  obtain ⟨hregistry, records, hcreated, hsnapshot, hinsert⟩ := writeBlock_eq_ok hwrite
  rcases h.synced with ⟨hempty, -⟩ | ⟨before, hsynced⟩
  · obtain ⟨⟨r, hr, -⟩, -⟩ := Store.insert_eq_ok hinsert
    rw [hempty] at hr
    cases hr
  · obtain ⟨rfl, hat⟩ := At.insert hsynced.progress hinsert
    refine ⟨hregistry, ?_, hat, h.tabled.write hsynced hinsert (hcreated ▸ hsnapshot)⟩
    obtain ⟨-, rows, -, hstore⟩ := Store.insert_eq_ok hinsert
    rw [hstore]
    exact List.prefix_append _ _

/-! ## Every history -/

/-- **The registry and the tables agree.** Take any runs on an empty store. The pairs in the stores
that they pass through are only ever added to, and in each of these stores the tables are in order.
If the next block is written upon such a store, the registry that it leaves is that of the store,
and the tables are in order again; and if it creates a pair that is known, or one pair twice, it is
not processed and the store stays as it is. A node gives the pools of the pairs in their order, so
that the pools stored with a block are one for each pair created by then. -/
theorem registry_agrees (f : Follower σ) (source : σ) (turns : List (Turn σ)) :
    (((f.history source turns).journal.map (·.store.pairs)) ++
      [(f.worldAfter source turns).store.pairs]).Pairwise (· <+: ·) ∧
    (∀ s, (s = (f.worldAfter source turns).store ∨
      ∃ m ∈ (f.history source turns).journal, m.store = s) →
      f.Tabled s ∧
      (∀ w w' height registry pools, w.store = s →
        f.writeBlock height w = (.ok (registry, pools), w') →
        registry = w'.store.registry f.chain ∧ s.pairs <+: w'.store.pairs ∧ f.At height w'.store ∧
          f.Tabled w'.store) ∧
      ∀ w height txs source' records known, w.store = s →
        f.source.transactions height w.source = (.ok txs, source') →
        f.profile.extractAll height txs { registry := w.store.registry f.chain, flags := w.flags } =
          (.ok records, known) →
        ¬(s.pairs.map (·.contract) ++ (createdPairs records).map (·.contract)).Nodup →
        ∃ e w', f.processBlock height w = (.error e, w') ∧ w'.store = s) ∧
    ∀ (τ : Type) (c : Client τ), c.source.ListsEach := by
  have hreached := f.reached_history source turns
  have hworld := f.world_history source turns
  refine ⟨?_, ?_, fun _ => listsEach_node⟩
  · rw [← hworld]
    exact hreached.pairwise_pairs
  intro s hs
  -- The last store and those noted on the way are all reached, and nothing else is needed of them.
  obtain ⟨journal, hs⟩ : ∃ journal, f.Reached s journal := by
    rcases hs with rfl | ⟨m, hm, rfl⟩
    · exact ⟨_, hworld ▸ hreached⟩
    · exact hreached.of_mem hm
  refine ⟨hs.tabled, ?_, ?_⟩
  · rintro w w' height registry pools rfl hwrite
    exact hs.tables_of_writeBlock hwrite
  · rintro w height txs source' records known rfl htxs hall hclash
    exact processBlock_of_refused htxs hall (hs.insert_ne_ok hclash)

end Follower

/-- Of two blocks, only the second is one at which pools are stored. -/
example :
    let f := { carefulFollower with policy := { snapshotInterval := 2 } }
    (f.worldAfter {} [{ source := creatingSource }]).store.pools.map
      (fun r => (r.height, r.contract)) =
      [(2, "terra1pair")] := by decide +kernel

end PoolLedger
