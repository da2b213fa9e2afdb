import PoolLedger.Proofs.Sync.History

/-!
# Every block is written exactly once

Runs may fail anywhere and the follower may be started anew, yet the store is what one run without
failures would have made of the blocks (`exactly_once`). `Follower.Synced` is the invariant: it ties
the tables, the height and the journal together. Opening a run and every step keep it, so that it
holds in every history; what fails before a block is written leaves the blocks alone
(`Synced.keep`), and what is written is the block that comes next (`Synced.write`).
-/

namespace PoolLedger

variable {σ : Type}

/-! ## Heights that go up one by one -/

/-- From a first height to a last one by way of the given heights, each of which is the
one before or one more. -/
def Climbs : Int → List Int → Int → Prop
  | first, [], last => first = last
  | first, height :: rest, last =>
    (height = first ∨ height = first + 1) ∧ Climbs height rest last

theorem Climbs.append {first middle last : Int} {heights more : List Int}
    (h : Climbs first heights middle) (h' : Climbs middle more last) :
    Climbs first (heights ++ more) last := by
  induction heights generalizing first with
  | nil =>
    have hfirst : first = middle := h
    exact hfirst ▸ h'
  | cons height rest ih => exact ⟨h.1, ih h.2⟩

theorem Climbs.stay {height : Int} {heights : List Int} (h : ∀ a ∈ heights, a = height) :
    Climbs height heights height := by
  induction heights with
  | nil => rfl
  | cons a rest ih =>
    obtain rfl := h a List.mem_cons_self
    exact ⟨.inl rfl, ih fun b hb => h b (List.mem_cons_of_mem _ hb)⟩

/-- The heights from one up to a given one. -/
def heightsUpTo (height : Int) : List Int :=
  (List.range height.toNat).map fun (n : Nat) => (n : Int) + 1

theorem heightsUpTo_succ {height : Int} (h : 0 ≤ height) :
    heightsUpTo (height + 1) = heightsUpTo height ++ [height + 1] := by
  have hnat : (height + 1).toNat = height.toNat + 1 := by omega
  have hlast : (height.toNat : Int) = height := by omega
  rw [heightsUpTo, hnat, List.range_succ, List.map_append, heightsUpTo, List.map_singleton, hlast]

/-! ## The invariant -/

/-- The height of a block, if one is written. -/
def Deed.written? : Deed → Option Int
  | wrote height => some height
  | _ => none

/-- The pair that a record of a creation is about. -/
def RecordRow.pairRow (r : RecordRow) : PairRow where
  chain := r.chain
  contract := r.contract
  asset0 := r.asset0
  asset1 := r.asset1
  share := r.share

namespace Follower

/-- The height up to which a store follows the chain; a new chain starts at zero. -/
def heightIn (f : Follower σ) (s : Store) : Int := (s.syncedHeight f.chain).1

/-- How the rows of a height came about. The journal has one attempt that succeeded: the
transactions are fetched when the store is at the height before, nothing else happens until the
block is written but that pools may be listed for a snapshot, and the rows are those of the records
that are read from these transactions, beginning with the registry of the store at that time. -/
def WrittenOnce (f : Follower σ) (height : Int) (s : Store) (journal : List Moment) : Prop :=
  ∃ early listing late before after txs records,
    journal = early ++ { deed := .fetched height txs, store := before } ::
      (listing ++ { deed := .wrote height, store := after } :: late) ∧
    (∀ m ∈ listing, ∃ pairs pools, m.deed = .listed height pairs pools) ∧
    f.At (height - 1) before ∧
    (∀ flags, (f.profile.extractAll height txs
      { registry := before.registry f.chain, flags }).1 = .ok records) ∧
    s.records.filter (·.height = height) = records.map (.ofRecord f.chain height)

/-- The store and the journal of a chain that is followed up to a height. -/
structure Synced (f : Follower σ) (height : Int) (s : Store) (journal : List Moment) : Prop where
  nonneg : 0 ≤ height
  /-- There is one row of progress. -/
  progress : s.progress = [{ chain := f.chain, height }]
  /-- The height never goes down, and goes up in steps of one. -/
  climbs : Climbs 0 (journal.map fun m => f.heightIn m.store) height
  /-- Each block is written once, in order. -/
  writes : journal.filterMap (·.deed.written?) = heightsUpTo height
  records : ∀ r ∈ s.records, r.chain = f.chain ∧ 1 ≤ r.height ∧ r.height ≤ height
  pools : ∀ r ∈ s.pools, r.chain = f.chain ∧ 1 ≤ r.height ∧ r.height ≤ height
  /-- The pairs are those of the creations among the records, in order. -/
  pairs : s.pairs = (s.records.filter (·.kind = .creation)).map (·.pairRow)
  blocks : ∀ h, 1 ≤ h → h ≤ height → f.WrittenOnce h s journal

variable {f : Follower σ} {height : Int} {s s' : Store} {journal more : List Moment}

theorem At.heightIn_eq (hat : f.At height s) : f.heightIn s = height := by
  rw [heightIn, hat.syncedHeight_eq]

theorem At.unique {height' : Int} (hat : f.At height s) (hat' : f.At height' s) :
    height = height' := by
  rw [← hat.heightIn_eq, hat'.heightIn_eq]

theorem WrittenOnce.append (h : f.WrittenOnce height s journal) (more : List Moment)
    (hrecords : s'.records.filter (·.height = height) = s.records.filter (·.height = height)) :
    f.WrittenOnce height s' (journal ++ more) := by
  obtain ⟨early, listing, late, before, after, txs, records, rfl, hlisting, hat, hall, hrows⟩ := h
  exact ⟨early, listing, late ++ more, before, after, txs, records, by simp, hlisting, hat, hall,
    hrecords.trans hrows⟩

theorem Synced.keep (h : f.Synced height s journal) (hsame : s.SameBlocks s')
    (hmore : ∀ m ∈ more, m.store = s' ∧ m.deed.written? = none) :
    f.Synced height s' (journal ++ more) where
  nonneg := h.nonneg
  progress := hsame.progress.trans h.progress
  climbs := by
    rw [List.map_append]
    refine h.climbs.append (.stay ?_)
    intro a ha
    obtain ⟨m, hm, rfl⟩ := List.mem_map.1 ha
    rw [(hmore m hm).1]
    exact At.heightIn_eq (hsame.progress.trans h.progress)
  writes := by
    rw [List.filterMap_append, List.filterMap_eq_nil_iff.2 fun m hm => (hmore m hm).2,
      List.append_nil]
    exact h.writes
  records := hsame.records ▸ h.records
  pools := hsame.pools ▸ h.pools
  pairs := by
    rw [hsame.pairs, hsame.records]
    exact h.pairs
  blocks k hk hle := (h.blocks k hk hle).append more (by rw [hsame.records])

/-! ## Writing the next block -/

theorem pairRows_createdPairs (chain : String) (height : Int) (records : List Record) :
    (createdPairs records).map (PairRow.ofPair chain) =
      ((records.map (RecordRow.ofRecord chain height)).filter (·.kind = .creation)).map
        (·.pairRow) := by
  rw [createdPairs, List.filter_map, List.map_map, List.map_map]
  rfl

theorem filter_ofRecord_self (chain : String) (height : Int) (records : List Record) :
    (records.map (RecordRow.ofRecord chain height)).filter (·.height = height) =
      records.map (.ofRecord chain height) := by
  refine List.filter_eq_self.2 ?_
  intro r hr
  obtain ⟨_, -, rfl⟩ := List.mem_map.1 hr
  exact decide_eq_true rfl

theorem filter_ofRecord_of_ne (chain : String) {height k : Int} (records : List Record)
    (h : height ≠ k) :
    (records.map (RecordRow.ofRecord chain height)).filter (·.height = k) = [] := by
  refine List.filter_eq_nil_iff.2 ?_
  intro r hr
  obtain ⟨_, -, rfl⟩ := List.mem_map.1 hr
  intro heq
  exact h (of_decide_eq_true heq)

theorem Synced.rows_of_insert (h : f.Synced height s journal) {records : List Record}
    {pools : List Pool} {pairs : List Pair}
    (hinsert : s.insert f.chain (height + 1) records pools pairs = .ok s') :
    (∀ r ∈ s'.records, r.chain = f.chain ∧ 1 ≤ r.height ∧ r.height ≤ height + 1) ∧
      ∀ r ∈ s'.pools, r.chain = f.chain ∧ 1 ≤ r.height ∧ r.height ≤ height + 1 := by
  have hnonneg := h.nonneg
  obtain ⟨-, rows, hrows, rfl⟩ := Store.insert_eq_ok hinsert
  refine ⟨?_, ?_⟩
  · intro r hr
    rcases List.mem_append.1 hr with hr | hr
    · obtain ⟨hchain, hlow, hhigh⟩ := h.records r hr
      exact ⟨hchain, hlow, by omega⟩
    · obtain ⟨_, -, rfl⟩ := List.mem_map.1 hr
      exact ⟨rfl, by show 1 ≤ height + 1; omega, Int.le_refl _⟩
  · intro r hr
    rcases List.mem_append.1 hr with hr | hr
    · obtain ⟨hchain, hlow, hhigh⟩ := h.pools r hr
      exact ⟨hchain, hlow, by omega⟩
    · obtain ⟨hchain, hheight⟩ := Store.poolRows_eq_ok hrows r hr
      exact ⟨hchain, by omega, by omega⟩

theorem Synced.pairs_of_insert (h : f.Synced height s journal) {records : List Record}
    {pools : List Pool}
    (hinsert : s.insert f.chain (height + 1) records pools (createdPairs records) = .ok s') :
    s'.pairs = (s'.records.filter (·.kind = .creation)).map (·.pairRow) := by
  obtain ⟨-, rows, -, rfl⟩ := Store.insert_eq_ok hinsert
  rw [List.filter_append, List.map_append, ← h.pairs, ← pairRows_createdPairs]

/-- Once the next block is written, it has been written once, and so have those before. -/
theorem Synced.blocks_of_insert (h : f.Synced height s journal) {early listing : List Moment}
    {txs : List RawTx} {records : List Record} {pools : List Pool}
    (hfetched : journal =
      early ++ { deed := .fetched (height + 1) txs, store := s } :: listing)
    (hlisting : ∀ m ∈ listing, ∃ pairs pools, m.deed = .listed (height + 1) pairs pools)
    (hall : ∀ flags, (f.profile.extractAll (height + 1) txs
      { registry := s.registry f.chain, flags }).1 = .ok records)
    (hinsert : s.insert f.chain (height + 1) records pools (createdPairs records) = .ok s')
    {k : Int} (hk : 1 ≤ k) (hle : k ≤ height + 1) :
    f.WrittenOnce k s' (journal ++ [{ deed := .wrote (height + 1), store := s' }]) := by
  obtain ⟨-, rows, -, hs'⟩ := Store.insert_eq_ok hinsert
  have hrecords : s'.records = s.records ++ records.map (.ofRecord f.chain (height + 1)) := by
    rw [hs']
  -- The rows of the new block are its own only: those of before have lower heights.
  by_cases hlast : k = height + 1
  · subst hlast
    refine ⟨early, listing, [], s, s', txs, records, by simp [hfetched], hlisting, ?_, hall, ?_⟩
    · have hback : height + 1 - 1 = height := by omega
      rw [hback]
      exact h.progress
    · have hold : s.records.filter (·.height = height + 1) = [] := by
        refine List.filter_eq_nil_iff.2 ?_
        intro r hr
        have hhigh := (h.records r hr).2.2
        simp only [decide_eq_true_eq]
        omega
      rw [hrecords, List.filter_append, hold, filter_ofRecord_self, List.nil_append]
  · refine (h.blocks k hk (by omega)).append _ ?_
    rw [hrecords, List.filter_append, filter_ofRecord_of_ne f.chain records (Ne.symm hlast),
      List.append_nil]

/-- **The block that is written is the next one.** -/
theorem Synced.write (h : f.Synced height s journal) {early listing : List Moment}
    {txs : List RawTx} {records : List Record} {pools : List Pool}
    (hfetched : journal =
      early ++ { deed := .fetched (height + 1) txs, store := s } :: listing)
    (hlisting : ∀ m ∈ listing, ∃ pairs pools, m.deed = .listed (height + 1) pairs pools)
    (hall : ∀ flags, (f.profile.extractAll (height + 1) txs
      { registry := s.registry f.chain, flags }).1 = .ok records)
    (hinsert : s.insert f.chain (height + 1) records pools (createdPairs records) = .ok s') :
    f.Synced (height + 1) s' (journal ++ [{ deed := .wrote (height + 1), store := s' }]) := by
  have hat : f.At (height + 1) s' := (At.insert h.progress hinsert).2
  have hnonneg := h.nonneg
  obtain ⟨hrecords, hpools⟩ := h.rows_of_insert hinsert
  refine ⟨by omega, hat, ?_, ?_, hrecords, hpools, h.pairs_of_insert hinsert, ?_⟩
  · rw [List.map_append, List.map_singleton, hat.heightIn_eq]
    exact h.climbs.append ⟨.inr rfl, rfl⟩
  · rw [List.filterMap_append, h.writes, heightsUpTo_succ hnonneg]
    rfl
  · intro k hk hle
    exact h.blocks_of_insert hfetched hlisting hall hinsert hk hle

/-! ## Every history -/

/-- A store on which nothing has run yet is followed up to zero once a run is opened. -/
theorem synced_of_empty : f.Synced 0 { progress := [{ chain := f.chain, height := 0 }] }
    [{ deed := .opened 0, store := { progress := [{ chain := f.chain, height := 0 }] } }] where
  nonneg := Int.le_refl 0
  progress := rfl
  climbs := by
    have hat : f.At 0 { progress := [{ chain := f.chain, height := 0 }] } := rfl
    exact ⟨.inl hat.heightIn_eq, hat.heightIn_eq⟩
  writes := rfl
  records := nofun
  pools := nofun
  pairs := rfl
  blocks k hk hle := by omega

theorem Synced.opened (h : f.Synced height s journal) :
    f.Synced height (s.syncedHeight f.chain).2 (journal ++ [{
      deed := .opened (s.syncedHeight f.chain).1, store := (s.syncedHeight f.chain).2 }]) := by
  have hsynced : s.syncedHeight f.chain = (height, s) := At.syncedHeight_eq h.progress
  rw [hsynced]
  refine h.keep (.refl _) ?_
  intro m hm
  rw [List.mem_singleton.1 hm]
  exact ⟨rfl, rfl⟩

theorem Synced.step {t t' : Trail σ} (h : f.Synced height t.world.store t.journal)
    (hstep : f.Step t t') : ∃ height', f.Synced height' t'.world.store t'.journal := by
  cases hstep with
  | plain _ hsame _ hmore =>
    refine ⟨height, h.keep hsame fun m hm => ⟨(hmore m hm).1, ?_⟩⟩
    have hplain := (hmore m hm).2
    cases hdeed : m.deed with
    | wrote _ =>
      rw [hdeed] at hplain
      exact hplain.elim
    | _ => rfl
  | @validated _ _ outcome _ _ _ hvalidate =>
    refine ⟨height, h.keep (sameBlocks_of_validate hvalidate) ?_⟩
    intro m hm
    rw [List.mem_singleton.1 hm]
    cases outcome <;> exact ⟨rfl, rfl⟩
  | wrote hat _ hfetched hlisting hall hinsert =>
    obtain rfl := At.unique hat h.progress
    exact ⟨_, h.write hfetched hlisting hall hinsert⟩

/-- Before the first run the store is empty; from then on it is in order. -/
theorem Reached.synced (h : f.Reached s journal) :
    s = {} ∧ journal = [] ∨ ∃ height, f.Synced height s journal := by
  induction h with
  | start => exact .inl ⟨rfl, rfl⟩
  | opened _ ih =>
    rcases ih with ⟨rfl, rfl⟩ | ⟨height, h⟩
    · rw [syncedHeight_of_progress_nil rfl]
      exact .inr ⟨0, synced_of_empty⟩
    · exact .inr ⟨height, h.opened⟩
  | step _ hstep ih =>
    rcases ih with ⟨hstore, -⟩ | ⟨height, h⟩
    · exfalso
      obtain ⟨height, hat⟩ := hstep.at_left
      rw [hstore] at hat
      cases hat
    · exact .inr (h.step hstep)

/-- **Exactly once.** After any runs on an empty store, the last of which is `turn`, the store
and the journal are in order: one height, reached in steps of one; rows of blocks up to there
only; every block written in one attempt, from the transactions fetched in it and the registry
of the block before; and the pairs those of the creations. The journal tells what has
happened, and goes on from that of the runs before. If the last run succeeds, the height is
the one that the source told. -/
theorem exactly_once (f : Follower σ) (source : σ) (turns : List (Turn σ)) (turn : Turn σ) :
    ∃ height,
      f.Synced height (f.worldAfter source (turns ++ [turn])).store
        (f.history source (turns ++ [turn])).journal ∧
      (∀ m ∈ (f.history source (turns ++ [turn])).journal, f.Witnessed m) ∧
      (f.history source turns).journal <+: (f.history source (turns ++ [turn])).journal ∧
      ((f.run (turn.enter (f.worldAfter source turns))).1 = .ok () →
        (f.source.height turn.source).1 = .ok height) := by
  obtain ⟨t, hworld, hjournal, hstart, hlast⟩ := f.exists_last_run source turns turn
  have hreached := f.reached_history source (turns ++ [turn])
  obtain ⟨reached, hat⟩ := at_of_run hstart.sound
  rw [← hlast] at hat
  -- The last run has opened, so there is a height.
  rcases hreached.synced with ⟨hempty, -⟩ | ⟨height, hsynced⟩
  · rw [hempty] at hat
    cases hat
  refine ⟨height, ?_, hreached.witnessed, ?_, ?_⟩
  · rw [← f.world_history]
    exact hsynced
  · rw [← hjournal, hlast]
    exact prefix_journal_of_run hstart.sound
  · intro hok
    rw [← hworld] at hok
    obtain ⟨remote, hremote, hat⟩ := at_of_run_eq_ok hstart.sound (Prod.ext hok rfl)
    rw [← hlast] at hat
    have hsource : t.world.source = turn.source := by rw [hworld, turn.enter_source]
    rw [At.unique hsynced.progress hat, ← hsource]
    exact hremote

end Follower

end PoolLedger
