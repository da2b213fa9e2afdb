import PoolLedger.Proofs.Sync.Step

/-!
# Runs go by steps

Whatever the source does and wherever a run fails, once it has been opened it goes by
`Follower.Step` (`walks_rest`). The induction is on the blocks that are left; what carries it
is that the store is at the height before the next block, and that this height has been
checked if that was due.
-/

namespace PoolLedger

variable {σ : Type}

namespace Follower

/-! ## Blocks -/

variable {f : Follower σ} {t : Trail σ} {height : Int}

theorem walks_commit {txs : List RawTx} {records : List Record} {pools : List Pool}
    {early listing : List Moment} (hat : f.At height t.world.store)
    (hchecked : f.IsDue height → f.Checked height t.journal)
    (hfetched : t.journal =
      early ++ { deed := .fetched (height + 1) txs, store := t.world.store } :: listing)
    (hlisting : ∀ m ∈ listing, ∃ pairs pools, m.deed = .listed (height + 1) pairs pools)
    (hall : ∀ flags, (f.profile.extractAll (height + 1) txs
      { registry := t.world.store.registry f.chain, flags }).1 = .ok records)
    (hsnapshot : f.IsSnapshot (height + 1)
      ((t.world.store.registry f.chain).insertAll (createdPairs records)) pools) :
    f.Walks (noted (Syncing.commit fun s =>
        s.insert f.chain (height + 1) records pools (createdPairs records))
      fun _ => some (.wrote (height + 1))) t fun _ t' =>
        t.world.store.insert f.chain (height + 1) records pools (createdPairs records) =
          .ok t'.world.store ∧
        t'.journal = t.journal ++ [{ deed := .wrote (height + 1), store := t'.world.store }] := by
  rcases hstep : Syncing.commit (fun s =>
    s.insert f.chain (height + 1) records pools (createdPairs records)) t.world with ⟨e | a, world⟩
  · obtain ⟨⟨cause, rfl⟩, rfl⟩ := commit_eq_error hstep
    unfold Walks
    rw [noted_error hstep]
    refine ⟨.single (.plain hat (.refl _) rfl ?_), fun _ _ h => nomatch h⟩
    intro m hm
    rw [List.mem_singleton.1 hm]
    exact ⟨rfl, nofun⟩
  · obtain ⟨store, hinsert, rfl⟩ := commit_eq_ok hstep
    unfold Walks
    rw [noted_ok hstep]
    refine ⟨.single (.wrote hat hchecked hfetched hlisting hall hinsert hsnapshot), ?_⟩
    intro _ t' h
    obtain ⟨-, rfl⟩ := Prod.mk.inj h
    exact ⟨hinsert, rfl⟩

theorem walks_validate {pools : List Pool} (hat : f.At height t.world.store)
    (hlisted : Listed height (t.world.store.registry f.chain).pairs pools t.journal) :
    f.Walks (noted (f.validate 0 height pools) fun _ => some (.validated 0 height pools)) t
      fun _ t' => f.At height t'.world.store ∧ (f.IsDue height → f.Checked height t'.journal) := by
  unfold Walks
  rcases hstep : f.validate 0 height pools t.world with ⟨e | _, world⟩
  · rw [noted_error hstep]
    exact ⟨.single (.validated hat hlisted hstep), fun _ _ h => nomatch h⟩
  · rw [noted_ok hstep]
    refine ⟨.single (.validated hat hlisted hstep), ?_⟩
    intro _ t' h
    obtain ⟨-, rfl⟩ := Prod.mk.inj h
    have hsame := sameBlocks_of_validate hstep
    refine ⟨hsame.progress.trans hat, fun _ => ⟨t.journal, [], world.store, pools, rfl, nofun,
      hsame.progress.trans hat, ?_⟩⟩
    rw [hsame.registry_eq]
    exact hlisted

/-- A block that is written moves the height on. -/
theorem At.insert {s s' : Store} {height' : Int} {records : List Record} {pools : List Pool}
    {pairs : List Pair} (hat : f.At height s)
    (h : s.insert f.chain height' records pools pairs = .ok s') :
    height' = height + 1 ∧ f.At (height + 1) s' := by
  obtain ⟨⟨r, hr, -, hheight⟩, rows, -, rfl⟩ := Store.insert_eq_ok h
  rw [hat, List.mem_singleton] at hr
  have hnext : height' = height + 1 := by
    rw [hr] at hheight
    have : height = height' - 1 := hheight
    omega
  refine ⟨hnext, ?_⟩
  subst hnext
  show Store.advance f.chain (height + 1) s.progress = _
  rw [hat]
  exact Store.advance_singleton f.chain height

theorem walks_fetch (hat : f.At height t.world.store) :
    f.Walks (noted (Syncing.ask (f.source.transactions (height + 1))) fun txs =>
        some (.fetched (height + 1) txs)) t fun txs t' =>
      t'.world.store = t.world.store ∧ t'.journal =
        t.journal ++ [{ deed := .fetched (height + 1) txs, store := t.world.store }] := by
  refine .noted (quiet_ask _) hat ?_
  intro txs t' hask hjournal
  obtain ⟨hanswer, hstore⟩ := ask_eq_ok hask
  refine ⟨?_, hstore, hstore ▸ hjournal⟩
  intro d hd
  obtain rfl := Option.mem_some.1 hd
  exact ⟨_, hanswer⟩

/-- Reading them: the registry that is left is that of the store with the pairs that are created. -/
theorem walks_read (hat : f.At height t.world.store) (txs : List RawTx) :
    f.Walks (noted (f.readBlock (height + 1) txs)) t fun known t' =>
      t'.world.store = t.world.store ∧ t'.journal = t.journal ∧
        known.2 = (t.world.store.registry f.chain).insertAll (createdPairs known.1) ∧
        ∀ flags, (f.profile.extractAll (height + 1) txs
          { registry := t.world.store.registry f.chain, flags }).1 = .ok known.1 := by
  refine .silent (f.quiet_readBlock _ _) hat fun (records, registry) t' hread hjournal => ?_
  obtain ⟨hstore, known, rfl, hall⟩ := readBlock_eq_ok hread
  refine ⟨hstore, hjournal, Profile.registry_of_extractAll hall, ?_⟩
  intro flags
  have hflags : (f.profile.extractAll (height + 1) txs
      { registry := t.world.store.registry f.chain, flags := t.world.flags }).1 = .ok records :=
    congrArg Prod.fst hall
  exact hflags ▸ Profile.extractAll_flags _ _ _ _ _ _

/-- What is noted of a snapshot: the pools, or nothing if none was due. -/
def SnapshotNoted (height : Int) (pairs : List Pair) (pools : List Pool) (store : Store)
    (listing : List Moment) : Prop :=
  pools = [] ∧ listing = [] ∨ listing = [{ deed := .listed height pairs pools, store }]

theorem SnapshotNoted.deed_eq {pairs : List Pair} {pools : List Pool} {store : Store}
    {listing : List Moment} (h : SnapshotNoted height pairs pools store listing) :
    ∀ m ∈ listing, ∃ pairs pools, m.deed = .listed height pairs pools := by
  intro m hm
  rcases h with ⟨-, rfl⟩ | rfl
  · cases hm
  · exact ⟨pairs, pools, by rw [List.mem_singleton.1 hm]⟩

theorem not_isOpening_of_fetched {txs : List RawTx} {store : Store} {listing : List Moment}
    (h : ∀ m ∈ listing, ∃ pairs pools, m.deed = .listed height pairs pools) :
    ∀ m ∈ { deed := .fetched height txs, store } :: listing, ¬m.deed.IsOpening := by
  intro m hm
  rcases List.mem_cons.1 hm with rfl | hm
  · exact id
  · obtain ⟨_, _, hdeed⟩ := h m hm
    rw [hdeed]
    exact id

theorem walks_due (hat : f.At height t.world.store) (interval next : Int) :
    f.Walks (noted (due interval next)) t fun isDue t' =>
      t'.world.store = t.world.store ∧ t'.journal = t.journal ∧
      (isDue = true ↔ interval ∣ next) := by
  refine .silent (quiet_due _ _) hat ?_
  intro isDue t' hdue hjournal
  obtain ⟨hdue, hworld⟩ := run_lift_eq_ok.1 hdue
  exact ⟨congrArg World.store hworld.symm, hjournal, due_eq_ok hdue⟩

/-- Taking a snapshot of the pools, if one is due. -/
theorem walks_snapshot (hat : f.At height t.world.store) (registry : Registry) :
    f.Walks (f.journaledSnapshot (height + 1) registry) t fun pools t' =>
      t'.world.store = t.world.store ∧ f.IsSnapshot (height + 1) registry pools ∧
        ∃ listing, t'.journal = t.journal ++ listing ∧
          SnapshotNoted (height + 1) registry.pairs pools t.world.store listing := by
  refine (walks_due hat f.policy.snapshotInterval (height + 1)).bind ?_
  rintro isDue t₁ ⟨hstore₁, hjournal₁, hdue⟩
  cases isDue with
  | false =>
    exact .pure ⟨hstore₁, ⟨fun _ => rfl, fun h => nomatch hdue.2 h⟩, [],
      by rw [hjournal₁, List.append_nil], .inl ⟨rfl, rfl⟩⟩
  | true =>
    refine .noted (quiet_ask _) (hstore₁ ▸ hat) ?_
    intro pools t' hask hjournal
    obtain ⟨hanswer, hstore⟩ := ask_eq_ok hask
    refine ⟨?_, hstore.trans hstore₁, ⟨fun h => absurd (hdue.1 rfl) h, fun _ => ⟨_, hanswer⟩⟩,
      _, ?_, .inr rfl⟩
    · intro d hd
      obtain rfl := Option.mem_some.1 hd
      exact ⟨_, hanswer⟩
    · rw [hjournal, hjournal₁, hstore, hstore₁]
      rfl

/-- Reading and writing a block. In the end the registry is that of the store, and the pools, if
there are any, are what the source told of its pairs. -/
theorem walks_write (hat : f.At height t.world.store)
    (hchecked : f.IsDue height → f.Checked height t.journal) :
    f.Walks (f.journaledWrite (height + 1)) t fun known t' =>
      f.At (height + 1) t'.world.store ∧ known.1 = t'.world.store.registry f.chain ∧
        (known.2 = [] ∨ Listed (height + 1) known.1.pairs known.2 t'.journal) := by
  refine (walks_fetch hat).bind ?_
  rintro txs t₁ ⟨hstore₁, hjournal₁⟩
  refine (walks_read (hstore₁ ▸ hat) txs).bind ?_
  rintro ⟨records, registry⟩ t₂ ⟨hstore₂, hjournal₂, hregistry, hall⟩
  rw [hstore₁] at hstore₂ hregistry hall
  refine (walks_snapshot (hstore₂ ▸ hat) registry).bind ?_
  rintro pools t₃ ⟨hstore₃, hsnapshot, listing, hjournal₃, hnoted⟩
  rw [hstore₂] at hstore₃ hnoted
  rw [hjournal₂, hjournal₁, List.append_assoc, List.singleton_append, ← hstore₃] at hjournal₃
  rw [← hstore₃] at hat hall hregistry
  -- Nothing that was done for this block began a run, so what was checked still is.
  have hchecked₃ : f.IsDue height → f.Checked height t₃.journal := fun hdue =>
    hjournal₃ ▸ (hchecked hdue).append (not_isOpening_of_fetched hnoted.deed_eq)
  refine (walks_commit hat hchecked₃ hjournal₃ hnoted.deed_eq hall (hregistry ▸ hsnapshot)).bind ?_
  rintro - t₄ ⟨hinsert, hjournal₄⟩
  have hregistry₄ : registry = t₄.world.store.registry f.chain :=
    hregistry.trans (Store.registry_of_insert hinsert).symm
  refine .pure ⟨(hat.insert hinsert).2, hregistry₄, ?_⟩
  rcases hnoted with ⟨hnone, -⟩ | hsome
  · exact .inl hnone
  · refine .inr ⟨t.journal ++ [{ deed := .fetched (height + 1) txs, store := t₃.world.store }],
      [{ deed := .wrote (height + 1), store := t₄.world.store }], t.world.store, ?_, ?_⟩
    · rw [hjournal₄, hjournal₃, hsome]
      simp
    · intro m hm
      rw [List.mem_singleton.1 hm]
      exact id

/-- Validating the pools at a height that is written, if that is due. The pools may be at hand
already. -/
theorem walks_validation {registry : Registry} {pools : List Pool}
    (hat : f.At height t.world.store) (hregistry : registry = t.world.store.registry f.chain)
    (hpools : pools = [] ∨ Listed height registry.pairs pools t.journal) :
    f.Walks (f.journaledValidation height registry pools) t fun _ t' =>
      f.At height t'.world.store ∧ (f.IsDue height → f.Checked height t'.journal) := by
  refine (walks_due hat f.policy.validationInterval height).bind ?_
  rintro isDue t₁ ⟨hstore₁, hjournal₁, hdue⟩
  cases isDue with
  | false =>
    exact .pure ⟨hstore₁ ▸ hat, fun h => nomatch hdue.2 h⟩
  | true =>
    rw [← hstore₁] at hat hregistry
    rw [← hjournal₁] at hpools
    cases pools with
    | nil =>
      -- Without pools at hand the source is asked, which is noted.
      refine Walks.bind (Walks.noted (Q := fun pools t' => t'.world.store = t₁.world.store ∧
        Listed height registry.pairs pools t'.journal) (quiet_ask _) hat
        fun pools t' hask hjournal => ?_) ?_
      · obtain ⟨hanswer, hstore⟩ := ask_eq_ok hask
        refine ⟨?_, hstore, t₁.journal, [], t'.world.store, hjournal, nofun⟩
        intro d hd
        obtain rfl := Option.mem_some.1 hd
        exact ⟨_, hanswer⟩
      rintro pools t₂ ⟨hstore₂, hlisted⟩
      exact walks_validate (hstore₂ ▸ hat) (hstore₂ ▸ hregistry ▸ hlisted)
    | cons p rest =>
      rcases hpools with hnone | hlisted
      · cases hnone
      · exact walks_validate hat (hregistry ▸ hlisted)

theorem walks_start (hat : f.At height t.world.store) :
    f.Walks (f.journaledStart height) t fun _ t' =>
      f.At height t'.world.store ∧ (f.IsDue height → f.Checked height t'.journal) := by
  have h : f.Walks (f.journaledValidation height (t.world.store.registry f.chain) []) t fun _ t' =>
      f.At height t'.world.store ∧ (f.IsDue height → f.Checked height t'.journal) :=
    walks_validation hat rfl (.inl rfl)
  exact ⟨h.1, h.2⟩

/-- Processing blocks, of which the first is the one after the height that the store is at. -/
theorem walks_blocks (count : Nat) (hat : f.At height t.world.store)
    (hchecked : f.IsDue height → f.Checked height t.journal) :
    f.Walks (f.journaledBlocks count (height + 1)) t fun _ t' =>
      f.At (height + count) t'.world.store := by
  induction count generalizing height t with
  | zero => exact .pure (by simpa using hat)
  | succ count ih =>
    refine (walks_write hat hchecked).bind ?_
    rintro ⟨registry, pools⟩ t₁ ⟨hat₁, hregistry, hpools⟩
    refine (walks_validation hat₁ hregistry hpools).bind ?_
    rintro - t₂ ⟨hat₂, hchecked₂⟩
    have hrest := ih hat₂ hchecked₂
    have hheight : height + 1 + (count : Int) = height + ((count + 1 : Nat) : Int) := by omega
    rwa [hheight] at hrest

/-! ## Whole runs -/

/-- **Whatever the source does, a run that has been opened goes by steps.** If it succeeds, the
store is at the height that the source told. -/
theorem walks_rest (hat : f.At height t.world.store) :
    f.Walks (f.journaledRest height) t fun _ t' =>
      ∃ remote, (f.source.height t.world.source).1 = .ok remote ∧ f.At remote t'.world.store := by
  refine Walks.bind (Walks.noted (Q := fun remote t' => t'.world.store = t.world.store ∧
    (f.source.height t.world.source).1 = .ok remote) (quiet_ask _) hat
    fun remote t' hask hjournal => ?_) ?_
  · obtain ⟨hanswer, hstore⟩ := ask_eq_ok hask
    refine ⟨?_, hstore, hanswer⟩
    intro d hd
    obtain rfl := Option.mem_some.1 hd
    exact ⟨_, hanswer⟩
  rintro remote t₁ ⟨hstore₁, hremote⟩
  rw [← hstore₁] at hat
  refine Walks.bind (Walks.silent (Q := fun _ t' => f.At height t'.world.store ∧ height ≤ remote)
    (f.quiet_acceptHeight _ _) hat fun _ t' haccept _ => ?_) ?_
  · have hstore := (f.quiet_acceptHeight _ _ _ _ _ haccept).1
    exact ⟨hstore.progress.trans hat, le_of_acceptHeight haccept⟩
  rintro - t₂ ⟨hat₂, hle⟩
  refine (walks_start hat₂).bind ?_
  rintro - t₃ ⟨hat₃, hchecked⟩
  -- One step for each block that is missing; their number is not negative.
  have hblocks := walks_blocks (remote - height).toNat hat₃ hchecked
  refine ⟨hblocks.1, fun _ t' h => ⟨remote, hremote, ?_⟩⟩
  have hend := hblocks.2 _ t' h
  have hheight : height + ((remote - height).toNat : Int) = remote := by omega
  rwa [hheight] at hend

end Follower

end PoolLedger
