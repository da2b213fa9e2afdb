import Mathlib.Logic.Relation
import PoolLedger.Proofs.Sync.Journal
import PoolLedger.Proofs.Sync.Quiet

/-!
# What a follower does step by step

`Follower.Step` lists the steps of a run after it has been opened. A *plain* step asks the source or
fails; the blocks of the store stay the same. In a step that *validates*, the pools are those that
the source told for exactly the registered pairs. A step that *writes* a block follows upon the
fetching of its transactions, and if validation was due at the height before, it has been done in
this run (`Follower.Checked`).

A computation `Walks` if it goes by such steps, wherever it fails; `Walks.bind` puts walks together.
-/

namespace PoolLedger

variable {σ : Type} {α β : Type}

/-! ## What is known of a journal -/

/-- Whether a deed begins a run. -/
def Deed.IsOpening : Deed → Prop
  | opened _ => True
  | _ => False

namespace Follower

/-- The store follows the chain of the follower and no other one, up to a height. -/
def At (f : Follower σ) (height : Int) (s : Store) : Prop :=
  s.progress = [{ chain := f.chain, height }]

/-- The source told these pools of these pairs at a height, in the current run. -/
def Listed (height : Int) (pairs : List Pair) (pools : List Pool) (journal : List Moment) : Prop :=
  ∃ early late store, journal = early ++ { deed := .listed height pairs pools, store } :: late ∧
    ∀ m ∈ late, ¬m.deed.IsOpening

/-- At a height, in the current run, the pools that the source told of exactly the registered pairs
have been validated against all blocks up to there. -/
def Checked (f : Follower σ) (height : Int) (journal : List Moment) : Prop :=
  ∃ early late store pools,
    journal = early ++ { deed := .validated 0 height pools, store } :: late ∧
    (∀ m ∈ late, ¬m.deed.IsOpening) ∧ f.At height store ∧
    Listed height (store.registry f.chain).pairs pools early

theorem Checked.append {f : Follower σ} {height : Int} {journal more : List Moment}
    (h : f.Checked height journal) (hmore : ∀ m ∈ more, ¬m.deed.IsOpening) :
    f.Checked height (journal ++ more) := by
  obtain ⟨early, late, store, pools, rfl, hlate, hat, hlisted⟩ := h
  refine ⟨early, late ++ more, store, pools, by simp, ?_, hat, hlisted⟩
  intro m hm
  exact (List.mem_append.1 hm).elim (hlate m) (hmore m)

/-! ## Steps -/

/-- A deed by which nothing is written and nothing validated. What the source is said
to tell it does tell. -/
def IsPlain (f : Follower σ) : Deed → Prop
  | .told height => ∃ s, (f.source.height s).1 = .ok height
  | .fetched height txs => ∃ s, (f.source.transactions height s).1 = .ok txs
  | .listed height pairs pools => ∃ s, (f.source.pools height pairs s).1 = .ok pools
  | .failed cause => ∀ mismatch, cause ≠ .mismatch mismatch
  | _ => False

/-- How a validation is noted. -/
def verdict (height : Int) (pools : List Pool) : Except SyncError Unit → Deed
  | .ok _ => .validated 0 height pools
  | .error e => .failed e

/-- Whether validation is due at a height. -/
def IsDue (f : Follower σ) (height : Int) : Prop := f.policy.validationInterval ∣ height

/-- The pools that are stored with a block: those that the source tells of the pairs registered by
then, if the height is one at which pools are stored, and none otherwise. -/
structure IsSnapshot (f : Follower σ) (height : Int) (registry : Registry)
    (pools : List Pool) : Prop where
  skipped : ¬f.policy.snapshotInterval ∣ height → pools = []
  told : f.policy.snapshotInterval ∣ height →
    ∃ s, (f.source.pools height registry.pairs s).1 = .ok pools

/-- One step of a run, at the height up to which the chain has been followed. -/
inductive Step (f : Follower σ) : Trail σ → Trail σ → Prop
  | plain {t : Trail σ} {height : Int} {world : World σ} {more : List Moment} :
      f.At height t.world.store → t.world.store.SameBlocks world.store →
      world.store.exempt = t.world.store.exempt →
      (∀ m ∈ more, m.store = world.store ∧ f.IsPlain m.deed) →
      Step f t { world, journal := t.journal ++ more }
  | validated {t : Trail σ} {height : Int} {pools : List Pool} {outcome : Except SyncError Unit}
      {world : World σ} :
      f.At height t.world.store →
      Listed height (t.world.store.registry f.chain).pairs pools t.journal →
      f.validate 0 height pools t.world = (outcome, world) →
      Step f t {
        world
        journal := t.journal ++ [{ deed := verdict height pools outcome, store := world.store }] }
  | wrote {t : Trail σ} {height : Int} {txs : List RawTx} {records : List Record}
      {pools : List Pool} {early listing : List Moment} {store : Store} :
      f.At height t.world.store → (f.IsDue height → f.Checked height t.journal) →
      t.journal = early ++
        { deed := .fetched (height + 1) txs, store := t.world.store } :: listing →
      (∀ m ∈ listing, ∃ pairs pools, m.deed = .listed (height + 1) pairs pools) →
      (∀ flags, (f.profile.extractAll (height + 1) txs
        { registry := t.world.store.registry f.chain, flags }).1 = .ok records) →
      t.world.store.insert f.chain (height + 1) records pools (createdPairs records) = .ok store →
      f.IsSnapshot (height + 1) ((t.world.store.registry f.chain).insertAll (createdPairs records))
        pools →
      Step f t {
        world := { t.world with store }
        journal := t.journal ++ [{ deed := .wrote (height + 1), store }] }

/-- A computation goes by steps, and what it gives satisfies a condition. -/
def Walks (f : Follower σ) (m : Journaling σ α) (t : Trail σ) (Q : α → Trail σ → Prop) : Prop :=
  Relation.ReflTransGen f.Step t (m t).2 ∧ ∀ a t', m t = (.ok a, t') → Q a t'

namespace Walks

variable {f : Follower σ} {t : Trail σ}

theorem pure {a : α} {Q : α → Trail σ → Prop} (h : Q a t) : f.Walks (pure a) t Q := by
  refine ⟨.refl, ?_⟩
  intro b t' hb
  obtain ⟨rfl, rfl⟩ := run_pure_eq_ok.1 hb
  exact h

theorem bind {m : Journaling σ α} {k : α → Journaling σ β} {Q : α → Trail σ → Prop}
    {R : β → Trail σ → Prop} (hm : f.Walks m t Q) (hk : ∀ a t', Q a t' → f.Walks (k a) t' R) :
    f.Walks (m >>= k) t R := by
  obtain ⟨hpath, hpost⟩ := hm
  unfold Walks
  rw [run_bind]
  rcases hmt : m t with ⟨e | a, t₁⟩
  · rw [hmt] at hpath
    exact ⟨hpath, fun _ _ h => nomatch h⟩
  · rw [hmt] at hpath
    obtain ⟨hrest, hend⟩ := hk a t₁ (hpost a t₁ hmt)
    exact ⟨hpath.trans hrest, hend⟩

/-- A quiet step that is noted as something plain goes by one plain step. -/
theorem noted {step : Syncing σ α} {deed : α → Option Deed} {height : Int}
    {Q : α → Trail σ → Prop} (hquiet : Quiet step) (hat : f.At height t.world.store)
    (hok : ∀ a t', step t.world = (.ok a, t'.world) →
      t'.journal = t.journal ++ entry (deed a) t'.world.store →
      (∀ d ∈ deed a, f.IsPlain d) ∧ Q a t') :
    f.Walks (noted step deed) t Q := by
  rcases hstep : step t.world with ⟨e | a, world⟩
  · obtain ⟨hsame, hexempt, hcause⟩ := hquiet _ _ _ hstep
    unfold Walks
    rw [noted_error hstep]
    refine ⟨.single (.plain hat hsame hexempt ?_), fun _ _ h => nomatch h⟩
    intro m hm
    rw [List.mem_singleton.1 hm]
    exact ⟨rfl, fun mismatch he => hcause mismatch (congrArg Except.error he)⟩
  · obtain ⟨hsame, hexempt, -⟩ := hquiet _ _ _ hstep
    obtain ⟨hplain, hQ⟩ :=
      hok a { world, journal := t.journal ++ entry (deed a) world.store } hstep rfl
    unfold Walks
    rw [noted_ok hstep]
    refine ⟨.single (.plain hat hsame hexempt ?_), ?_⟩
    · intro m hm
      obtain ⟨d, hd, rfl⟩ := List.mem_map.1 hm
      exact ⟨rfl, hplain d (Option.mem_toList.1 hd)⟩
    · intro b t' h
      obtain ⟨hb, rfl⟩ := Prod.mk.inj h
      exact Except.ok.inj hb ▸ hQ

theorem silent {step : Syncing σ α} {height : Int} {Q : α → Trail σ → Prop}
    (hquiet : Quiet step) (hat : f.At height t.world.store)
    (hok : ∀ a t', step t.world = (.ok a, t'.world) → t'.journal = t.journal → Q a t') :
    f.Walks (PoolLedger.noted step) t Q := by
  refine noted hquiet hat fun a t' hstep hjournal => ⟨nofun, hok a t' hstep ?_⟩
  rw [hjournal]
  exact List.append_nil _

end Walks

end Follower

end PoolLedger
