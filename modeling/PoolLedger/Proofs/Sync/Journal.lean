import Mathlib.Data.List.Induction
import PoolLedger.Proofs.Outcome
import PoolLedger.Sync.Run

/-!
# The journal of a follower

What a follower does leaves traces in the store only in part: which transactions a block was read
from, or that pools were validated, is not kept. A `Trail` is a world with a journal of the deeds
that led to it, each with the store right after it. `Follower.journaledRun` is `Follower.run` with
its steps noted in the journal: forgetting the journal gives back the run, and a run that fails
notes why (`reports_run`).

A `Follower.history` is what comes of any number of runs. Between two runs the source may change at
will, and the follower may be started anew.
-/

namespace PoolLedger

variable {σ : Type} {α β : Type}

/-! ## Noting what is done -/

/-- What a follower does. -/
inductive Deed where
  /-- A run begins, at the height up to which the chain has been followed. -/
  | opened (height : Int)
  /-- The source tells the height that it has reached. -/
  | told (height : Int)
  /-- The source tells the transactions of a block. -/
  | fetched (height : Int) (txs : List RawTx)
  /-- The source tells the pools of some pairs. -/
  | listed (height : Int) (pairs : List Pair) (pools : List Pool)
  /-- A block is written. -/
  | wrote (height : Int)
  /-- Pools are validated, and nothing is wrong with them. -/
  | validated (first last : Int) (pools : List Pool)
  /-- Something fails, and the run with it. -/
  | failed (cause : SyncError)
deriving DecidableEq, Repr

/-- A deed, and the store right after it. -/
structure Moment where
  deed : Deed
  store : Store
deriving DecidableEq, Repr

/-- A world, and the journal of how it came about. -/
structure Trail (σ : Type) where
  world : World σ
  journal : List Moment := []

/-- Steps of following a chain that keep a journal. -/
abbrev Journaling (σ : Type) := ExceptT SyncError (StateM (Trail σ))

/-- What is added to the journal for a deed, if there is any. -/
def entry (deed : Option Deed) (store : Store) : List Moment :=
  deed.toList.map fun deed => { deed, store }

/-- A step that is noted as the given deed if it succeeds, and as a failure if it fails. -/
def noted (step : Syncing σ α) (deed : α → Option Deed := fun _ => none) : Journaling σ α :=
  fun t =>
  match step t.world with
  | (.ok a, world) => (.ok a, { world, journal := t.journal ++ entry (deed a) world.store })
  | (.error e, world) =>
    (.error e, { world, journal := t.journal ++ [{ deed := .failed e, store := world.store }] })

theorem noted_ok {step : Syncing σ α} {deed : α → Option Deed} {t : Trail σ} {a : α}
    {world : World σ} (h : step t.world = (.ok a, world)) :
    noted step deed t =
      (.ok a, { world, journal := t.journal ++ entry (deed a) world.store }) := by
  unfold noted
  rw [h]

theorem noted_error {step : Syncing σ α} {deed : α → Option Deed} {t : Trail σ} {e : SyncError}
    {world : World σ} (h : step t.world = (.error e, world)) :
    noted step deed t = (.error e, {
      world, journal := t.journal ++ [{ deed := .failed e, store := world.store }] }) := by
  unfold noted
  rw [h]

/-! ## Runs that keep a journal -/

namespace Follower

/-- `Follower.snapshot`, noting what the source tells. -/
def journaledSnapshot (f : Follower σ) (height : Int) (registry : Registry) :
    Journaling σ (List Pool) := do
  if ← noted (due f.policy.snapshotInterval height) then
    noted (Syncing.ask (f.source.pools height registry.pairs)) fun pools =>
      some (.listed height registry.pairs pools)
  else return []

/-- `Follower.writeBlock`, noting what the source tells and that the block is written. -/
def journaledWrite (f : Follower σ) (height : Int) : Journaling σ (Registry × List Pool) := do
  let txs ← noted (Syncing.ask (f.source.transactions height)) fun txs => some (.fetched height txs)
  let (records, registry) ← noted (f.readBlock height txs)
  let pools ← f.journaledSnapshot height registry
  noted (Syncing.commit fun s => s.insert f.chain height records pools (createdPairs records))
    fun _ => some (.wrote height)
  return (registry, pools)

/-- `Follower.validateBlock`, noting what the source tells and that the pools are validated. -/
def journaledValidation (f : Follower σ) (height : Int) (registry : Registry) (pools : List Pool) :
    Journaling σ Unit := do
  if ← noted (due f.policy.validationInterval height) then
    let pools ←
      if pools.isEmpty then
        noted (Syncing.ask (f.source.pools height registry.pairs)) fun pools =>
          some (.listed height registry.pairs pools)
      else pure pools
    noted (f.validate 0 height pools) fun _ => some (.validated 0 height pools)

/-- `Follower.validateStart` with a journal: no pools are at hand, and the registry is in the
store. -/
def journaledStart (f : Follower σ) (height : Int) : Journaling σ Unit := fun t =>
  f.journaledValidation height (t.world.store.registry f.chain) [] t

/-- `Follower.processBlocks` with a journal. -/
def journaledBlocks (f : Follower σ) : Nat → Int → Journaling σ Unit
  | 0, _ => pure ()
  | count + 1, height => do
    let (registry, pools) ← f.journaledWrite height
    f.journaledValidation height registry pools
    f.journaledBlocks count (height + 1)

/-- What a run does after it has been opened at a height. -/
def journaledRest (f : Follower σ) (synced : Int) : Journaling σ Unit := do
  let remote ← noted (Syncing.ask f.source.height) fun height => some (.told height)
  noted (f.acceptHeight synced remote)
  f.journaledStart synced
  f.journaledBlocks (remote - synced).toNat (synced + 1)

/-- `Follower.run` with a journal. -/
def journaledRun (f : Follower σ) : Journaling σ Unit := do
  f.journaledRest (← noted f.openChain fun height => some (.opened height))

end Follower

/-! ## Forgetting the journal -/

/-- A step with a journal is the other step when the journal is forgotten, and notes
why it fails if it does. -/
structure Reports (m : Journaling σ α) (n : Syncing σ α) : Prop where
  forgets : ∀ t, ((m t).1, (m t).2.world) = n t.world
  confesses : ∀ t e, (m t).1 = .error e → ∃ store, { deed := .failed e, store } ∈ (m t).2.journal

theorem Reports.noted (step : Syncing σ α) (deed : α → Option Deed) :
    Reports (noted step deed) step where
  forgets t := by
    rcases h : step t.world with ⟨e | a, world⟩
    · rw [noted_error h]
    · rw [noted_ok h]
  confesses t e he := by
    rcases h : step t.world with ⟨e' | a, world⟩
    · rw [noted_error h] at he ⊢
      obtain rfl := Except.error.inj he
      exact ⟨world.store, List.mem_append_right _ (List.mem_singleton_self _)⟩
    · rw [noted_ok h] at he
      cases he

theorem Reports.pure (a : α) : Reports (pure a : Journaling σ α) (pure a) where
  forgets _ := rfl
  confesses _ _ he := nomatch he

theorem Reports.bind {m : Journaling σ α} {n : Syncing σ α} {k : α → Journaling σ β}
    {l : α → Syncing σ β} (hm : Reports m n) (hk : ∀ a, Reports (k a) (l a)) :
    Reports (m >>= k) (n >>= l) where
  forgets t := by
    have h := hm.forgets t
    rw [run_bind, run_bind, ← h]
    rcases m t with ⟨e | a, t₁⟩
    · rfl
    · exact (hk a).forgets t₁
  confesses t e he := by
    have h := hm.confesses t
    rw [run_bind] at he ⊢
    rcases hmt : m t with ⟨e' | a, t₁⟩
    · rw [hmt] at h he
      obtain rfl := Except.error.inj he
      exact h e' rfl
    · rw [hmt] at he
      exact (hk a).confesses t₁ e he

namespace Follower

theorem reports_snapshot (f : Follower σ) (height : Int) (registry : Registry) :
    Reports (f.journaledSnapshot height registry) (f.snapshot height registry) := by
  refine (Reports.noted _ _).bind ?_
  intro isDue
  cases isDue with
  | false => exact .pure _
  | true => exact .noted _ _

theorem reports_write (f : Follower σ) (height : Int) :
    Reports (f.journaledWrite height) (f.writeBlock height) :=
  (Reports.noted _ _).bind fun _ => (Reports.noted _ _).bind fun (_, registry) =>
    (f.reports_snapshot height registry).bind fun _ => (Reports.noted _ _).bind fun _ => .pure _

theorem reports_validation (f : Follower σ) (height : Int) (registry : Registry)
    (pools : List Pool) :
    Reports (f.journaledValidation height registry pools)
      (f.validateBlock height registry pools) := by
  refine (Reports.noted _ _).bind ?_
  intro isDue
  cases isDue with
  | false => exact .pure _
  | true =>
    cases pools with
    | nil => exact (Reports.noted _ _).bind fun pools => .noted _ _
    | cons p pools => exact .noted _ _

/-- The validation at the start of a run is that of a block whose pools are not known yet. -/
theorem validateStart_eq (f : Follower σ) (height : Int) (w : World σ) :
    f.validateStart height w = f.validateBlock height (w.store.registry f.chain) [] w := by
  unfold validateStart validateBlock
  rw [run_bind, run_bind]
  cases due f.policy.validationInterval height with
  | error e => rfl
  | ok isDue => cases isDue <;> rfl

theorem reports_start (f : Follower σ) (height : Int) :
    Reports (f.journaledStart height) (f.validateStart height) where
  forgets t := by
    rw [validateStart_eq]
    exact (f.reports_validation height _ []).forgets t
  confesses t := (f.reports_validation height _ []).confesses t

theorem reports_blocks (f : Follower σ) (count : Nat) (height : Int) :
    Reports (f.journaledBlocks count height) (f.processBlocks count height) := by
  induction count generalizing height with
  | zero => exact .pure ()
  | succ count ih =>
    have hblock : Reports (do
        let (registry, pools) ← f.journaledWrite height
        f.journaledValidation height registry pools) (f.processBlock height) :=
      (f.reports_write height).bind fun (registry, pools) =>
        f.reports_validation height registry pools
    have h := hblock.bind fun _ => ih (height + 1)
    rwa [bind_assoc] at h

/-- **A run with a journal is a run of which everything is noted.** -/
theorem reports_run (f : Follower σ) : Reports f.journaledRun f.run :=
  (Reports.noted _ _).bind fun synced => (Reports.noted _ _).bind fun _ =>
    (Reports.noted _ _).bind fun _ => (f.reports_start synced).bind fun _ =>
    f.reports_blocks _ _

end Follower

/-! ## Histories -/

/-- What happens before a run: the source changes, and the follower may be started anew. -/
structure Turn (σ : Type) where
  source : σ
  restarted : Bool := false

/-- The world in which the next run begins. -/
def Turn.enter (turn : Turn σ) (w : World σ) : World σ :=
  { if turn.restarted then w.restarted else w with source := turn.source }

theorem Turn.enter_store (turn : Turn σ) (w : World σ) : (turn.enter w).store = w.store := by
  unfold enter
  split <;> rfl

theorem Turn.enter_source (turn : Turn σ) (w : World σ) : (turn.enter w).source = turn.source := rfl

namespace Follower

/-- The world after some runs, the first of them on an empty store. -/
def worldAfter (f : Follower σ) (source : σ) (turns : List (Turn σ)) : World σ :=
  turns.foldl (fun w turn => (f.run (turn.enter w)).2) { source }

/-- A trail with one more run. -/
def resume (f : Follower σ) (t : Trail σ) (turn : Turn σ) : Trail σ :=
  (f.journaledRun { t with world := turn.enter t.world }).2

/-- The same runs with a journal of all that they do. -/
def history (f : Follower σ) (source : σ) (turns : List (Turn σ)) : Trail σ :=
  turns.foldl f.resume { world := { source } }

theorem history_append (f : Follower σ) (source : σ) (turns : List (Turn σ)) (turn : Turn σ) :
    f.history source (turns ++ [turn]) = f.resume (f.history source turns) turn := by
  rw [history, List.foldl_append]
  rfl

theorem worldAfter_append (f : Follower σ) (source : σ) (turns : List (Turn σ)) (turn : Turn σ) :
    f.worldAfter source (turns ++ [turn]) = (f.run (turn.enter (f.worldAfter source turns))).2 := by
  rw [worldAfter, List.foldl_append]
  rfl

/-- A history leads to the world that the runs lead to. -/
theorem world_history (f : Follower σ) (source : σ) (turns : List (Turn σ)) :
    (f.history source turns).world = f.worldAfter source turns := by
  induction turns using List.reverseRecOn with
  | nil => rfl
  | append_singleton turns turn ih =>
    rw [history_append, worldAfter_append, ← ih]
    exact congrArg Prod.snd (f.reports_run.forgets { f.history source turns with
      world := turn.enter (f.history source turns).world })

end Follower

end PoolLedger
