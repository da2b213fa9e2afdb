import PoolLedger.Proofs.Block
import PoolLedger.Proofs.Store

/-!
# Steps that leave the blocks alone

Most of what a follower does is `Quiet`: it keeps the blocks and the exemptions of the store,
and does not fail for a mismatch. So it is for asking the source, for finding out what is
due, for taking note of a height, and for reading a block. Validation keeps the blocks as
well, but may exempt pairs.
-/

namespace PoolLedger

variable {σ : Type} {α : Type}

/-- Whatever the world, a step keeps the blocks and the exemptions, and does not fail for a
mismatch. -/
def Quiet (step : Syncing σ α) : Prop :=
  ∀ w outcome w', step w = (outcome, w') → w.store.SameBlocks w'.store ∧
    w'.store.exempt = w.store.exempt ∧ ∀ mismatch, outcome ≠ .error (.mismatch mismatch)

/-! ## Asking the source -/

theorem quiet_ask (question : Querying σ α) : Quiet (Syncing.ask question) := by
  intro w outcome w' h
  obtain ⟨rfl, rfl⟩ := Prod.mk.inj h
  refine ⟨.refl _, rfl, ?_⟩
  intro mismatch hm
  obtain ⟨_, -, hcause⟩ := mapError_eq_error.1 hm
  exact nomatch hcause

theorem ask_eq_ok {question : Querying σ α} {w w' : World σ} {a : α}
    (h : Syncing.ask question w = (.ok a, w')) :
    (question w.source).1 = .ok a ∧ w'.store = w.store := by
  obtain ⟨hanswer, rfl⟩ := Prod.mk.inj h
  exact ⟨mapError_eq_ok.1 hanswer, rfl⟩

/-! ## What is due -/

theorem quiet_due (interval height : Int) :
    Quiet (liftM (due interval height) : Syncing σ Bool) := by
  intro w outcome w' h
  unfold due at h
  split at h
  · obtain ⟨rfl, rfl⟩ := Prod.mk.inj h
    exact ⟨.refl _, rfl, nofun⟩
  · obtain ⟨rfl, rfl⟩ := Prod.mk.inj h
    exact ⟨.refl _, rfl, nofun⟩

theorem due_eq_ok {interval height : Int} {isDue : Bool} (h : due interval height = .ok isDue) :
    isDue = true ↔ interval ∣ height := by
  unfold due at h
  split at h
  · cases h
  · injection h with h
    rw [← h, decide_eq_true_iff, Int.dvd_iff_emod_eq_zero]

namespace Follower

variable {f : Follower σ}

/-! ## Taking note of a height -/

theorem noteHeight_eq (f : Follower σ) (height : Int) (w : World σ) :
    f.noteHeight height w =
      if height = w.lastHeight then
        if f.policy.tolerance < w.sameCount + 1 then
          (.error (.stalled height (w.sameCount + 1)), { w with sameCount := w.sameCount + 1 })
        else (.ok (), { w with sameCount := w.sameCount + 1 })
      else (.ok (), { w with sameCount := 0, lastHeight := height }) := by
  unfold noteHeight
  show (if height = w.lastHeight then _ else _ : Syncing σ Unit) w = _
  split
  · show (if f.policy.tolerance < w.sameCount + 1 then _ else _ : Syncing σ Unit) _ = _
    split
    · rfl
    · rfl
  · rfl

theorem acceptHeight_eq (f : Follower σ) (synced remote : Int) (w : World σ) :
    f.acceptHeight synced remote w =
      if remote < synced then (.error (.behind remote synced), w) else f.noteHeight remote w := by
  unfold acceptHeight
  split
  · rfl
  · rfl

theorem quiet_noteHeight (f : Follower σ) (height : Int) : Quiet (f.noteHeight height) := by
  intro w outcome w' h
  rw [noteHeight_eq] at h
  split at h
  · split at h
    · obtain ⟨rfl, rfl⟩ := Prod.mk.inj h
      exact ⟨.refl _, rfl, nofun⟩
    · obtain ⟨rfl, rfl⟩ := Prod.mk.inj h
      exact ⟨.refl _, rfl, nofun⟩
  · obtain ⟨rfl, rfl⟩ := Prod.mk.inj h
    exact ⟨.refl _, rfl, nofun⟩

theorem quiet_acceptHeight (f : Follower σ) (synced remote : Int) :
    Quiet (f.acceptHeight synced remote) := by
  intro w outcome w' h
  rw [acceptHeight_eq] at h
  split at h
  · obtain ⟨rfl, rfl⟩ := Prod.mk.inj h
    exact ⟨.refl _, rfl, nofun⟩
  · exact f.quiet_noteHeight remote w outcome w' h

theorem le_of_acceptHeight {synced remote : Int} {w w' : World σ}
    (h : f.acceptHeight synced remote w = (.ok (), w')) : synced ≤ remote := by
  rw [acceptHeight_eq] at h
  split at h
  · cases h
  · omega

/-! ## Changing the store -/

theorem commit_eq_ok {operation : Store → Except StoreError Store} {w w' : World σ}
    (h : Syncing.commit operation w = (.ok (), w')) :
    ∃ store, operation w.store = .ok store ∧ w' = { w with store } := by
  unfold Syncing.commit at h
  split at h
  · rename_i store hstore
    obtain ⟨-, rfl⟩ := Prod.mk.inj h
    exact ⟨store, hstore, rfl⟩
  · cases h

theorem commit_eq_error {operation : Store → Except StoreError Store} {w w' : World σ}
    {e : SyncError} (h : Syncing.commit operation w = (.error e, w')) :
    (∃ cause, e = .store cause) ∧ w' = w := by
  unfold Syncing.commit at h
  split at h
  · cases h
  · rename_i cause _
    obtain ⟨hcause, rfl⟩ := Prod.mk.inj h
    exact ⟨⟨cause, (Except.error.inj hcause).symm⟩, rfl⟩

/-! ## Reading a block -/

/-- Records a transaction that could not be read, and fails. -/
def reject (f : Follower σ) (height : Int) (failed : FailedTx) :
    Syncing σ (List Record × Registry) := do
  Syncing.commit fun s => s.addFailure {
    chain := f.chain, height, hash := failed.hash, category := failed.cause.category.name,
    message := some failed.cause.message }
  throw (.reading failed.cause)

/-- A rejection fails in any case; only the transaction is added to the store. -/
theorem quiet_reject (f : Follower σ) (height : Int) (failed : FailedTx) :
    Quiet (f.reject height failed) ∧
      ∀ w a w', f.reject height failed w ≠ (.ok a, w') := by
  refine ⟨?_, ?_⟩
  · intro w outcome w' h
    unfold reject at h
    rw [run_bind] at h
    split at h
    · rename_i a w₁ hcommit
      obtain ⟨store, hadd, rfl⟩ := commit_eq_ok hcommit
      obtain ⟨rfl, rfl⟩ := Prod.mk.inj h
      obtain ⟨hsame, hexempt⟩ := Store.sameBlocks_of_addFailure hadd
      exact ⟨hsame, hexempt, nofun⟩
    · rename_i e w₁ hcommit
      obtain ⟨⟨cause, rfl⟩, rfl⟩ := commit_eq_error hcommit
      obtain ⟨rfl, rfl⟩ := Prod.mk.inj h
      exact ⟨.refl _, rfl, nofun⟩
  · intro w a w' h
    obtain ⟨_, _, -, hthrow⟩ := run_bind_eq_ok.1 h
    cases hthrow

theorem readBlock_eq (f : Follower σ) (height : Int) (txs : List RawTx) (w : World σ) :
    f.readBlock height txs w =
      match f.profile.extractAll height txs
          { registry := w.store.registry f.chain, flags := w.flags } with
      | (.ok records, known) => (.ok (records, known.registry), { w with flags := known.flags })
      | (.error failed, known) => f.reject height failed { w with flags := known.flags } := by
  unfold readBlock
  rw [run_bind, run_get]
  dsimp only
  rcases f.profile.extractAll height txs
      { registry := w.store.registry f.chain, flags := w.flags } with ⟨failed | records, known⟩
  · rfl
  · rfl

theorem quiet_readBlock (f : Follower σ) (height : Int) (txs : List RawTx) :
    Quiet (f.readBlock height txs) := by
  intro w outcome w' h
  rw [readBlock_eq] at h
  split at h
  · obtain ⟨rfl, rfl⟩ := Prod.mk.inj h
    exact ⟨.refl _, rfl, nofun⟩
  · have hquiet := (f.quiet_reject height _).1 _ _ _ h
    exact hquiet

/-- A block that is read leaves the store alone, and its records and the registry afterwards are
those of its transactions. -/
theorem readBlock_eq_ok {height : Int} {txs : List RawTx} {w w' : World σ} {records : List Record}
    {registry : Registry} (h : f.readBlock height txs w = (.ok (records, registry), w')) :
    w'.store = w.store ∧ ∃ known, registry = known.registry ∧
      f.profile.extractAll height txs { registry := w.store.registry f.chain, flags := w.flags } =
        (.ok records, known) := by
  rw [readBlock_eq] at h
  split at h
  · rename_i records' known hall
    obtain ⟨hout, rfl⟩ := Prod.mk.inj h
    obtain ⟨rfl, rfl⟩ := Prod.mk.inj (Except.ok.inj hout)
    exact ⟨rfl, known, rfl, hall⟩
  · exact absurd h ((f.quiet_reject height _).2 _ _ _)

/-! ## Validating pools -/

theorem validate_eq (f : Follower σ) (first last : Int) (expected : List Pool) (w : World σ) :
    f.validate first last expected w =
      if expected.isEmpty then (.ok (), w)
      else match w.store.impliedPools f.chain first last with
        | .error e => (.error (.store e), w)
        | .ok actual =>
          let exempt := w.store.exemptions f.chain
          match comparePools w.flags (actual.filter fun p => !exempt.contains p.contract)
              (expectedPools exempt expected) with
          | .error e => (.error e, w)
          | .ok compared =>
            match exemptAll f.chain compared.differing w.store with
            | .error e => (.error (.store e), w)
            | .ok store =>
              (if compared.left.isEmpty then .ok ()
                else .error (.mismatch
                  (.missing (sortBy (· ≤ ·) (compared.left.map (·.contract))))),
                  { w with store }) := by
  unfold validate
  split
  · rfl
  · dsimp only
    rw [run_bind, Syncing.query]
    unfold Follower.chain
    cases w.store.impliedPools f.profile.chainId first last with
    | error e => rfl
    | ok actual =>
      dsimp only [Except.mapError]
      rw [run_bind]
      show (get >>= _ : Syncing σ Unit) w = _
      rw [run_bind]
      show (liftM (comparePools w.flags _ _) >>= _ : Syncing σ Unit) w = _
      rw [run_bind]
      cases comparePools w.flags _ _ with
      | error e => rfl
      | ok compared =>
        show (Syncing.commit _ >>= _ : Syncing σ Unit) w = _
        rw [run_bind, Syncing.commit]
        dsimp only
        cases exemptAll f.profile.chainId compared.differing w.store with
        | error e => rfl
        | ok store =>
          dsimp only
          cases compared.left.isEmpty with
          | false => rfl
          | true => rfl

/-- Whatever validation comes to, the blocks stay as they are. -/
theorem sameBlocks_of_validate {first last : Int} {expected : List Pool} {w w' : World σ}
    {outcome : Except SyncError Unit} (h : f.validate first last expected w = (outcome, w')) :
    w.store.SameBlocks w'.store := by
  rw [validate_eq] at h
  split at h
  · obtain ⟨-, rfl⟩ := Prod.mk.inj h
    exact .refl _
  · split at h
    · obtain ⟨-, rfl⟩ := Prod.mk.inj h
      exact .refl _
    · dsimp only at h
      split at h
      · obtain ⟨-, rfl⟩ := Prod.mk.inj h
        exact .refl _
      · split at h
        · obtain ⟨-, rfl⟩ := Prod.mk.inj h
          exact .refl _
        · rename_i store hexempt
          obtain ⟨-, rfl⟩ := Prod.mk.inj h
          exact (Store.sameBlocks_of_exemptAll hexempt).1

end Follower

end PoolLedger
