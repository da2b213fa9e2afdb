import PoolLedger.Proofs.Sync.Tables

/-!
# Blocks that fail

**Theorem (`Follower.failed_block`).** If the transactions of a block or the pools to be stored
with it are not told, or if the block is refused, the store stays as it is. If one of the
transactions cannot be read, the store gets one row that says which and why. If the block fails
later than that, it is written whole.

Each case is a stage of `Follower.processBlock_eq`. Reading stops at the first transaction that
cannot be read (`Profile.extractAll_eq_error`), and validation leaves the blocks and the recorded
failures alone (`Follower.kept_of_validateBlock`).

The row of a failure has the height in a column of 64 bits. At a height beyond these, which no chain
comes to, the row is refused as well (`unstorable_failure`).
-/

namespace PoolLedger

variable {σ : Type}

/-! ## The transaction that cannot be read -/

namespace Profile

variable {p : Profile} {height : Int} {before after txs : List RawTx} {tx : RawTx}
  {known between known' : Knowledge} {records : List Record}

theorem extractAll_append_error {cause : ReadError}
    (hbefore : p.extractAll height before known = (.ok records, between))
    (htx : p.extract height tx between = (.error cause, known')) :
    p.extractAll height (before ++ tx :: after) known =
      (.error { hash := tx.hash, cause }, known') := by
  induction before generalizing known records with
  | nil =>
    obtain ⟨-, rfl⟩ := Prod.mk.inj hbefore
    rw [List.nil_append, extractAll, htx]
  | cons first before ih =>
    obtain ⟨_, known₁, more, hfirst, hmore, -⟩ := extractAll_cons_eq_ok.1 hbefore
    rw [List.cons_append, extractAll, hfirst]
    dsimp only
    rw [ih hmore]
    rfl

/-- A block cannot be read if it has a transaction that cannot be read after others that can. -/
theorem extractAll_eq_error {failed : FailedTx} :
    p.extractAll height txs known = (.error failed, known') ↔
      ∃ before tx after records between, txs = before ++ tx :: after ∧ failed.hash = tx.hash ∧
        p.extractAll height before known = (.ok records, between) ∧
        p.extract height tx between = (.error failed.cause, known') := by
  refine ⟨fun h => ?_, ?_⟩
  · -- The first transaction fails, or it can be read and the failure is that of a later one.
    induction txs generalizing known with
    | nil => cases h
    | cons first txs ih =>
      rw [extractAll] at h
      split at h
      · rename_i cause known₁ hfirst
        obtain ⟨hfailed, rfl⟩ := Prod.mk.inj h
        obtain rfl := Except.error.inj hfailed
        exact ⟨[], first, txs, [], known, rfl, rfl, rfl, hfirst⟩
      · rename_i records known₁ hfirst
        rcases hrest : p.extractAll height txs known₁ with ⟨_ | more, known₂⟩
        · rw [hrest] at h
          obtain ⟨hfailed, rfl⟩ := Prod.mk.inj h
          obtain rfl := Except.error.inj hfailed
          obtain ⟨before, tx, after, more, between, rfl, hhash, hbefore, htx⟩ := ih hrest
          exact ⟨first :: before, tx, after, records ++ more, between, rfl, hhash,
            extractAll_cons_eq_ok.2 ⟨records, known₁, more, hfirst, hbefore, rfl⟩, htx⟩
        · rw [hrest] at h
          cases h
  · rintro ⟨before, tx, after, records, between, rfl, hhash, hbefore, htx⟩
    rw [extractAll_append_error hbefore htx, ← hhash]

end Profile

/-! ## Validation -/

theorem Store.failures_of_exemptAll {chain : String} {contracts : List String} {s s' : Store}
    (h : exemptAll chain contracts s = .ok s') : s'.failures = s.failures := by
  induction contracts generalizing s with
  | nil =>
    obtain rfl := pure_eq_ok.1 h
    rfl
  | cons c contracts ih =>
    rw [exemptAll, List.foldlM_cons] at h
    obtain ⟨s₁, hadd, h⟩ := bind_eq_ok.1 h
    rw [ih h]
    unfold addExemption at hadd
    split at hadd
    · cases hadd
    · exact Except.ok.inj hadd ▸ rfl

namespace Follower

variable {f : Follower σ} {height : Int} {w w' : World σ} {e : SyncError}

/-- Whatever validation comes to, no transaction is recorded as failed. -/
theorem failures_of_validate {first last : Int} {expected : List Pool}
    {outcome : Except SyncError Unit} (h : f.validate first last expected w = (outcome, w')) :
    w'.store.failures = w.store.failures := by
  rw [validate_eq] at h
  split at h
  · exact (Prod.mk.inj h).2 ▸ rfl
  · split at h
    · exact (Prod.mk.inj h).2 ▸ rfl
    · dsimp only at h
      split at h
      · exact (Prod.mk.inj h).2 ▸ rfl
      · split at h
        · exact (Prod.mk.inj h).2 ▸ rfl
        · rename_i store hexempt
          obtain ⟨-, rfl⟩ := Prod.mk.inj h
          exact Store.failures_of_exemptAll hexempt

/-- Whatever the validation of a block comes to, the blocks and the failures stay as they are. -/
theorem kept_of_validateBlock {registry : Registry} {pools : List Pool}
    {outcome : Except SyncError Unit}
    (h : f.validateBlock height registry pools w = (outcome, w')) :
    w.store.SameBlocks w'.store ∧ w'.store.failures = w.store.failures := by
  -- The pools may be at hand or asked for; asking leaves the store as it is.
  have hvalidate (pools : List Pool) (w₁ : World σ) (hw₁ : w₁.store = w.store)
      (h : f.validate 0 height pools w₁ = (outcome, w')) :
      w.store.SameBlocks w'.store ∧ w'.store.failures = w.store.failures :=
    hw₁ ▸ ⟨sameBlocks_of_validate h, failures_of_validate h⟩
  unfold validateBlock at h
  rw [run_bind] at h
  cases hdue : due f.policy.validationInterval height with
  | error e =>
    rw [hdue] at h
    exact (Prod.mk.inj h).2 ▸ ⟨.refl _, rfl⟩
  | ok isDue =>
    rw [hdue] at h
    change (if isDue = true then _ else _ : Syncing σ Unit) w = _ at h
    split at h
    · split at h
      · rw [run_bind] at h
        split at h
        · rename_i told w₁ hask
          exact hvalidate told w₁ (ask_eq_ok hask).2 h
        · rename_i e w₁ hask
          obtain ⟨-, rfl⟩ := Prod.mk.inj h
          exact ⟨(quiet_ask _ _ _ _ hask).1, (Prod.mk.inj hask).2 ▸ rfl⟩
      · exact hvalidate pools w rfl h
    · exact (Prod.mk.inj h).2 ▸ ⟨.refl _, rfl⟩

/-- **What is left of a block that fails.** If the source does not tell its transactions, the store
stays as it is. If a transaction cannot be read, nothing is left of the ones before it, and the
store gets a row for the failure, which is written in a session of its own; beyond the heights that
fit into a column it gets nothing at all. If the pools that are to be stored are not told or the
block is refused, the store stays as it is. If the failure comes later, the block is written whole
and no transaction is recorded as failed. -/
theorem failed_block (h : f.processBlock height w = (.error e, w')) :
    match f.told height w with
    | .error cause => e = .source cause ∧ w'.store = w.store
    | .ok txs => match f.profile.extractAll height txs (f.known w) with
      | (.error failed, known') =>
        (∃ before tx after records between, txs = before ++ tx :: after ∧ failed.hash = tx.hash ∧
          f.profile.extractAll height before (f.known w) = (.ok records, between) ∧
          f.profile.extract height tx between = (.error failed.cause, known')) ∧
        w'.store = (Session.settled (f.recordFailure height failed) w.store).2 ∧
        if Store.fits height then
          e = .reading failed.cause ∧
            w'.store = { w.store with failures := w.store.failures ++ [f.failureRow height failed] }
        else e = .store .unstorable ∧ w'.store = w.store
      | (.ok records, known') =>
        match (f.snapshot height known'.registry (f.afterReading height w known')).1 with
        | .error cause => e = cause ∧ w'.store = w.store
        | .ok pools =>
          match Session.settled (Session.insert f.chain height records pools (createdPairs records))
            w.store with
          | (.error cause, left) => e = .store cause ∧ left = w.store ∧ w'.store = w.store
          | (.ok (), written) =>
            w.store.insert f.chain height records pools (createdPairs records) = .ok written ∧
              written.SameBlocks w'.store ∧ w'.store.failures = w.store.failures := by
  rw [processBlock_eq] at h
  revert h
  cases f.told height w with
  | error cause =>
    intro h
    obtain ⟨he, rfl⟩ := Prod.mk.inj h
    exact ⟨(Except.error.inj he).symm, rfl⟩
  | ok txs =>
    dsimp only
    rcases hall : f.profile.extractAll height txs (f.known w) with ⟨failed | records, known'⟩
    · intro h
      obtain ⟨he, rfl⟩ := Prod.mk.inj h
      -- The failure is recorded, unless its height does not fit into a column.
      refine ⟨Profile.extractAll_eq_error.1 hall, rfl, ?_⟩
      rw [← Except.error.inj he, stopCause, settled_recordFailure]
      cases Store.fits height with
      | true => exact ⟨rfl, rfl⟩
      | false => exact ⟨rfl, rfl⟩
    · dsimp only
      have hstore := f.snapshot_store height known'.registry (f.afterReading height w known')
      revert hstore
      rcases f.snapshot height known'.registry (f.afterReading height w known') with
          ⟨cause | pools, w₁⟩
      · intro hstore h
        obtain ⟨he, rfl⟩ := Prod.mk.inj h
        exact ⟨(Except.error.inj he).symm, hstore⟩
      · intro hstore h
        dsimp only at h ⊢
        rw [Session.settled_insert]
        cases hinsert : w.store.insert f.chain height records pools (createdPairs records) with
        | error cause =>
          rw [hinsert] at h
          obtain ⟨he, rfl⟩ := Prod.mk.inj h
          exact ⟨(Except.error.inj he).symm, rfl, hstore⟩
        | ok written =>
          -- The block is in the store, and what fails now is its validation.
          rw [hinsert] at h
          obtain ⟨hsame, hfailures⟩ := kept_of_validateBlock h
          obtain ⟨-, rows, -, rfl⟩ := Store.insert_eq_ok hinsert
          exact ⟨rfl, hsame, hfailures⟩

end Follower

/-- A transaction in which the factory announces a pair of one asset. -/
def brokenTx : RawTx where
  hash := "A2"
  sender := "terra1user"
  entries := [{
    kind := "wasm"
    attributes := [⟨"_contract_address", "terra1factory"⟩, ⟨"action", "create_pair"⟩,
      ⟨"pair", "uluna"⟩, ⟨"_contract_address", "terra1other"⟩,
      ⟨"liquidity_token_addr", "terra1share"⟩] }]

/-- A source with a transaction that cannot be read after one that can be, and with one far up. -/
def brokenSource : ScriptedSource where
  height := 1
  blocks := [("1", some [creatingTx, brokenTx]), ("9223372036854775808", some [brokenTx])]

/-- The pair of the first transaction is not kept, and the second one is recorded as failed. -/
theorem failed_secondTx :
    (carefulFollower.processBlock 1 { source := brokenSource }).1 =
        .error (.reading (.malformedPair "uluna")) ∧
      (carefulFollower.processBlock 1 { source := brokenSource }).2.store = {
        failures := [{
          chain := "phoenix-1", height := 1, hash := "A2", category := "StructuralMismatchError"
          message := some "create_pair: expected 2 assets, got pair(uluna)" }] } := by
  have herror : (carefulFollower.processBlock 1 { source := brokenSource }).1 =
      .error (.reading (.malformedPair "uluna")) := by decide +kernel
  have htold : carefulFollower.told 1 { source := brokenSource } = .ok [creatingTx, brokenTx] := by
    decide +kernel
  have hread : (carefulFollower.profile.extractAll 1 [creatingTx, brokenTx]
      (carefulFollower.known { source := brokenSource })).1 =
        .error { hash := "A2", cause := .malformedPair "uluna" } := by decide +kernel
  have hleft := Follower.failed_block (Prod.ext herror rfl)
  rw [htold] at hleft
  dsimp only at hleft
  rw [Prod.ext hread rfl] at hleft
  obtain ⟨-, -, hstored⟩ := hleft
  rw [if_pos (by decide)] at hstored
  exact ⟨herror, hstored.2.trans (by decide +kernel)⟩

/-- A height that does not fit into a column cannot be recorded: the transaction there cannot be
read, yet nothing is left of that, and the follower stops for another reason. -/
theorem unstorable_failure :
    (carefulFollower.profile.extract 9223372036854775808 brokenTx
        (carefulFollower.known { source := brokenSource })).1 = .error (.malformedPair "uluna") ∧
      (carefulFollower.processBlock 9223372036854775808 { source := brokenSource }).1 =
        .error (.store .unstorable) ∧
      (carefulFollower.processBlock 9223372036854775808 { source := brokenSource }).2.store =
        {} := by
  refine ⟨?_, ?_, ?_⟩
  · decide +kernel
  · decide +kernel
  · decide +kernel

end PoolLedger
