import PoolLedger.Proofs.Sessions
import PoolLedger.Proofs.Sync.Quiet

/-!
# The stages of a block

Processing a block works on the store in sessions, each of which is kept or given up as a whole
(`Session.settled`). A block is written in one of them, so that a block that is refused leaves
nothing (`Session.settled_insert`), and a transaction that cannot be read is recorded in one of
its own (`Follower.reject_eq`). `Follower.processBlock_eq` lays out the stages: the
transactions are told and read, the pools that are to be stored are told, the block is written,
and then it is validated.
-/

namespace PoolLedger

/-! ## Sessions of their own -/

namespace Session

/-- What comes of some work in a session of its own, which is given up if anything fails, and
the store afterwards. -/
def settled (work : InSession Unit) (s : Store) : Except StoreError Unit × Store :=
  let (outcome, session) := (work >>= fun _ => commit) (on s)
  (outcome, session.committed)

theorem settled_eq (work : InSession Unit) (s : Store) :
    settled work s = match work (on s) with
      | (.ok (), session) => ((commit session).1, (commit session).2.committed)
      | (.error e, session) => (.error e, session.committed) := by
  unfold settled
  rw [run_bind]
  rcases work (on s) with ⟨_ | _, session⟩ <;> rfl

/-- **A session of its own for one write keeps it, or nothing.** -/
theorem settled_write (operation : Store → Except StoreError Store) (s : Store) :
    settled (write operation) s = match operation s with
      | .ok s' => (.ok (), s')
      | .error e => (.error e, s) := by
  rw [settled_eq, write_eq rfl rfl]
  dsimp only [on]
  cases operation s with
  | ok s' =>
    dsimp only
    rw [commit_eq rfl rfl]
    rfl
  | error e =>
    dsimp only
    split <;> rfl

/-- **A session of its own for one block keeps it, or nothing**, also where rows were still to be
written. -/
theorem settled_insert (chain : String) (height : Int) (records : List Record) (pools : List Pool)
    (pairs : List Pair) (s : Store) :
    settled (insert chain height records pools pairs) s =
      match s.insert chain height records pools pairs with
      | .ok s' => (.ok (), s')
      | .error e => (.error e, s) := by
  rw [settled_eq, (comesTo_on s).insert]
  rcases s.insert chain height records pools pairs with e | s'
  · cases e <;> rfl
  · dsimp only
    rw [commit_eq rfl rfl]
    rfl

end Session

variable {σ : Type}

/-- A follower changes the store in sessions of their own. -/
theorem Syncing.commit_eq_settled (operation : Store → Except StoreError Store) (w : World σ) :
    Syncing.commit operation w =
      ((Session.settled (Session.write operation) w.store).1.mapError .store,
        { w with store := (Session.settled (Session.write operation) w.store).2 }) := by
  rw [Session.settled_write, Syncing.commit]
  cases operation w.store <;> rfl

namespace Follower

/-! ## Reading -/

/-- What the source tells of the transactions of a block. -/
def told (f : Follower σ) (height : Int) (w : World σ) : Except NodeError (List RawTx) :=
  (f.source.transactions height w.source).1

/-- What is known when the first transaction of a block is read. -/
def known (f : Follower σ) (w : World σ) : Knowledge where
  registry := w.store.registry f.chain
  flags := w.flags

/-- The world once the transactions of a block are told and read. -/
def afterReading (f : Follower σ) (height : Int) (w : World σ) (known : Knowledge) : World σ :=
  { w with source := (f.source.transactions height w.source).2, flags := known.flags }

/-- The row of a transaction that cannot be read. -/
def failureRow (f : Follower σ) (height : Int) (failed : FailedTx) : FailureRow where
  chain := f.chain
  height
  hash := failed.hash
  category := failed.cause.category.name
  message := some failed.cause.message

/-- Records a transaction that cannot be read. -/
def recordFailure (f : Follower σ) (height : Int) (failed : FailedTx) : InSession Unit :=
  Session.write fun s => s.addFailure (f.failureRow height failed)

theorem settled_recordFailure (f : Follower σ) (height : Int) (failed : FailedTx) (s : Store) :
    Session.settled (f.recordFailure height failed) s =
      if Store.fits height then
        (.ok (), { s with failures := s.failures ++ [f.failureRow height failed] })
      else (.error .unstorable, s) := by
  have hadd : s.addFailure (f.failureRow height failed) =
      if Store.fits height then
        .ok { s with failures := s.failures ++ [f.failureRow height failed] }
      else .error .unstorable := rfl
  rw [recordFailure, Session.settled_write, hadd]
  cases Store.fits height <;> rfl

/-- Why a follower stops at a transaction that cannot be read: for that, if it could be recorded. -/
def stopCause (f : Follower σ) (height : Int) (failed : FailedTx) (s : Store) : SyncError :=
  match (Session.settled (f.recordFailure height failed) s).1 with
  | .ok () => .reading failed.cause
  | .error cause => .store cause

theorem reject_eq (f : Follower σ) (height : Int) (failed : FailedTx) (w : World σ) :
    f.reject height failed w = (.error (f.stopCause height failed w.store),
      { w with store := (Session.settled (f.recordFailure height failed) w.store).2 }) := by
  unfold reject stopCause recordFailure failureRow
  rw [run_bind, Syncing.commit_eq_settled]
  rcases Session.settled _ w.store with ⟨_ | _, _⟩ <;> rfl

/-! ## All stages -/

theorem snapshot_store (f : Follower σ) (height : Int) (registry : Registry) (w : World σ) :
    (f.snapshot height registry w).2.store = w.store := by
  unfold snapshot
  rw [run_bind]
  cases due f.policy.snapshotInterval height with
  | error e => rfl
  | ok isDue => cases isDue <;> rfl

/-- Processing a block, stage by stage. -/
theorem processBlock_eq (f : Follower σ) (height : Int) (w : World σ) :
    f.processBlock height w = match f.told height w with
      | .error cause => (.error (.source cause), f.afterReading height w (f.known w))
      | .ok txs => match f.profile.extractAll height txs (f.known w) with
        | (.error failed, known) =>
          (.error (f.stopCause height failed w.store), { f.afterReading height w known with
            store := (Session.settled (f.recordFailure height failed) w.store).2 })
        | (.ok records, known) =>
          match f.snapshot height known.registry (f.afterReading height w known) with
          | (.error e, w₁) => (.error e, w₁)
          | (.ok pools, w₁) =>
            match w.store.insert f.chain height records pools (createdPairs records) with
            | .error cause => (.error (.store cause), w₁)
            | .ok store => f.validateBlock height known.registry pools { w₁ with store } := by
  unfold processBlock writeBlock told afterReading
  rw [run_bind, run_bind, Syncing.ask]
  rcases f.source.transactions height w.source with ⟨cause | txs, source⟩
  · rfl
  have hread := f.readBlock_eq height txs { w with source }
  dsimp only [Except.mapError] at hread ⊢
  rw [run_bind, hread]
  rcases hall : f.profile.extractAll height txs (f.known w) with ⟨failed | records, known⟩
  · unfold Follower.known at hall
    rw [hall]
    dsimp only
    rw [reject_eq]
  · unfold Follower.known at hall
    rw [hall]
    dsimp only
    rw [run_bind]
    -- The source may change while it is asked for pools, but the store is still that of before.
    have hstore := f.snapshot_store height known.registry { w with source, flags := known.flags }
    rcases hsnapshot : f.snapshot height known.registry { w with source, flags := known.flags }
      with ⟨e | pools, w₁⟩
    · rfl
    · rw [hsnapshot] at hstore
      dsimp only at hstore ⊢
      rw [run_bind, Syncing.commit, hstore]
      cases w.store.insert f.chain height records pools (createdPairs records) with
      | error cause => rfl
      | ok store => rfl

end Follower

end PoolLedger
