import PoolLedger.Proofs.Outcome
import PoolLedger.Store.Session

/-!
# What a session does

As long as no write has failed, a session *comes to* a store: the one that there is once everything
pending is written (`Session.ComesTo`). Questions are about that store, writes act on it, and a
commit keeps it. If what is pending cannot be written, whatever is done next undoes everything since
the last commit (`Session.write_of_not_flushed`).
-/

namespace PoolLedger

/-- The store once rows that are pending are written. -/
def Pending.write (p : Pending) (s : Store) : Except StoreError Store :=
  p.writePairs s >>= p.writeRecords

namespace Session

variable {α : Type} {session : Session} {s : Store} {e : StoreError}

/-! ## Writing -/

theorem after_eq (h : session.pending = {}) (operation : Store → Except StoreError Store) :
    session.after operation = operation session.current := by
  have hpairs : ({} : Pending).writePairs session.current = .ok session.current := rfl
  have hrecords (s : Store) : ({} : Pending).writeRecords s = .ok s := by
    simp [Pending.writeRecords]
  rw [after, h, hpairs]
  show operation session.current >>= _ = _
  cases operation session.current with
  | error e => rfl
  | ok s => exact hrecords s

theorem write_of_sound (hsound : session.isBroken = false)
    (operation : Store → Except StoreError Store) :
    write operation session = match session.after operation with
      | .ok current => (.ok (), { session with current, pending := {} })
      | .error e =>
        (.error e, if e.undoes then { on session.committed with isBroken := true }
          else session) := by
  have hcheck : checkSound session = (.ok (), session) := by
    unfold checkSound
    rw [run_bind, run_get]
    simp only [hsound]
    rfl
  unfold write
  rw [run_bind, hcheck]
  dsimp only
  rw [run_bind, run_get]
  dsimp only
  cases session.after operation with
  | ok current => rfl
  | error e =>
    dsimp only
    split <;> rfl

theorem write_eq (hsound : session.isBroken = false) (hpending : session.pending = {})
    (operation : Store → Except StoreError Store) :
    write operation session = match operation session.current with
      | .ok current => (.ok (), { session with current })
      | .error e =>
        (.error e, if e.undoes then { on session.committed with isBroken := true }
          else session) := by
  rw [write_of_sound hsound, after_eq hpending, ← hpending]

/-! ## Rows that are pending -/

/-- The store once everything pending is written. -/
def flushed (session : Session) : Except StoreError Store :=
  session.after .ok

theorem flushed_eq (session : Session) :
    session.flushed = session.pending.write session.current := by
  rw [flushed, after, Pending.write]
  cases session.pending.writePairs session.current with
  | error e => rfl
  | ok s => rfl

/-- A session that has not failed, and comes to some store once everything pending is written. -/
structure ComesTo (session : Session) (s : Store) : Prop where
  sound : session.isBroken = false
  flushed : session.flushed = .ok s

theorem flushed_of_pending (h : session.pending = {}) : session.flushed = .ok session.current := by
  rw [flushed, after_eq h]

theorem comesTo_on (s : Store) : (on s).ComesTo s :=
  ⟨rfl, flushed_of_pending rfl⟩

namespace ComesTo

variable (h : session.ComesTo s)
include h

theorem flush : flush session = (.ok (), { session with current := s, pending := {} }) := by
  unfold Session.flush
  rw [write_of_sound h.sound, ← Session.flushed, h.flushed]

theorem flush_bind (k : Unit → InSession α) :
    (Session.flush >>= k) session = k () { session with current := s, pending := {} } := by
  rw [run_bind, h.flush]

theorem query (question : Store → Except StoreError α) :
    query question session = (question s, { session with current := s, pending := {} }) := by
  unfold Session.query
  rw [h.flush_bind, run_bind, run_get]
  dsimp only
  cases question s with
  | error e => rfl
  | ok a => rfl

theorem syncedHeight (chain : String) : syncedHeight chain session =
    (.ok (s.syncedHeight chain).1,
      { session with current := (s.syncedHeight chain).2, pending := {} }) := by
  unfold Session.syncedHeight
  rw [h.flush_bind, run_bind, run_get]
  rfl

theorem commit : commit session = (.ok (), on s) := by
  unfold Session.commit
  rw [h.flush_bind]
  rfl

theorem insert (chain : String) (height : Int) (records : List Record) (pools : List Pool)
    (pairs : List Pair) : insert chain height records pools pairs session =
      match s.insert chain height records pools pairs with
      | .ok s' => (.ok (), { session with current := s', pending := {} })
      | .error .missingAsset => (.error .missingAsset,
          { session with current := s, pending := .ofBlock chain height records pairs })
      | .error e => (.error e, if e.undoes then { on session.committed with isBroken := true }
          else { session with current := s, pending := {} }) := by
  have hwrite (outcome : Except StoreError Store) :=
    @write_eq { session with current := s, pending := {} } h.sound rfl fun _ => outcome
  unfold Session.insert
  rw [h.flush_bind, run_bind, run_get]
  dsimp only
  rcases s.insert chain height records pools pairs with e | s'
  · cases e with
    | missingAsset => rfl
    | _ => exact hwrite _
  · exact hwrite _

/-- A write that leaves pairs and records alone, whatever is pending. -/
theorem write {operation : Store → Except StoreError Store}
    (hoperation : ∀ t rows, operation { t with records := t.records ++ rows } =
      (operation t).map fun t' => { t' with records := t'.records ++ rows }) :
    write operation session = match operation s with
      | .ok s' => (.ok (), { session with current := s', pending := {} })
      | .error e =>
        (.error e, if e.undoes then { on session.committed with isBroken := true }
          else session) := by
  have hflushed := h.flushed
  rw [flushed_eq] at hflushed
  obtain ⟨t, hpairs, hrecords⟩ := bind_eq_ok.1 hflushed
  have hafter : session.after operation = operation s := by
    unfold Pending.writeRecords at hrecords
    split at hrecords
    · rename_i hfits
      obtain rfl := Except.ok.inj hrecords
      rw [after, hpairs, hoperation]
      show operation t >>= session.pending.writeRecords = _
      cases operation t with
      | error e => rfl
      | ok t' => exact if_pos hfits
    · cases hrecords
  have hwrite := write_of_sound h.sound operation
  rw [hafter] at hwrite
  exact hwrite

end ComesTo

theorem query_on (s : Store) (question : Store → Except StoreError α) :
    query question (on s) = (question s, on s) :=
  (comesTo_on s).query question

/-- A commit of a session that is sound and has nothing pending keeps what was done. -/
theorem commit_eq (hsound : session.isBroken = false) (hpending : session.pending = {}) :
    commit session = (.ok (), on session.current) :=
  ComesTo.commit ⟨hsound, flushed_of_pending hpending⟩

/-! ## Sessions that cannot write what is pending -/

theorem eq_duplicate_of_addPairs {rows more : List PairRow}
    (h : Store.addPairs rows more = .error e) :
    e = .duplicate := by
  induction more generalizing rows with
  | nil => cases h
  | cons r more ih =>
    rw [Store.addPairs] at h
    split at h
    · exact (Except.error.inj h).symm
    · exact ih h

/-- If what is pending cannot be written, no operation of its own saves the session. -/
theorem exists_after_error {operation : Store → Except StoreError Store}
    (hoperation : ∀ t e, operation t = .error e → e.undoes) (h : session.flushed = .error e) :
    ∃ e', session.after operation = .error e' ∧ e'.undoes := by
  rw [flushed_eq, Pending.write] at h
  unfold after
  -- Pairs are written before the operation, and records after it.
  cases hpairs : session.pending.writePairs session.current with
  | error e' =>
    refine ⟨e', rfl, ?_⟩
    rcases bind_eq_error.1 hpairs with hadd | ⟨_, -, hadd⟩
    · rw [eq_duplicate_of_addPairs hadd]
      rfl
    · cases hadd
  | ok t =>
    rw [hpairs] at h
    have hrecords (t : Store) : session.pending.writeRecords t = .error .unstorable := by
      have h : session.pending.writeRecords _ = .error e := h
      unfold Pending.writeRecords at h ⊢
      split at h
      · cases h
      · rename_i hfits
        rw [if_neg hfits]
    show ∃ e', (operation t >>= session.pending.writeRecords) = .error e' ∧ e'.undoes
    cases ht : operation t with
    | error e' => exact ⟨e', rfl, hoperation t e' ht⟩
    | ok t' => exact ⟨.unstorable, hrecords t', rfl⟩

theorem write_of_not_flushed (hsound : session.isBroken = false) (h : session.flushed = .error e)
    {operation : Store → Except StoreError Store}
    (hoperation : ∀ t e, operation t = .error e → e.undoes) :
    ∃ e', (write operation session).1 = .error e' ∧ e'.undoes := by
  obtain ⟨e', hafter, hundoes⟩ := exists_after_error hoperation h
  refine ⟨e', ?_, hundoes⟩
  rw [write_of_sound hsound, hafter]

theorem flush_bind_of_not_flushed (hsound : session.isBroken = false)
    (h : session.flushed = .error e) (k : Unit → InSession α) :
    ∃ e', ((flush >>= k) session).1 = .error e' ∧ e'.undoes := by
  have hwrite : ∃ e', (flush session).1 = .error e' ∧ e'.undoes :=
    write_of_not_flushed hsound h nofun
  obtain ⟨e', hflush, hundoes⟩ := hwrite
  refine ⟨e', ?_, hundoes⟩
  rw [run_bind]
  rcases hrun : flush session with ⟨outcome, session'⟩
  rw [hrun] at hflush
  obtain rfl : outcome = .error e' := hflush
  rfl

end Session

end PoolLedger
