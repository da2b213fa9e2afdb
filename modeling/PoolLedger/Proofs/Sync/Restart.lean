import PoolLedger.Proofs.Sync.ExactlyOnce
import PoolLedger.Proofs.Sync.Validated

/-!
# Starting anew

What a follower knows beyond the store is lost when it is started anew: the heights that the source
reported last, and the pairs that are flagged. The heights make no difference as long as the source
reports greater and greater ones. The flags do: the pool of a pair that has been flagged may differ
from that of the node, which exempts the pair, but once the flag is lost the difference is a failure
(`restart_not_transparent`).

Nothing else can go wrong. A step that may be affected by the flags is `Tolerant`: with fewer flags
it comes to the same, or it fails over a pair that has been flagged. So starting anew makes no
difference to any run and to the store exactly when no run fails over a pair that would have been
flagged (`restart_transparent_iff`).
-/

namespace PoolLedger

variable {σ : Type} {α β : Type}

/-! ## Sources that do not change -/

/-- What the source tells of a height does not depend on when it is asked. -/
structure Source.IsFixed (source : Source σ) : Prop where
  transactions : ∀ height s s', (source.transactions height s).1 = (source.transactions height s').1
  pools : ∀ height pairs s s', (source.pools height pairs s).1 = (source.pools height pairs s').1

/-- A source that answers as two functions say. Its state is the height that it has reached. -/
def Source.fixed (transactions : Int → List RawTx) (pools : Int → List Pool) : Source Int where
  height := get
  transactions height := pure (transactions height)
  pools height _ := pure (pools height)

theorem Source.isFixed_fixed (transactions : Int → List RawTx) (pools : Int → List Pool) :
    (Source.fixed transactions pools).IsFixed where
  transactions _ _ _ := rfl
  pools _ _ _ _ := rfl

/-! ## Comparing pools under fewer flags -/

/-- The pair whose pools differ, if both sides have one. -/
def PoolMismatch.pair? : PoolMismatch → Option String
  | amount contract _ _ _ | supply contract _ _ => some contract
  | _ => none

theorem pair?_of_assetMismatch? {contract : String} {actual expected : List Asset}
    {m : PoolMismatch} (h : assetMismatch? contract actual expected = .ok (some m)) :
    m.pair? = some contract := by
  induction expected generalizing actual with
  | nil => cases actual <;> cases h
  | cons e expected ih =>
    rw [assetMismatch?] at h
    obtain ⟨n, -, h⟩ := bind_eq_ok.1 h
    cases actual with
    | nil => cases h
    | cons a actual =>
      obtain ⟨k, -, h⟩ := bind_eq_ok.1 h
      split at h
      · exact ih h
      · exact Option.some.inj (pure_eq_ok.1 h) ▸ rfl

theorem pair?_of_poolMismatch? {actual expected : Pool} {m : PoolMismatch}
    (h : poolMismatch? actual expected = .ok (some m)) : m.pair? = some actual.contract := by
  obtain ⟨found, hfound, h⟩ := bind_eq_ok.1 h
  cases found with
  | some found =>
    obtain rfl := Option.some.inj (pure_eq_ok.1 h)
    exact pair?_of_assetMismatch? hfound
  | none =>
    obtain ⟨n, -, h⟩ := bind_eq_ok.1 h
    obtain ⟨k, -, h⟩ := bind_eq_ok.1 h
    split at h
    · cases h
    · exact Option.some.inj (pure_eq_ok.1 h) ▸ rfl

/-- A failure that is not about a difference of pools. -/
def SyncError.IsOther (e : SyncError) : Prop :=
  ∀ m, e ≠ .mismatch m

theorem failsOnly_readAmount (text : String) :
    FailsOnly SyncError.IsOther ((Amount.read text).mapError SyncError.reading) := by
  intro e he
  obtain ⟨cause, -, rfl⟩ := mapError_eq_error.1 he
  exact nofun

theorem failsOnly_assetMismatch? (contract : String) (actual expected : List Asset) :
    FailsOnly SyncError.IsOther (assetMismatch? contract actual expected) := by
  induction expected generalizing actual with
  | nil => cases actual <;> exact .of_eq_ok rfl
  | cons e expected ih =>
    rw [assetMismatch?]
    refine (failsOnly_readAmount _).bind fun n _ => ?_
    cases actual with
    | nil => exact .error nofun
    | cons a actual =>
      refine (failsOnly_readAmount _).bind fun m _ => ?_
      split
      · exact ih actual
      · exact .of_eq_ok rfl

theorem failsOnly_poolMismatch? (actual expected : Pool) :
    FailsOnly SyncError.IsOther (poolMismatch? actual expected) := by
  refine (failsOnly_assetMismatch? _ _ _).bind fun found _ => ?_
  cases found with
  | some m => exact .of_eq_ok rfl
  | none =>
    refine (failsOnly_readAmount _).bind fun n _ => (failsOnly_readAmount _).bind fun m _ => ?_
    split <;> exact .of_eq_ok rfl

/-- Something fails over a pair that is flagged. -/
def Torn (outcome : Except SyncError α) (flags : Flags) : Prop :=
  ∃ m c, outcome = .error (.mismatch m) ∧ m.pair? = some c ∧ c ∈ flags

theorem not_torn_of_failsOnly {outcome : Except SyncError α}
    (h : FailsOnly SyncError.IsOther outcome) (flags : Flags) :
    ¬Torn outcome flags := fun ⟨m, _, herror, _⟩ => h _ herror m rfl

/-- With fewer flags, comparing pools comes to the same or fails over a pair that is flagged. -/
theorem comparePools_of_subset {flags flags' : Flags} (hsub : ∀ c ∈ flags, c ∈ flags')
    (actual expected : List Pool) :
    comparePools flags actual expected = comparePools flags' actual expected ∨
      Torn (comparePools flags actual expected) flags' := by
  induction actual generalizing expected with
  | nil => exact .inl rfl
  | cons a actual ih =>
    rw [comparePools, comparePools]
    cases expected.find? (·.contract == a.contract) with
    | none => exact .inl rfl
    | some e =>
      dsimp only
      cases hfound : poolMismatch? a e with
      | error e => exact .inl rfl
      | ok found =>
        have hrest := ih (expected.filter (·.contract != a.contract))
        cases found with
        | none => exact hrest
        | some m =>
          simp only [bind, Except.bind, List.contains_iff_mem]
          -- With all flags the pool may be excused, with fewer the comparison may stop here.
          by_cases hflag : a.contract ∈ flags
          · rw [if_pos hflag, if_pos (hsub _ hflag)]
            rcases hrest with heq | ⟨m', c, herror, hpair, hc⟩
            · exact .inl (by rw [heq])
            · exact .inr ⟨m', c, by rw [herror], hpair, hc⟩
          · rw [if_neg hflag]
            by_cases hflag' : a.contract ∈ flags'
            · exact .inr ⟨m, a.contract, rfl, pair?_of_poolMismatch? hfound, hflag'⟩
            · rw [if_neg hflag']
              exact .inl rfl

/-- Comparing pools does not fail over a pair that is flagged. -/
theorem not_torn_comparePools (flags : Flags) (actual expected : List Pool) :
    ¬Torn (comparePools flags actual expected) flags := by
  rintro ⟨m, c, herror, hpair, hc⟩
  induction actual generalizing expected with
  | nil => cases herror
  | cons a actual ih =>
    rw [comparePools] at herror
    split at herror
    · cases herror
      cases hpair
    · rcases bind_eq_error.1 herror with hfailed | ⟨found, hfound, herror⟩
      · exact failsOnly_poolMismatch? _ _ _ hfailed m rfl
      · cases found with
        | none => exact ih _ herror
        | some m' =>
          dsimp only at herror
          split at herror
          · rcases bind_eq_error.1 herror with herror | ⟨_, -, herror⟩
            · exact ih _ herror
            · cases herror
          · -- It fails here since the pair is not flagged, but it is the pair that is said to be.
            rename_i hflag
            cases herror
            obtain rfl := Option.some.inj ((pair?_of_poolMismatch? hfound).symm.trans hpair)
            exact hflag (List.contains_iff_mem.2 hc)

/-! ## Steps under fewer flags -/

/-- Two worlds with the same store, where whatever is flagged in the first is flagged in the
second. -/
structure Fewer (w w' : World σ) : Prop where
  store : w.store = w'.store
  flags : ∀ c ∈ w.flags, c ∈ w'.flags

/-- Flags are only added, and the heights that the source has reported stay the same. -/
structure Advances (w w' : World σ) : Prop where
  flags : ∀ c ∈ w.flags, c ∈ w'.flags
  lastHeight : w'.lastHeight = w.lastHeight
  sameCount : w'.sameCount = w.sameCount

theorem Advances.refl (w : World σ) : Advances w w := ⟨fun _ hc => hc, rfl, rfl⟩

theorem Advances.trans {w w' w'' : World σ} (h : Advances w w') (h' : Advances w' w'') :
    Advances w w'' where
  flags c hc := h'.flags c (h.flags c hc)
  lastHeight := h'.lastHeight.trans h.lastHeight
  sameCount := h'.sameCount.trans h.sameCount

/-- A step does not fail over a pair that is flagged, and with fewer flags it comes to the same or
fails over a pair that would have been flagged. -/
structure Tolerant (m : Syncing σ α) : Prop where
  advances : ∀ w, Advances w (m w).2
  lenient : ∀ w, ¬Torn (m w).1 (m w).2.flags
  follows : ∀ w w', Fewer w w' →
    (m w).1 = (m w').1 ∧ Fewer (m w).2 (m w').2 ∨ Torn (m w).1 (m w').2.flags

namespace Tolerant

variable {m : Syncing σ α} {k : α → Syncing σ β}

/-- A step that comes to the same whatever is flagged, and fails over no difference of pools. -/
theorem of_same (hadvances : ∀ w, Advances w (m w).2) (hfails : RunFailsOnly SyncError.IsOther m)
    (hsame : ∀ w w', Fewer w w' → (m w).1 = (m w').1 ∧ Fewer (m w).2 (m w').2) : Tolerant m where
  advances := hadvances
  lenient w := not_torn_of_failsOnly (hfails w) _
  follows w w' h := .inl (hsame w w' h)

theorem pure (a : α) : Tolerant (pure a : Syncing σ α) :=
  of_same .refl (.pure a) fun _ _ h => ⟨rfl, h⟩

theorem lift {x : Except SyncError α} (hx : FailsOnly SyncError.IsOther x) :
    Tolerant (liftM x : Syncing σ α) := by
  cases x with
  | error e => exact of_same .refl (fun _ => hx) fun _ _ h => ⟨rfl, h⟩
  | ok a => exact of_same .refl (fun _ => hx) fun _ _ h => ⟨rfl, h⟩

section

variable (hk : ∀ a, Tolerant (k a)) {w w' : World σ}
include hk

theorem advances_bind (w : World σ) : Advances (m w).2 ((m >>= k) w).2 := by
  rw [run_bind]
  rcases m w with ⟨e | a, w₁⟩
  · exact .refl w₁
  · exact (hk a).advances w₁

theorem not_torn_bind (h : ¬Torn (m w).1 (m w).2.flags) :
    ¬Torn ((m >>= k) w).1 ((m >>= k) w).2.flags := by
  rw [run_bind]
  generalize m w = r at h ⊢
  rcases r with ⟨e | a, w₁⟩
  · rintro ⟨mismatch, c, herror, hpair, hc⟩
    exact h ⟨mismatch, c, congrArg Except.error (Except.error.inj herror), hpair, hc⟩
  · exact (hk a).lenient w₁

theorem follows_bind (h : (m w).1 = (m w').1 ∧ Fewer (m w).2 (m w').2) :
    ((m >>= k) w).1 = ((m >>= k) w').1 ∧ Fewer ((m >>= k) w).2 ((m >>= k) w').2 ∨
      Torn ((m >>= k) w).1 ((m >>= k) w').2.flags := by
  rw [run_bind, run_bind]
  generalize m w = r, m w' = r' at h ⊢
  obtain ⟨outcome, w₁⟩ := r
  obtain ⟨outcome', w₁'⟩ := r'
  obtain ⟨rfl, hfewer⟩ : outcome = outcome' ∧ Fewer w₁ w₁' := h
  cases outcome with
  | error e => exact .inl ⟨rfl, hfewer⟩
  | ok a => exact (hk a).follows w₁ w₁' hfewer

theorem torn_bind (h : Torn (m w).1 (m w').2.flags) :
    Torn ((m >>= k) w).1 ((m >>= k) w').2.flags := by
  obtain ⟨mismatch, c, herror, hpair, hc⟩ := h
  refine ⟨mismatch, c, ?_, hpair, (advances_bind hk w').flags c hc⟩
  rw [run_bind]
  generalize m w = r at herror ⊢
  rcases r with ⟨e | a, w₁⟩
  · exact congrArg Except.error (Except.error.inj herror)
  · cases herror

end

theorem bind (hm : Tolerant m) (hk : ∀ a, Tolerant (k a)) : Tolerant (m >>= k) where
  advances w := (hm.advances w).trans (advances_bind hk w)
  lenient w := not_torn_bind hk (hm.lenient w)
  follows w w' hfewer :=
    (hm.follows w w' hfewer).elim (follows_bind hk) fun h => .inr (torn_bind hk h)

theorem throw {e : SyncError} (he : e.IsOther) : Tolerant (throw e : Syncing σ α) :=
  of_same .refl (fun _ => .error he) fun _ _ h => ⟨rfl, h⟩

theorem throw_missing (contracts : List String) :
    Tolerant (MonadExcept.throw (SyncError.mismatch (.missing contracts)) : Syncing σ α) where
  advances := .refl
  lenient _ := by
    rintro ⟨m, c, herror, hpair, -⟩
    cases herror
    cases hpair
  follows _ _ h := .inl ⟨rfl, h⟩

theorem query (question : Store → Except StoreError α) :
    Tolerant (Syncing.query question : Syncing σ α) := by
  refine of_same .refl (fun w e he => ?_) fun w w' h => ⟨?_, h⟩
  · obtain ⟨cause, -, rfl⟩ := mapError_eq_error.1 he
    exact nofun
  · show (question w.store).mapError SyncError.store = (question w'.store).mapError SyncError.store
    rw [h.store]

theorem commit (operation : Store → Except StoreError Store) :
    Tolerant (Syncing.commit operation : Syncing σ Unit) := by
  refine of_same (fun w => ?_) (fun w => ?_) fun w w' h => ?_
  · unfold Syncing.commit
    cases operation w.store with
    | ok store => exact ⟨fun _ hc => hc, rfl, rfl⟩
    | error e => exact .refl w
  · unfold Syncing.commit
    cases operation w.store with
    | ok store => exact .of_eq_ok rfl
    | error e => exact .error nofun
  · unfold Syncing.commit
    rw [h.store]
    cases operation w'.store with
    | ok store => exact ⟨rfl, rfl, h.flags⟩
    | error e => exact ⟨rfl, h⟩

theorem of_store {k : Store → Syncing σ α} (hk : ∀ s, Tolerant (k s)) :
    Tolerant (fun w => k w.store w : Syncing σ α) where
  advances w := (hk w.store).advances w
  lenient w := (hk w.store).lenient w
  follows w w' h := by
    rw [h.store]
    exact (hk w'.store).follows w w' h

theorem ask {question : Querying σ α} (hfixed : ∀ s s', (question s).1 = (question s').1) :
    Tolerant (Syncing.ask question) := by
  refine of_same (fun w => ⟨fun _ hc => hc, rfl, rfl⟩) (fun w e he => ?_) fun w w' h => ?_
  · obtain ⟨cause, -, rfl⟩ := mapError_eq_error.1 he
    exact nofun
  · refine ⟨?_, h.store, h.flags⟩
    show (question w.source).1.mapError SyncError.source =
        (question w'.source).1.mapError SyncError.source
    rw [hfixed w.source w'.source]

theorem due (interval height : Int) :
    Tolerant (liftM (PoolLedger.due interval height) : Syncing σ Bool) := by
  refine lift fun e he => ?_
  unfold PoolLedger.due at he
  split at he
  · exact Except.error.inj he ▸ nofun
  · cases he

end Tolerant

namespace Follower

variable {f : Follower σ}

/-- Reading the transactions of a block, whether or not they can be read. -/
def readTransactions (f : Follower σ) (height : Int) (txs : List RawTx) :
    Syncing σ (Except FailedTx (List Record) × Registry) := fun w =>
  let (outcome, known) :=
    f.profile.extractAll height txs { registry := w.store.registry f.chain, flags := w.flags }
  (.ok (outcome, known.registry), { w with flags := known.flags })

theorem readBlock_eq_bind (f : Follower σ) (height : Int) (txs : List RawTx) :
    f.readBlock height txs = f.readTransactions height txs >>= fun (outcome, registry) =>
      match outcome with
      | .ok records => pure (records, registry)
      | .error failed => f.reject height failed := by
  funext w
  rw [readBlock_eq, run_bind, readTransactions]
  rcases f.profile.extractAll height txs { registry := w.store.registry f.chain, flags := w.flags }
    with ⟨failed | records, known⟩
  · rfl
  · rfl

theorem tolerant_readTransactions (f : Follower σ) (height : Int) (txs : List RawTx) :
    Tolerant (f.readTransactions height txs) := by
  have hmarks (store : Store) :=
    Profile.extractAll_marks f.profile height txs (store.registry f.chain)
  refine .of_same (fun w => ?_) (fun w => .of_eq_ok rfl) fun w w' h => ?_
  · obtain ⟨outcome, after, contracts, hrun⟩ := hmarks w.store
    simp only [readTransactions, hrun w.flags]
    exact ⟨fun c hc => Flags.mem_addAll.2 (.inl hc), rfl, rfl⟩
  · obtain ⟨outcome, after, contracts, hrun⟩ := hmarks w'.store
    simp only [readTransactions, h.store, hrun w.flags, hrun w'.flags]
    exact ⟨trivial, rfl,
      fun c hc => Flags.mem_addAll.2 ((Flags.mem_addAll.1 hc).imp_left (h.flags c))⟩

theorem tolerant_readBlock (f : Follower σ) (height : Int) (txs : List RawTx) :
    Tolerant (f.readBlock height txs) := by
  rw [readBlock_eq_bind]
  refine (f.tolerant_readTransactions height txs).bind fun (outcome, registry) => ?_
  cases outcome with
  | ok records => exact .pure _
  | error failed => exact (Tolerant.commit _).bind fun _ => .throw nofun

/-- Comparing pools with those of a node, but for the pairs that are exempt. -/
def compared (f : Follower σ) (actual expected : List Pool) : Syncing σ Comparison := fun w =>
  let exempt := w.store.exemptions f.chain
  (comparePools w.flags (actual.filter fun p => !exempt.contains p.contract)
    (expectedPools exempt expected), w)

theorem validate_eq_bind (f : Follower σ) (first last : Int) (expected : List Pool) :
    f.validate first last expected =
      if expected.isEmpty then pure ()
      else (do
        let actual ← Syncing.query fun s => s.impliedPools f.chain first last
        let compared ← f.compared actual expected
        Syncing.commit (exemptAll f.chain compared.differing)
        if !compared.left.isEmpty then
          throw (.mismatch (.missing (sortBy (· ≤ ·) (compared.left.map (·.contract)))))) := by
  unfold validate
  split
  · rfl
  · refine bind_congr fun actual => ?_
    funext w
    rfl

theorem tolerant_compared (f : Follower σ) (actual expected : List Pool) :
    Tolerant (f.compared actual expected) where
  advances := .refl
  lenient w := not_torn_comparePools _ _ _
  follows w w' h := by
    unfold compared
    dsimp only
    rw [h.store]
    exact (comparePools_of_subset h.flags _ _).imp_left fun heq => ⟨heq, h⟩

theorem tolerant_validate (f : Follower σ) (first last : Int) (expected : List Pool) :
    Tolerant (f.validate first last expected) := by
  rw [validate_eq_bind]
  split
  · exact .pure _
  · refine (Tolerant.query _).bind fun actual =>
      (f.tolerant_compared actual expected).bind fun compared =>
      (Tolerant.commit _).bind fun _ => ?_
    split
    · exact .throw_missing _
    · exact .pure _

variable (hfixed : f.source.IsFixed)
include hfixed

theorem tolerant_snapshot (height : Int) (registry : Registry) :
    Tolerant (f.snapshot height registry) := by
  refine (Tolerant.due _ _).bind fun isDue => ?_
  cases isDue with
  | false => exact .pure _
  | true => exact .ask (hfixed.pools _ _)

theorem tolerant_writeBlock (height : Int) : Tolerant (f.writeBlock height) :=
  (Tolerant.ask (hfixed.transactions height)).bind fun txs =>
    (f.tolerant_readBlock height txs).bind fun (_, registry) =>
      (tolerant_snapshot hfixed height registry).bind fun _ => (Tolerant.commit _).bind fun _ =>
        .pure _

theorem tolerant_validateBlock (height : Int) (registry : Registry) (pools : List Pool) :
    Tolerant (f.validateBlock height registry pools) := by
  refine (Tolerant.due _ _).bind fun isDue => ?_
  cases isDue with
  | false => exact .pure _
  | true =>
    cases pools with
    | nil => exact (Tolerant.ask (hfixed.pools _ _)).bind fun pools =>
      f.tolerant_validate 0 height pools
    | cons p pools => exact f.tolerant_validate 0 height (p :: pools)

theorem tolerant_processBlocks (count : Nat) (height : Int) :
    Tolerant (f.processBlocks count height) := by
  induction count generalizing height with
  | zero => exact .pure _
  | succ count ih =>
    exact ((tolerant_writeBlock hfixed height).bind fun (registry, pools) =>
      tolerant_validateBlock hfixed height registry pools).bind fun _ => ih (height + 1)

theorem tolerant_validateStart (height : Int) : Tolerant (f.validateStart height) := by
  have heq : f.validateStart height = fun w =>
      f.validateBlock height (w.store.registry f.chain) [] w := funext (f.validateStart_eq height)
  rw [heq]
  exact .of_store fun s => tolerant_validateBlock hfixed height (s.registry f.chain) []

/-- What a run does after the height that the source reports has been accepted. -/
theorem tolerant_rest (synced remote : Int) : Tolerant (do
    f.validateStart synced
    f.processBlocks (remote - synced).toNat (synced + 1)) :=
  (tolerant_validateStart hfixed synced).bind fun _ => tolerant_processBlocks hfixed _ _

end Follower

/-! ## Heights that the source reports -/

/-- A height is not the one that the source reported last, unless it is all that it ever
reported. -/
def World.Awaits (w : World σ) (height : Int) : Prop :=
  w.lastHeight = 0 ∧ w.sameCount = 0 ∨ w.lastHeight < height ∧ 0 < height

section

variable {w w' : World σ} {synced remote next : Int}

namespace World.Awaits

theorem mono (h : w.Awaits remote) (hlt : remote < next) : w.Awaits next :=
  h.imp_right fun ⟨hlast, hpos⟩ => ⟨by omega, by omega⟩

theorem eq_lastHeight_iff (h : w.Awaits remote) : remote = w.lastHeight ↔ remote = 0 := by
  rcases h with ⟨hlast, -⟩ | ⟨hlast, hpos⟩
  · rw [hlast]
  · constructor <;> intro heq <;> omega

theorem sameCount_eq (h : w.Awaits remote) (hzero : remote = 0) : w.sameCount = 0 := by
  rcases h with ⟨-, hcount⟩ | ⟨-, hpos⟩
  · exact hcount
  · omega

end World.Awaits

namespace Follower

/-- Whether a height is accepted does not depend on those that were reported before. -/
theorem acceptHeight_follows (f : Follower σ) (synced : Int) (h : Fewer w w') (hw : w.Awaits remote)
    (hw' : w'.Awaits remote) :
    (f.acceptHeight synced remote w).1 = (f.acceptHeight synced remote w').1 ∧
      Fewer (f.acceptHeight synced remote w).2 (f.acceptHeight synced remote w').2 := by
  rw [acceptHeight_eq, acceptHeight_eq]
  split
  · exact ⟨rfl, h⟩
  · rw [noteHeight_eq, noteHeight_eq]
    by_cases hzero : remote = 0
    · rw [if_pos (hw.eq_lastHeight_iff.2 hzero), if_pos (hw'.eq_lastHeight_iff.2 hzero),
        hw.sameCount_eq hzero, hw'.sameCount_eq hzero]
      split <;> exact ⟨rfl, h.store, h.flags⟩
    · rw [if_neg (mt hw.eq_lastHeight_iff.1 hzero), if_neg (mt hw'.eq_lastHeight_iff.1 hzero)]
      exact ⟨rfl, h.store, h.flags⟩

theorem awaits_acceptHeight (f : Follower σ) (hw : w.Awaits remote) (hsynced : 0 ≤ synced)
    (hlt : remote < next) : (f.acceptHeight synced remote w).2.Awaits next := by
  rw [acceptHeight_eq]
  split
  · exact hw.mono hlt
  · rename_i hle
    rw [noteHeight_eq]
    split
    · rename_i hlast
      split <;> exact .inr ⟨by show w.lastHeight < next; omega, by omega⟩
    · exact .inr ⟨hlt, by omega⟩

/-! ## Runs -/

variable {f : Follower σ}

/-- The world of a run once the source has reported its height. -/
def entered (f : Follower σ) (w : World σ) : World σ :=
  { w with store := (w.store.syncedHeight f.chain).2, source := (f.source.height w.source).2 }

/-- A run in which the source reports a height. -/
theorem run_of_told (htold : (f.source.height w.source).1 = .ok remote) :
    f.run w = (do
      f.acceptHeight (w.store.syncedHeight f.chain).1 remote
      f.validateStart (w.store.syncedHeight f.chain).1
      f.processBlocks (remote - (w.store.syncedHeight f.chain).1).toNat
        ((w.store.syncedHeight f.chain).1 + 1)) (f.entered w) := by
  have hopen : f.openChain w = (.ok (w.store.syncedHeight f.chain).1,
      { w with store := (w.store.syncedHeight f.chain).2 }) := rfl
  have hask : Syncing.ask f.source.height { w with store := (w.store.syncedHeight f.chain).2 } =
      (.ok remote, f.entered w) := by
    refine Prod.ext ?_ rfl
    show (f.source.height w.source).1.mapError SyncError.source = _
    rw [htold]
    rfl
  rw [run, run_bind, hopen]
  dsimp only
  rw [run_bind, hask]

variable (hfixed : f.source.IsFixed)
include hfixed

/-- **A run with fewer flags comes to the same, or fails over a pair that would have been
flagged.** -/
theorem run_follows (h : Fewer w w') (htold : (f.source.height w.source).1 = .ok remote)
    (htold' : (f.source.height w'.source).1 = .ok remote) (hw : w.Awaits remote)
    (hw' : w'.Awaits remote) :
    (f.run w).1 = (f.run w').1 ∧ Fewer (f.run w).2 (f.run w').2 ∨
      Torn (f.run w).1 (f.run w').2.flags := by
  have hfewer : Fewer (f.entered w) (f.entered w') :=
    ⟨congrArg (fun s : Store => (s.syncedHeight f.chain).2) h.store, h.flags⟩
  rw [run_of_told htold, run_of_told htold', h.store]
  exact Tolerant.follows_bind (fun _ => tolerant_rest hfixed _ _)
    (f.acceptHeight_follows (w'.store.syncedHeight f.chain).1 hfewer hw hw')

theorem not_torn_run (htold : (f.source.height w.source).1 = .ok remote) :
    ¬Torn (f.run w).1 (f.run w).2.flags := by
  rw [run_of_told htold]
  refine Tolerant.not_torn_bind (fun _ => tolerant_rest hfixed _ _) ?_
  exact fun ⟨m, _, herror, _⟩ => (f.quiet_acceptHeight _ _ _ _ _ rfl).2.2 m herror

theorem awaits_run (htold : (f.source.height w.source).1 = .ok remote) (hw : w.Awaits remote)
    (hsynced : 0 ≤ f.heightIn w.store) (hlt : remote < next) : (f.run w).2.Awaits next := by
  have hentered : (f.entered w).Awaits remote := hw
  have haccepted := f.awaits_acceptHeight hentered hsynced hlt
  have hadvances := Tolerant.advances_bind
    (m := f.acceptHeight (w.store.syncedHeight f.chain).1 remote)
    (fun _ => tolerant_rest hfixed (w.store.syncedHeight f.chain).1 remote) (f.entered w)
  rw [run_of_told htold]
  unfold World.Awaits
  rw [hadvances.lastHeight, hadvances.sameCount]
  exact haccepted

end Follower

end

/-! ## Histories with and without starting anew -/

/-- The turn of a follower that is not started anew. -/
def Turn.staying (turn : Turn σ) : Turn σ := { turn with restarted := false }

namespace Follower

/-- What comes of some runs, one after another. -/
def outcomesFrom (f : Follower σ) : World σ → List (Turn σ) → List (Except SyncError Unit)
  | _, [] => []
  | w, turn :: rest => (f.run (turn.enter w)).1 :: f.outcomesFrom (f.run (turn.enter w)).2 rest

/-- What comes of the runs of a history. -/
def outcomes (f : Follower σ) (source : σ) (turns : List (Turn σ)) : List (Except SyncError Unit) :=
  f.outcomesFrom { source } turns

/-- The world after some runs. -/
def worldFrom (f : Follower σ) (w : World σ) (turns : List (Turn σ)) : World σ :=
  turns.foldl (fun w turn => (f.run (turn.enter w)).2) w

/-- In each turn the source reports the next of the heights. -/
def ReportsHeights (f : Follower σ) (turns : List (Turn σ)) (heights : List Int) : Prop :=
  turns.map (fun turn => (f.source.height turn.source).1) = heights.map .ok

/-- Two worlds between runs, the first of a follower that may have been started anew, before the
source reports some heights. -/
structure Alike (f : Follower σ) (heights : List Int) (w w' : World σ) : Prop where
  fewer : Fewer w w'
  awaits : ∀ height ∈ heights, w.Awaits height ∧ w'.Awaits height
  reached : ∃ journal, f.Reached w.store journal

variable {f : Follower σ} {w w' : World σ} {turn : Turn σ} {turns before after : List (Turn σ)}
  {height : Int} {heights : List Int}

theorem outcomesFrom_append (f : Follower σ) (w : World σ) (before after : List (Turn σ)) :
    f.outcomesFrom w (before ++ after) =
      f.outcomesFrom w before ++ f.outcomesFrom (f.worldFrom w before) after := by
  induction before generalizing w with
  | nil => rfl
  | cons turn before ih => exact congrArg (_ :: ·) (ih _)

theorem length_outcomesFrom (f : Follower σ) (w : World σ) (turns : List (Turn σ)) :
    (f.outcomesFrom w turns).length = turns.length := by
  induction turns generalizing w with
  | nil => rfl
  | cons turn turns ih => exact congrArg Nat.succ (ih _)

theorem worldFrom_concat (f : Follower σ) (w : World σ) (before : List (Turn σ)) (turn : Turn σ) :
    f.worldFrom w (before ++ [turn]) = (f.run (turn.enter (f.worldFrom w before))).2 :=
  List.foldl_append

theorem heightIn_nonneg {s : Store} {journal : List Moment} (h : f.Reached s journal) :
    0 ≤ f.heightIn s := by
  rcases h.synced with ⟨rfl, -⟩ | ⟨height, hsynced⟩
  · exact Int.le_refl 0
  · rw [At.heightIn_eq hsynced.progress]
    exact hsynced.nonneg

theorem reached_run (h : ∃ journal, f.Reached w.store journal) :
    ∃ journal, f.Reached (f.run w).2.store journal := by
  obtain ⟨journal, h⟩ := h
  have hforget := f.reports_run.forgets { world := w, journal }
  rw [← (congrArg Prod.snd hforget : _ = (f.run w).2)]
  exact ⟨_, Reached.run (t := { world := w, journal }) h⟩

theorem Alike.start (f : Follower σ) (heights : List Int) (source : σ) :
    f.Alike heights { source } { source } where
  fewer := ⟨rfl, fun _ hc => hc⟩
  awaits _ _ := ⟨.inl ⟨rfl, rfl⟩, .inl ⟨rfl, rfl⟩⟩
  reached := ⟨[], .start⟩

/-- A follower that is started anew has fewer flags, and no height has been reported to it. -/
theorem Alike.enter (h : f.Alike heights w w') (turn : Turn σ) :
    f.Alike heights (turn.enter w) (turn.staying.enter w') := by
  unfold Turn.enter Turn.staying
  cases turn.restarted with
  | false => exact ⟨⟨h.fewer.store, h.fewer.flags⟩, h.awaits, h.reached⟩
  | true =>
    exact ⟨⟨h.fewer.store, nofun⟩, fun k hk => ⟨.inl ⟨rfl, rfl⟩, (h.awaits k hk).2⟩, h.reached⟩

theorem Alike.run (h : f.Alike (height :: heights) w w') (hfixed : f.source.IsFixed)
    (htold : (f.source.height w.source).1 = .ok height)
    (htold' : (f.source.height w'.source).1 = .ok height) (hlt : ∀ k ∈ heights, height < k) :
    (f.run w).1 = (f.run w').1 ∧ f.Alike heights (f.run w).2 (f.run w').2 ∨
      Torn (f.run w).1 (f.run w').2.flags := by
  obtain ⟨hw, hw'⟩ := h.awaits height List.mem_cons_self
  obtain ⟨journal, hreached⟩ := h.reached
  have hnonneg := heightIn_nonneg hreached
  refine (run_follows hfixed h.fewer htold htold' hw hw').imp_left ?_
  rintro ⟨heq, hfewer⟩
  refine ⟨heq, hfewer, fun k hk => ⟨?_, ?_⟩, reached_run ⟨journal, hreached⟩⟩
  · exact awaits_run hfixed htold hw hnonneg (hlt k hk)
  · exact awaits_run hfixed htold' hw' (h.fewer.store ▸ hnonneg) (hlt k hk)

variable (hfixed : f.source.IsFixed)
include hfixed

/-- As long as nothing fails over a pair that would have been flagged, runs come to the same. -/
theorem Alike.outcomes (h : f.Alike heights w w') (htold : f.ReportsHeights turns heights)
    (hincreasing : heights.Pairwise (· < ·))
    (hkept : ∀ before turn after, turns = before ++ turn :: after →
      ¬Torn (f.run (turn.enter (f.worldFrom w before))).1
        (f.worldFrom w' ((before ++ [turn]).map Turn.staying)).flags) :
    f.outcomesFrom w turns = f.outcomesFrom w' (turns.map Turn.staying) ∧
      (f.worldFrom w turns).store = (f.worldFrom w' (turns.map Turn.staying)).store := by
  induction turns generalizing heights w w' with
  | nil => exact ⟨rfl, h.fewer.store⟩
  | cons turn turns ih =>
    obtain ⟨height, heights, rfl, htold, hrest⟩ := List.map_eq_cons_iff.1 htold.symm
    rw [List.pairwise_cons] at hincreasing
    rcases (h.enter turn).run hfixed htold.symm htold.symm hincreasing.1 with ⟨heq, hnext⟩ | htorn
    · obtain ⟨houtcomes, hstore⟩ :=
        ih hnext hrest.symm hincreasing.2 fun before last after hturns =>
        hkept (turn :: before) last after (congrArg (turn :: ·) hturns)
      exact ⟨congrArg₂ List.cons heq houtcomes, hstore⟩
    · exact absurd htorn (hkept [] turn turns rfl)

/-- If runs come to the same, nothing has failed over a pair that would have been flagged. -/
theorem not_torn_of_outcomes (htold : f.ReportsHeights turns heights)
    (heq : f.outcomesFrom w turns = f.outcomesFrom w' (turns.map Turn.staying))
    (hturns : turns = before ++ turn :: after) :
    ¬Torn (f.run (turn.enter (f.worldFrom w before))).1
      (f.worldFrom w' ((before ++ [turn]).map Turn.staying)).flags := by
  subst hturns
  obtain ⟨height, htold⟩ : ∃ height, (f.source.height turn.source).1 = .ok height := by
    have hturn : (f.source.height turn.source).1 ∈ heights.map Except.ok :=
      htold ▸ List.mem_map_of_mem (by simp)
    obtain ⟨k, -, hk⟩ := List.mem_map.1 hturn
    exact ⟨k, hk.symm⟩
  rw [List.map_append, outcomesFrom_append, outcomesFrom_append] at heq
  obtain ⟨-, hrest⟩ :=
    List.append_inj heq (by rw [length_outcomesFrom, length_outcomesFrom, List.length_map])
  have hlast : (f.run (turn.enter (f.worldFrom w before))).1 =
      (f.run (turn.staying.enter (f.worldFrom w' (before.map Turn.staying)))).1 :=
        (List.cons.inj hrest).1
  rw [hlast, List.map_append, List.map_singleton, worldFrom_concat]
  exact not_torn_run hfixed htold

/-- **Starting anew makes no difference, but for the flags.** Let the source answer as a fixed
function of the height, and report greater and greater heights. Then the runs of a follower that is
started anew at will come to the same as those of one that never is, and so does the store, exactly
when none of them fails over a difference in the pools of a pair that the other follower has flagged
by the end of that run. -/
theorem restart_transparent_iff (source : σ) (htold : f.ReportsHeights turns heights)
    (hincreasing : heights.Pairwise (· < ·)) :
    (f.outcomes source turns = f.outcomes source (turns.map Turn.staying) ∧
      (f.worldAfter source turns).store = (f.worldAfter source (turns.map Turn.staying)).store) ↔
    ∀ before turn after, turns = before ++ turn :: after →
      ¬Torn (f.run (turn.enter (f.worldAfter source before))).1
        (f.worldAfter source ((before ++ [turn]).map Turn.staying)).flags :=
  ⟨fun h _ _ _ hturns => not_torn_of_outcomes hfixed htold h.1 hturns,
    (Alike.start f heights source).outcomes hfixed htold hincreasing⟩

end Follower

/-! A pair that is flagged in the first block, and whose pool differs from that of
the node in the second. -/

/-- A transaction in which a pair is created and gets a coin that it does not hold. -/
def giftTx : RawTx where
  hash := "A1"
  sender := "terra1user"
  entries := creatingTx.entries ++ [{
    kind := "transfer"
    attributes := [⟨"recipient", "terra1pair"⟩, ⟨"sender", "terra1user"⟩, ⟨"amount", "5ufoo"⟩] }]

/-- The pool of the new pair as a node has it that counts something else in. -/
def driftedPool : Pool where
  contract := "terra1pair"
  assets := [{ addr := "uluna", amount := "7" }, { addr := "terra1token", amount := "0" }]

def driftingFollower : Follower Int where
  profile := carefulFollower.profile
  source := .fixed (fun height => if height = 1 then [giftTx] else [])
    fun height => if height = 2 then [driftedPool] else []
  policy := { validationInterval := 2 }

/-- Two runs, one for either block, between which the follower is started anew. -/
def interruptedTurns : List (Turn Int) :=
  [{ source := 1 }, { source := 2, restarted := true }]

theorem reportsHeights_interruptedTurns :
    driftingFollower.ReportsHeights interruptedTurns [1, 2] := rfl

/-- Nothing else can have gone wrong with the second of the runs. -/
theorem torn_interruptedTurns :
    driftingFollower.source.IsFixed ∧ driftingFollower.ReportsHeights interruptedTurns [1, 2] ∧
      [1, 2].Pairwise (· < · : Int → Int → Prop) ∧
      ∃ before turn after, interruptedTurns = before ++ turn :: after ∧
        Torn (driftingFollower.run (turn.enter (driftingFollower.worldAfter 0 before))).1
          (driftingFollower.worldAfter 0 ((before ++ [turn]).map Turn.staying)).flags := by
  have hfixed : driftingFollower.source.IsFixed := Source.isFixed_fixed _ _
  have hincreasing : [1, 2].Pairwise (· < · : Int → Int → Prop) := by decide
  refine ⟨hfixed, reportsHeights_interruptedTurns, hincreasing, ?_⟩
  have hiff := Follower.restart_transparent_iff hfixed 0 reportsHeights_interruptedTurns hincreasing
  have hdiffer : driftingFollower.outcomes 0 interruptedTurns ≠
      driftingFollower.outcomes 0 (interruptedTurns.map Turn.staying) := by decide +kernel
  by_contra hnone
  refine hdiffer (hiff.2 fun before turn after hturns htorn => ?_).1
  exact hnone ⟨before, turn, after, hturns, htorn⟩

/-- **Starting anew does make a difference**: the flag of the pair is lost, and the difference that
would have exempted it stops the run. -/
theorem restart_not_transparent :
    driftingFollower.source.IsFixed ∧ driftingFollower.ReportsHeights interruptedTurns [1, 2] ∧
      0 < driftingFollower.policy.snapshotInterval ∧
      0 < driftingFollower.policy.validationInterval ∧
      driftingFollower.outcomes 0 interruptedTurns =
        [.ok (), .error (.mismatch (.amount "terra1pair" "uluna" "0" "7"))] ∧
      (driftingFollower.worldAfter 0 interruptedTurns).store.exempt = [] ∧
      driftingFollower.outcomes 0 (interruptedTurns.map Turn.staying) = [.ok (), .ok ()] ∧
      (driftingFollower.worldAfter 0 (interruptedTurns.map Turn.staying)).store.exempt =
        [{ chain := "phoenix-1", contract := "terra1pair" }] := by
  refine ⟨Source.isFixed_fixed _ _, reportsHeights_interruptedTurns, by decide, by decide, ?_, ?_,
    ?_, ?_⟩
  · decide +kernel
  · decide +kernel
  · decide +kernel
  · decide +kernel

end PoolLedger
