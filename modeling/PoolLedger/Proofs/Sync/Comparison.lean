import PoolLedger.Proofs.Flow
import PoolLedger.Proofs.Sync.Quiet

/-!
# Comparing pools

Pools are compared contract by contract, after those that are exempt have been left out on both
sides. If the contracts are the same on both sides to begin with, validation may find that pools
differ, but never that one is unexpected or missing (`not_isDisagreement_of_validate`). What it
exempts are pairs that records name (`exemptions_of_validate`).
-/

namespace PoolLedger

/-- Whether a failure is about a pool that only one side has. -/
def SyncError.IsDisagreement : SyncError → Prop
  | mismatch (.unexpected _) | mismatch (.missing _) => True
  | _ => False

/-! ## Two pools -/

/-- What comparing two pools may come to: a difference or a failure, but about pools that both sides
have. -/
def Minor : Except SyncError (Option PoolMismatch) → Prop
  | .ok none => True
  | .ok (some m) => ¬(SyncError.mismatch m).IsDisagreement
  | .error e => ¬e.IsDisagreement

theorem minor_read {text : String} {k : Int → Except SyncError (Option PoolMismatch)}
    (h : ∀ n, Minor (k n)) : Minor ((Amount.read text).mapError .reading >>= k) := by
  cases Amount.read text with
  | error e => exact id
  | ok n => exact h n

theorem minor_assetMismatch? (contract : String) (actual expected : List Asset) :
    Minor (assetMismatch? contract actual expected) := by
  induction expected generalizing actual with
  | nil => cases actual <;> trivial
  | cons e expected ih =>
    rw [assetMismatch?]
    refine minor_read ?_
    intro n
    cases actual with
    | nil => exact id
    | cons a actual =>
      refine minor_read ?_
      intro m
      by_cases h : n = m
      · rw [if_pos h]
        exact ih actual
      · rw [if_neg h]
        exact id

theorem minor_poolMismatch? (actual expected : Pool) : Minor (poolMismatch? actual expected) := by
  have hassets := minor_assetMismatch? actual.contract actual.assets expected.assets
  unfold poolMismatch?
  generalize assetMismatch? actual.contract actual.assets expected.assets = x at hassets ⊢
  rcases x with e | _ | m
  · exact hassets
  · refine minor_read fun n => minor_read ?_
    intro m
    by_cases h : n = m
    · rw [if_pos h]
      trivial
    · rw [if_neg h]
      exact id
  · exact hassets

/-! ## Contracts on both sides -/

theorem mem_contracts_putPool (p : Pool) (l : List Pool) (c : String) :
    c ∈ (putPool p l).map (·.contract) ↔ c = p.contract ∨ c ∈ l.map (·.contract) := by
  induction l with
  | nil => simp [putPool]
  | cons q rest ih =>
    by_cases h : q.contract = p.contract
    · simp [putPool, h]
    · simp only [putPool, h, if_false, List.map_cons, List.mem_cons, ih]
      tauto

theorem mem_contracts_filter (exempt : List String) (l : List Pool) (c : String) :
    c ∈ (l.filter fun p => !exempt.contains p.contract).map (·.contract) ↔
      c ∈ l.map (·.contract) ∧ c ∉ exempt := by
  simp only [List.mem_map, List.mem_filter, Bool.not_eq_true', List.contains_eq_mem,
    decide_eq_false_iff_not]
  constructor
  · rintro ⟨p, ⟨hp, hexempt⟩, rfl⟩
    exact ⟨⟨p, hp, rfl⟩, hexempt⟩
  · rintro ⟨⟨p, hp, rfl⟩, hexempt⟩
    exact ⟨p, ⟨hp, hexempt⟩, rfl⟩

theorem mem_contracts_expectedPools (exempt : List String) (expected : List Pool) (c : String) :
    c ∈ (expectedPools exempt expected).map (·.contract) ↔
      c ∈ expected.map (·.contract) ∧ c ∉ exempt := by
  have hfold (l sums : List Pool) :
      c ∈ (l.foldl (fun l p => putPool p l) sums).map (·.contract) ↔
        c ∈ sums.map (·.contract) ∨ c ∈ l.map (·.contract) := by
    induction l generalizing sums with
    | nil => simp
    | cons p l ih =>
      rw [List.foldl_cons, ih, mem_contracts_putPool, List.map_cons, List.mem_cons]
      tauto
  rw [expectedPools, hfold, mem_contracts_filter]
  simp

theorem mem_contracts_without (contract : String) (expected : List Pool) (c : String) :
    c ∈ (expected.filter (·.contract != contract)).map (·.contract) ↔
      c ∈ expected.map (·.contract) ∧ c ≠ contract := by
  simp only [List.mem_map, List.mem_filter, bne_iff_ne]
  constructor
  · rintro ⟨p, ⟨hp, hne⟩, rfl⟩
    exact ⟨⟨p, hp, rfl⟩, hne⟩
  · rintro ⟨⟨p, hp, rfl⟩, hne⟩
    exact ⟨p, ⟨hp, hne⟩, rfl⟩

variable {flags : Flags} {actual expected : List Pool}

/-- Comparing pools leaves the expected ones that are not there, and finds differences in those that
are. -/
theorem comparePools_eq_ok {compared : Comparison}
    (h : comparePools flags actual expected = .ok compared) :
    (∀ c, c ∈ compared.left.map (·.contract) ↔
      c ∈ expected.map (·.contract) ∧ c ∉ actual.map (·.contract)) ∧
      ∀ c ∈ compared.differing, c ∈ actual.map (·.contract) := by
  induction actual generalizing expected compared with
  | nil =>
    obtain rfl := Except.ok.inj h
    exact ⟨by simp, nofun⟩
  | cons a actual ih =>
    rw [comparePools] at h
    split at h
    · cases h
    · obtain ⟨found, -, h⟩ := bind_eq_ok.1 h
      -- The pool that is compared first is taken out of the expected ones, and so is not left over.
      have hstep {rest : Comparison}
          (hrest : comparePools flags actual (expected.filter (·.contract != a.contract)) =
            .ok rest) :
          (∀ c, c ∈ rest.left.map (·.contract) ↔
            c ∈ expected.map (·.contract) ∧ c ∉ (a :: actual).map (·.contract)) ∧
            ∀ c ∈ rest.differing, c ∈ (a :: actual).map (·.contract) := by
        obtain ⟨hleft, hdiffering⟩ := ih hrest
        refine ⟨?_, fun c hc => List.mem_cons_of_mem _ (hdiffering c hc)⟩
        intro c
        rw [hleft, mem_contracts_without, List.map_cons, List.mem_cons]
        tauto
      cases found with
      | none => exact hstep h
      | some m =>
        dsimp only at h
        split at h
        · obtain ⟨rest, hrest, h⟩ := bind_eq_ok.1 h
          obtain rfl := pure_eq_ok.1 h
          obtain ⟨hleft, hdiffering⟩ := hstep hrest
          refine ⟨hleft, ?_⟩
          intro c hc
          rcases List.mem_cons.1 hc with rfl | hc
          · exact List.mem_cons_self
          · exact hdiffering c hc
        · cases h

/-- **If every pool is expected, comparing pools does not fail over a pool that one side lacks.** -/
theorem not_isDisagreement_of_comparePools (hnodup : (actual.map (·.contract)).Nodup)
    (hsub : ∀ c ∈ actual.map (·.contract), c ∈ expected.map (·.contract)) {e : SyncError}
    (h : comparePools flags actual expected = .error e) : ¬e.IsDisagreement := by
  induction actual generalizing expected e with
  | nil => cases h
  | cons a actual ih =>
    rw [List.map_cons, List.nodup_cons] at hnodup
    -- No contract occurs twice, so the later ones are still expected without the first.
    have hrest {e : SyncError} (h : comparePools flags actual
        (expected.filter (·.contract != a.contract)) = .error e) : ¬e.IsDisagreement := by
      refine ih hnodup.2 (?_) h
      intro c hc
      rw [mem_contracts_without]
      exact ⟨hsub c (List.mem_cons_of_mem _ hc), fun hca => hnodup.1 (hca ▸ hc)⟩
    rw [comparePools] at h
    split at h
    · -- No counterpart: excluded, as the pool is expected.
      rename_i hfind
      exfalso
      obtain ⟨p, hp, hcontract⟩ := List.mem_map.1 (hsub a.contract List.mem_cons_self)
      exact List.find?_eq_none.1 hfind p hp (by simpa using hcontract)
    · rename_i found hfind
      have hminor := minor_poolMismatch? a found
      rcases bind_eq_error.1 h with hfailed | ⟨differs, hdiffers, h⟩
      · rw [hfailed] at hminor
        exact hminor
      · cases differs with
        | none => exact hrest h
        | some m =>
          rw [hdiffers] at hminor
          dsimp only at h
          split at h
          · rcases bind_eq_error.1 h with h | ⟨_, -, h⟩
            · exact hrest h
            · cases h
          · obtain rfl := Except.error.inj h
            exact hminor

/-! ## Validation -/

namespace Follower

variable {σ : Type} {f : Follower σ} {first last : Int} {pools : List Pool} {w w' : World σ}

/-- **If the source gives the pools that the records imply, validation does not fail over a pool
that one side lacks.** -/
theorem not_isDisagreement_of_validate
    (hcontracts : ∀ c, c ∈ pools.map (·.contract) ↔
      ∃ r ∈ w.store.recordsIn f.chain first last, r.contract = c) {e : SyncError}
    (h : f.validate first last pools w = (.error e, w')) : ¬e.IsDisagreement := by
  rw [validate_eq] at h
  split at h
  · cases h
  · split at h
    · obtain rfl := Except.error.inj (Prod.mk.inj h).1
      exact id
    · rename_i implied himplied
      obtain ⟨hnodup, hnamed⟩ := Store.contracts_impliedPools himplied
      dsimp only at h
      have hnodup' := hnodup.sublist ((List.filter_sublist (p := fun p : Pool =>
        !(w.store.exemptions f.chain).contains p.contract)).map (·.contract))
      -- Exempt pairs drop out on both sides, so the contracts are still the same.
      have hsame (c : String) : c ∈ (implied.filter fun p =>
          !(w.store.exemptions f.chain).contains p.contract).map (·.contract) ↔
          c ∈ (expectedPools (w.store.exemptions f.chain) pools).map (·.contract) := by
        rw [mem_contracts_filter, mem_contracts_expectedPools, hnamed, hcontracts]
      split at h
      · rename_i e' hfailed
        obtain rfl := Except.error.inj (Prod.mk.inj h).1
        exact not_isDisagreement_of_comparePools hnodup' (fun c => (hsame c).1) hfailed
      · rename_i compared hcompared
        split at h
        · obtain rfl := Except.error.inj (Prod.mk.inj h).1
          exact id
        · -- Nothing is left over, so it does not fail after the comparison.
          exfalso
          obtain ⟨hleft, -⟩ := comparePools_eq_ok hcompared
          have hnil : compared.left.map (·.contract) = [] := by
            refine List.eq_nil_iff_forall_not_mem.2 ?_
            intro c hc
            obtain ⟨hexpected, hactual⟩ := (hleft c).1 hc
            exact hactual ((hsame c).2 hexpected)
          rw [List.map_eq_nil_iff.1 hnil] at h
          cases h

/-- What validation exempts are pairs that records name. -/
theorem exemptions_of_validate {outcome : Except SyncError Unit}
    (h : f.validate first last pools w = (outcome, w')) {c : String}
    (hc : c ∈ w'.store.exemptions f.chain) :
    c ∈ w.store.exemptions f.chain ∨
      ∃ r ∈ w.store.recordsIn f.chain first last, r.contract = c := by
  rw [validate_eq] at h
  split at h
  · obtain ⟨-, rfl⟩ := Prod.mk.inj h
    exact .inl hc
  · split at h
    · obtain ⟨-, rfl⟩ := Prod.mk.inj h
      exact .inl hc
    · rename_i implied himplied
      dsimp only at h
      split at h
      · obtain ⟨-, rfl⟩ := Prod.mk.inj h
        exact .inl hc
      · rename_i compared hcompared
        split at h
        · obtain ⟨-, rfl⟩ := Prod.mk.inj h
          exact .inl hc
        · rename_i store hexempt
          obtain ⟨-, rfl⟩ := Prod.mk.inj h
          have hc : c ∈ store.exemptions f.chain := hc
          rw [Store.exemptions_of_exemptAll hexempt] at hc
          rcases List.mem_append.1 hc with hc | hc
          · exact .inl hc
          · have hactual := (comparePools_eq_ok hcompared).2 c hc
            rw [mem_contracts_filter] at hactual
            exact .inr (((Store.contracts_impliedPools himplied).2 c).1 hactual.1)

end Follower

end PoolLedger
