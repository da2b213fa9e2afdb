import PoolLedger.Proofs.Store
import PoolLedger.Store.Session

/-!
# The part of a chain

Many chains may share a store. The part of a chain (`Store.part`) has its rows alone. What the store
answers for a chain depends on its part alone, and what an operation makes of the part is what it
makes of a store that has nothing else (`insert_part` and its like). The parts of the other chains
stay as they are (`part_of_insert` and its like).
-/

namespace PoolLedger.Store

/-- The rows of one chain. -/
def part (s : Store) (chain : String) : Store where
  pairs := s.pairs.filter (·.chain == chain)
  records := s.records.filter (·.chain == chain)
  pools := s.pools.filter (·.chain == chain)
  progress := s.progress.filter (·.chain == chain)
  exempt := s.exempt.filter (·.chain == chain)
  failures := s.failures.filter (·.chain == chain)

variable {α : Type} {s s' : Store} {chain other contract : String} {height : Int}

/-! ## Rows of a chain -/

section

variable {rows : List α} {p q : α → Bool}

/-- A condition that holds of rows of a chain only finds them among these. -/
theorem filter_narrow (h : ∀ r, p r → q r) : (rows.filter q).filter p = rows.filter p := by
  rw [List.filter_filter]
  refine List.filter_congr fun r _ => ?_
  cases hp : p r with
  | false => rfl
  | true => rw [h r hp, Bool.and_self]

theorem any_narrow (h : ∀ r, p r → q r) : (rows.filter q).any p = rows.any p := by
  rw [List.any_filter]
  refine congrArg (List.any rows) (funext fun r => ?_)
  cases hp : p r with
  | false => rw [Bool.and_false]
  | true => rw [h r hp, Bool.and_self]

variable (chainOf : α → String)

theorem filter_own (h : ∀ r ∈ rows, chainOf r = chain) : rows.filter (chainOf · == chain) = rows :=
  List.filter_eq_self.2 fun r hr => beq_iff_eq.2 (h r hr)

theorem filter_foreign (hne : other ≠ chain) (h : ∀ r ∈ rows, chainOf r = other) :
    rows.filter (chainOf · == chain) = [] :=
  List.filter_eq_nil_iff.2 fun r hr heq => hne ((h r hr).symm.trans (beq_iff_eq.1 heq))

end

/-! ## Answers -/

theorem height?_part (s : Store) (chain : String) :
    (s.part chain).height? chain = s.height? chain := by
  rw [height?, part, List.find?_filter, height?]
  simp only [and_self, Bool.decide_eq_true]

theorem registry_part (s : Store) (chain : String) :
    (s.part chain).registry chain = s.registry chain := by
  rw [registry, part, filter_narrow fun _ h => h, registry]

theorem exemptions_part (s : Store) (chain : String) :
    (s.part chain).exemptions chain = s.exemptions chain := by
  rw [exemptions, part, filter_narrow fun _ h => h, exemptions]

theorem impliedPools_part (s : Store) (chain : String) (first last : Int) :
    (s.part chain).impliedPools chain first last = s.impliedPools chain first last := by
  have hrecords : (s.part chain).recordsIn chain first last = s.recordsIn chain first last :=
    filter_narrow fun r h => by
      rw [Bool.and_assoc, Bool.and_eq_true] at h
      exact h.1
  rw [impliedPools, flows, hrecords, impliedPools, flows]

theorem listFailures_part (s : Store) (chain : String) (resolved : Option Bool) (limit : Int) :
    (s.part chain).listFailures chain resolved limit = s.listFailures chain resolved limit := by
  rw [listFailures, part, filter_narrow fun _ h => (Bool.and_eq_true_iff.1 h).1, listFailures]

theorem failureCounts_part (s : Store) (chain : String) :
    (s.part chain).failureCounts chain = s.failureCounts chain := by
  rw [failureCounts, part, filter_narrow fun _ h => (Bool.and_eq_true_iff.1 h).1, failureCounts]

/-! ## Progress -/

theorem syncedHeight_part (s : Store) (chain : String) :
    (s.part chain).syncedHeight chain =
      ((s.syncedHeight chain).1, (s.syncedHeight chain).2.part chain) := by
  rw [syncedHeight, height?_part, syncedHeight]
  cases s.height? chain with
  | some h => rfl
  | none => simp [part]

theorem part_syncedHeight (hne : other ≠ chain) :
    (s.syncedHeight other).2.part chain = s.part chain := by
  rw [syncedHeight]
  cases s.height? other with
  | some h => rfl
  | none => simp [part, hne]

/-- Moving a height on keeps the chains of the rows. -/
theorem filter_advance (other chain : String) (height : Int) (rows : List ProgressRow) :
    (advance other height rows).filter (·.chain == chain) =
      advance other height (rows.filter (·.chain == chain)) := by
  rw [advance, List.filter_map, advance]
  refine congrArg _ (List.filter_congr fun r _ => ?_)
  rw [Function.comp_apply]
  split <;> rfl

theorem advance_foreign (hne : other ≠ chain) {rows : List ProgressRow}
    (h : ∀ r ∈ rows, r.chain = chain) :
    advance other height rows = rows := by
  refine (List.map_congr_left fun r hr => ?_).trans (List.map_id' rows)
  exact if_neg fun hmoved => hne (hmoved.1.symm.trans (h r hr))

/-! ## Pairs -/

/-- Whether a contract would occur twice on a chain depends on the pairs of that chain. -/
theorem addPairs_filter {rows more : List PairRow} (h : ∀ r ∈ more, r.chain = chain) :
    addPairs (rows.filter (·.chain == chain)) more =
      (addPairs rows more).map fun rows => rows.filter (·.chain == chain) := by
  induction more generalizing rows with
  | nil => rfl
  | cons r more ih =>
    have hr := h r List.mem_cons_self
    have htwice : ((rows.filter (·.chain == chain)).any fun q =>
        q.chain == r.chain && q.contract == r.contract) =
        rows.any fun q => q.chain == r.chain && q.contract == r.contract :=
      any_narrow fun q h => hr ▸ (Bool.and_eq_true_iff.1 h).1
    have happend : rows.filter (·.chain == chain) ++ [r] =
        (rows ++ [r]).filter (·.chain == chain) := by
      rw [List.filter_append, filter_own PairRow.chain (List.forall_mem_singleton.2 hr)]
    rw [addPairs, htwice, addPairs]
    split
    · rfl
    · rw [happend]
      exact ih fun q hq => h q (List.mem_cons_of_mem _ hq)

theorem chain_of_mem_ofPair {pairs : List Pair} {r : PairRow} (h : r ∈ pairs.map (.ofPair chain)) :
    r.chain = chain := by
  obtain ⟨p, -, rfl⟩ := List.mem_map.1 h
  rfl

theorem chain_of_mem_ofRecord {records : List Record} {r : RecordRow}
    (h : r ∈ records.map (.ofRecord chain height)) : r.chain = chain := by
  obtain ⟨_, -, rfl⟩ := List.mem_map.1 h
  rfl

theorem filter_ofPair_own (chain : String) (pairs : List Pair) :
    (pairs.map (PairRow.ofPair chain)).filter (·.chain == chain) = pairs.map (.ofPair chain) :=
  filter_own PairRow.chain fun _ hr => chain_of_mem_ofPair hr

theorem filter_ofPair_foreign (hne : other ≠ chain) (pairs : List Pair) :
    (pairs.map (PairRow.ofPair other)).filter (·.chain == chain) = [] :=
  filter_foreign PairRow.chain hne fun _ hr => chain_of_mem_ofPair hr

theorem filter_ofRecord_own (chain : String) (height : Int) (records : List Record) :
    (records.map (RecordRow.ofRecord chain height)).filter (·.chain == chain) =
      records.map (.ofRecord chain height) :=
  filter_own RecordRow.chain fun _ hr => chain_of_mem_ofRecord hr

theorem filter_ofRecord_foreign (hne : other ≠ chain) (height : Int) (records : List Record) :
    (records.map (RecordRow.ofRecord other height)).filter (·.chain == chain) = [] :=
  filter_foreign RecordRow.chain hne fun _ hr => chain_of_mem_ofRecord hr

/-- New pairs of a chain are accepted, or not, by what the chain has of its own. -/
theorem addPairs_part (s : Store) (chain : String) (pairs : List Pair) :
    addPairs (s.part chain).pairs (pairs.map (.ofPair chain)) =
      (addPairs s.pairs (pairs.map (.ofPair chain))).map fun rows =>
        rows.filter (·.chain == chain) :=
  addPairs_filter fun _ hr => chain_of_mem_ofPair hr

/-! ## Blocks -/

/-- **A block of a chain is written, or refused, as if the chain had the store for itself.** -/
theorem insert_part (s : Store) (chain : String) (height : Int) (records : List Record)
    (pools : List Pool) (pairs : List Pair) :
    (s.part chain).insert chain height records pools pairs =
      (s.insert chain height records pools pairs).map (·.part chain) := by
  have hprogress : ((s.part chain).progress.any fun r =>
      r.chain == chain && r.height == height - 1) =
      s.progress.any fun r => r.chain == chain && r.height == height - 1 :=
    any_narrow fun _ h => (Bool.and_eq_true_iff.1 h).1
  rw [insert, insert, hprogress, s.addPairs_part]
  -- The checks in turn: the store and its part pass or fail them alike.
  cases fits (height - 1) with
  | false => rfl
  | true =>
    cases s.progress.any fun r => r.chain == chain && r.height == height - 1 with
    | false => rfl
    | true =>
      cases hrows : poolRows chain height pools with
      | error e => rfl
      | ok rows =>
        cases fits height with
        | false => rfl
        | true =>
          cases addPairs s.pairs (pairs.map (.ofPair chain)) with
          | error e => rfl
          | ok pairRows =>
            refine congrArg Except.ok ?_
            have hpools := filter_own PoolRow.chain fun r hr => (poolRows_eq_ok hrows r hr).1
            simp only [part, List.filter_append, filter_advance, filter_ofRecord_own, hpools]

/-- **A block of a chain leaves the other chains alone**: their heights do not move, nor
do their rows change. -/
theorem part_of_insert {records : List Record} {pools : List Pool} {pairs : List Pair}
    (hne : other ≠ chain) (h : s.insert other height records pools pairs = .ok s') :
    s'.part chain = s.part chain := by
  obtain ⟨-, rows, hrows, rfl⟩ := insert_eq_ok h
  have hpools := filter_foreign PoolRow.chain hne fun r hr => (poolRows_eq_ok hrows r hr).1
  have hprogress : advance other height (s.progress.filter (·.chain == chain)) =
      s.progress.filter (·.chain == chain) := by
    apply advance_foreign hne
    intro r hr
    exact beq_iff_eq.1 (List.mem_filter.1 hr).2
  simp only [part, List.filter_append, filter_advance, filter_ofPair_foreign hne,
    filter_ofRecord_foreign hne, hpools, hprogress, List.append_nil]

/-! ## Exemptions and failures -/

theorem addExemption_part (s : Store) (chain contract : String) :
    (s.part chain).addExemption chain contract =
      (s.addExemption chain contract).map (·.part chain) := by
  rw [addExemption, exemptions_part, addExemption]
  split
  · rfl
  · refine congrArg Except.ok ?_
    simp [part]

theorem part_of_addExemption (hne : other ≠ chain) (h : s.addExemption other contract = .ok s') :
    s'.part chain = s.part chain := by
  unfold addExemption at h
  split at h
  · cases h
  · obtain rfl := Except.ok.inj h
    simp [part, hne]

theorem addFailure_part {r : FailureRow} (hr : r.chain = chain) :
    (s.part chain).addFailure r = (s.addFailure r).map (·.part chain) := by
  rw [addFailure, addFailure]
  split
  · refine congrArg Except.ok ?_
    simp [part, hr]
  · rfl

theorem part_of_addFailure {r : FailureRow} (hne : r.chain ≠ chain) (h : s.addFailure r = .ok s') :
    s'.part chain = s.part chain := by
  unfold addFailure at h
  split at h
  · obtain rfl := Except.ok.inj h
    simp [part, hne]
  · cases h

end PoolLedger.Store
