import PoolLedger.Proofs.Outcome
import PoolLedger.Proofs.Registry
import PoolLedger.Sync.Validation

/-!
# What the store does

A block that is written adds rows and moves the height on (`insert_eq_ok`); the registry
then has the new pairs as well (`registry_of_insert`). Exemptions and failures leave the
blocks alone (`SameBlocks`).
-/

namespace PoolLedger.Store

variable {s s' : Store} {chain : String} {height : Int}

/-! ## Blocks that stay the same -/

/-- Two stores that differ in their exemptions and failures at most. -/
structure SameBlocks (s s' : Store) : Prop where
  pairs : s'.pairs = s.pairs
  records : s'.records = s.records
  pools : s'.pools = s.pools
  progress : s'.progress = s.progress

theorem SameBlocks.refl (s : Store) : SameBlocks s s := ⟨rfl, rfl, rfl, rfl⟩

theorem SameBlocks.registry_eq (h : SameBlocks s s') (chain : String) :
    s'.registry chain = s.registry chain := by
  rw [registry, registry, h.pairs]

theorem sameBlocks_of_addFailure {r : FailureRow} (h : s.addFailure r = .ok s') :
    SameBlocks s s' ∧ s'.exempt = s.exempt := by
  unfold addFailure at h
  split at h
  · injection h with h
    subst h
    exact ⟨⟨rfl, rfl, rfl, rfl⟩, rfl⟩
  · cases h

/-! ## Pairs that are exempted -/

/-- The store with more pairs exempt. -/
def exempting (s : Store) (chain : String) (contracts : List String) : Store :=
  { s with exempt := s.exempt ++ contracts.map ({ chain, contract := · }) }

theorem exemptions_exempting (s : Store) (chain : String) (contracts : List String) :
    (s.exempting chain contracts).exemptions chain = s.exemptions chain ++ contracts := by
  have hnew : (contracts.map fun contract => ({ chain, contract } : ExemptRow)).filter
      (·.chain == chain) =
      contracts.map fun contract => { chain, contract } := by
    rw [List.filter_eq_self]
    intro r hr
    obtain ⟨_, -, rfl⟩ := List.mem_map.1 hr
    exact beq_self_eq_true chain
  rw [exemptions, exempting, List.filter_append, hnew, List.map_append, List.map_map, exemptions]
  exact congrArg _ (List.map_id' contracts)

theorem sameBlocks_of_exemptAll {contracts : List String}
    (h : exemptAll chain contracts s = .ok s') :
    SameBlocks s s' ∧ s'.exempt = s.exempt ++ contracts.map ({ chain, contract := · }) := by
  induction contracts generalizing s with
  | nil =>
    obtain rfl := pure_eq_ok.1 h
    exact ⟨.refl _, (List.append_nil _).symm⟩
  | cons c contracts ih =>
    rw [exemptAll, List.foldlM_cons] at h
    obtain ⟨s₁, hadd, h⟩ := bind_eq_ok.1 h
    obtain ⟨hsame, hexempt⟩ := ih h
    unfold addExemption at hadd
    split at hadd
    · cases hadd
    · injection hadd with hadd
      subst hadd
      refine ⟨⟨hsame.pairs, hsame.records, hsame.pools, hsame.progress⟩, ?_⟩
      rw [hexempt, List.append_assoc]
      rfl

theorem exemptions_of_exemptAll {contracts : List String}
    (h : exemptAll chain contracts s = .ok s') :
    s'.exemptions chain = s.exemptions chain ++ contracts := by
  rw [exemptions, (sameBlocks_of_exemptAll h).2]
  exact s.exemptions_exempting chain contracts

theorem addExemption_of_not_mem {contract : String} (h : contract ∉ s.exemptions chain) :
    s.addExemption chain contract = .ok (s.exempting chain [contract]) :=
  if_neg (by simpa using h)

theorem exemptAll_of_not_mem {contracts : List String} (hnodup : contracts.Nodup)
    (hfresh : ∀ c ∈ contracts, c ∉ s.exemptions chain) :
    exemptAll chain contracts s = .ok (s.exempting chain contracts) := by
  induction contracts generalizing s with
  | nil => exact congrArg Except.ok (by simp [exempting])
  | cons c contracts ih =>
    rw [List.nodup_cons] at hnodup
    rw [exemptAll, List.foldlM_cons, addExemption_of_not_mem (hfresh c List.mem_cons_self)]
    refine (ih hnodup.2 ?_).trans ?_
    · intro d hd
      rw [exemptions_exempting, List.mem_append, List.mem_singleton]
      rintro (hmem | rfl)
      · exact hfresh d (List.mem_cons_of_mem _ hd) hmem
      · exact hnodup.1 hd
    · simp [exempting]

/-! ## Blocks that are written -/

theorem addPairs_eq_ok {rows more rows' : List PairRow} (h : addPairs rows more = .ok rows') :
    rows' = rows ++ more := by
  induction more generalizing rows with
  | nil =>
    injection h with h
    rw [← h, List.append_nil]
  | cons r more ih =>
    rw [addPairs] at h
    split at h
    · cases h
    · rw [ih h, List.append_assoc]
      rfl

theorem poolRows_eq_ok {pools : List Pool} {rows : List PoolRow}
    (h : poolRows chain height pools = .ok rows) :
    ∀ r ∈ rows, r.chain = chain ∧ r.height = height := by
  intro r hr
  obtain ⟨p, -, hp⟩ := exists_of_mem_mapM h hr
  split at hp
  · rename_i row hrow
    injection hp with hp
    subst hp
    unfold PoolRow.ofPool? at hrow
    split at hrow
    · injection hrow with hrow
      exact hrow ▸ ⟨rfl, rfl⟩
    · cases hrow
  · cases hp

/-- **A block that is written adds its rows and moves the height of the chain on.** -/
theorem insert_eq_ok {records : List Record} {pools : List Pool} {pairs : List Pair}
    (h : s.insert chain height records pools pairs = .ok s') :
    (∃ r ∈ s.progress, r.chain = chain ∧ r.height = height - 1) ∧
      ∃ rows, poolRows chain height pools = .ok rows ∧ s' = {
        s with
        pairs := s.pairs ++ pairs.map (.ofPair chain)
        records := s.records ++ records.map (.ofRecord chain height)
        pools := s.pools ++ rows
        progress := advance chain height s.progress } := by
  simp only [insert, guard_eq_ok, bind_eq_ok, pure_eq_ok] at h
  obtain ⟨-, hany, rows, hrows, -, pairRows, hpairs, rfl⟩ := h
  rw [addPairs_eq_ok hpairs]
  exact ⟨by simpa using hany, rows, hrows, rfl⟩

theorem registry_of_insert {records : List Record} {pools : List Pool} {pairs : List Pair}
    (h : s.insert chain height records pools pairs = .ok s') :
    s'.registry chain = (s.registry chain).insertAll pairs := by
  obtain ⟨-, rows, -, rfl⟩ := insert_eq_ok h
  have hnew : ((pairs.map (PairRow.ofPair chain)).filter (·.chain == chain)).map (·.toPair) =
      pairs := by
    rw [List.filter_eq_self.2, List.map_map]
    · exact List.map_id' pairs
    · intro r hr
      obtain ⟨p, -, rfl⟩ := List.mem_map.1 hr
      exact beq_self_eq_true chain
  rw [registry, List.filter_append, List.map_append, hnew, Registry.ofList_append, registry]

theorem advance_singleton (chain : String) (height : Int) :
    advance chain (height + 1) [{ chain, height }] = [{ chain, height := height + 1 }] := by
  simp [advance]

end PoolLedger.Store
