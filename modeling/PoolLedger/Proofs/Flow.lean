import PoolLedger.Proofs.Numeral
import PoolLedger.Proofs.Store

/-!
# What the records of a store imply

Summing up flows keeps their contracts and lists each once (`mem_contracts_total`,
`nodup_contracts_total`), so the implied pools are those of the contracts that records name
(`contracts_impliedPools`). They can be told exactly when every amount can be read and every sum be
written (`exists_impliedPools_iff`).
-/

namespace PoolLedger

/-! ## Sums of flows -/

namespace Flow

theorem mem_contracts_into (f : Flow) (sums : List Flow) (c : String) :
    c ∈ (f.into sums).map (·.contract) ↔ c = f.contract ∨ c ∈ sums.map (·.contract) := by
  induction sums with
  | nil => simp [into]
  | cons g rest ih =>
    by_cases h : g.contract = f.contract
    · simp [into, h, add]
    · simp only [into, h, if_false, List.map_cons, List.mem_cons, ih]
      tauto

theorem nodup_contracts_into (f : Flow) {sums : List Flow} (h : (sums.map (·.contract)).Nodup) :
    ((f.into sums).map (·.contract)).Nodup := by
  induction sums with
  | nil => simp [into]
  | cons g rest ih =>
    rw [List.map_cons, List.nodup_cons] at h
    by_cases hg : g.contract = f.contract
    · rw [into, if_pos hg, List.map_cons, List.nodup_cons]
      exact h
    · rw [into, if_neg hg, List.map_cons, List.nodup_cons, mem_contracts_into]
      exact ⟨fun hm => hm.elim hg h.1, ih h.2⟩

theorem mem_contracts_total (flows : List Flow) (c : String) :
    c ∈ (total flows).map (·.contract) ↔ c ∈ flows.map (·.contract) := by
  have hfold (sums : List Flow) : c ∈
      (flows.foldl (fun sums f => f.into sums) sums).map (·.contract) ↔
      c ∈ sums.map (·.contract) ∨ c ∈ flows.map (·.contract) := by
    induction flows generalizing sums with
    | nil => simp
    | cons f flows ih =>
      rw [List.foldl_cons, ih, mem_contracts_into, List.map_cons, List.mem_cons]
      tauto
  rw [total, hfold]
  simp

theorem nodup_contracts_total (flows : List Flow) : ((total flows).map (·.contract)).Nodup := by
  have hfold (sums : List Flow) (h : (sums.map (·.contract)).Nodup) :
      ((flows.foldl (fun sums f => f.into sums) sums).map (·.contract)).Nodup := by
    induction flows generalizing sums with
    | nil => exact h
    | cons f flows ih => exact ih _ (nodup_contracts_into f h)
  exact hfold [] List.nodup_nil

/-- Whether the sums are not too long to be written. -/
def IsWritable (f : Flow) : Prop :=
  ∀ n ∈ [f.amount0, f.amount1, f.share], Numeral.size n.natAbs ≤ Numeral.maxDigits

theorem exists_pool_iff (f : Flow) : (∃ p, f.pool = .ok p) ↔ f.IsWritable := by
  simp only [pool, bind_eq_ok, pure_eq_ok, Amount.write_eq_ok, IsWritable, List.mem_cons,
    List.not_mem_nil, or_false, forall_eq_or_imp, forall_eq]
  constructor
  · rintro ⟨_, _, ⟨h0, -⟩, _, ⟨h1, -⟩, _, ⟨hs, -⟩, -⟩
    exact ⟨h0, h1, hs⟩
  · rintro ⟨h0, h1, hs⟩
    exact ⟨_, _, ⟨h0, rfl⟩, _, ⟨h1, rfl⟩, _, ⟨hs, rfl⟩, rfl⟩

theorem contract_of_pool {f : Flow} {p : Pool} (h : f.pool = .ok p) : p.contract = f.contract := by
  simp only [pool, bind_eq_ok, pure_eq_ok] at h
  obtain ⟨_, -, _, -, _, -, rfl⟩ := h
  rfl

end Flow

/-! ## Flows of rows -/

/-- Whether the amounts of a row can be read. -/
def RecordRow.IsReadable (r : RecordRow) : Prop :=
  Amount.IsReadable r.asset0Amount ∧ Amount.IsReadable r.asset1Amount ∧
    Amount.IsReadable r.shareAmount

instance (r : RecordRow) : Decidable r.IsReadable := inferInstanceAs (Decidable (_ ∧ _ ∧ _))

theorem RecordRow.exists_flow_iff (r : RecordRow) : (∃ f, r.flow = .ok f) ↔ r.IsReadable := by
  simp only [flow, bind_eq_ok, pure_eq_ok]
  constructor
  · rintro ⟨_, n0, h0, n1, h1, ns, hs, -⟩
    exact ⟨⟨n0, h0⟩, ⟨n1, h1⟩, ⟨ns, hs⟩⟩
  · rintro ⟨⟨n0, h0⟩, ⟨n1, h1⟩, ⟨ns, hs⟩⟩
    exact ⟨_, n0, h0, n1, h1, ns, hs, rfl⟩

theorem RecordRow.contract_of_flow {r : RecordRow} {f : Flow} (h : r.flow = .ok f) :
    f.contract = r.contract := by
  simp only [flow, bind_eq_ok, pure_eq_ok] at h
  obtain ⟨_, -, _, -, _, -, rfl⟩ := h
  rfl

namespace Store

variable {s : Store} {chain : String} {first last : Int}

theorem flows_eq_ok {flows : List Flow} :
    s.flows chain first last = .ok flows ↔
      ∃ each, (s.recordsIn chain first last).mapM (·.flow) = .ok each ∧
        Flow.total each = flows := by
  simp only [Store.flows, bind_eq_ok, pure_eq_ok]

theorem impliedPools_eq_ok {pools : List Pool} :
    s.impliedPools chain first last = .ok pools ↔
      (fits first ∧ fits last) ∧ ∃ flows, s.flows chain first last = .ok flows ∧
        flows.mapM (·.pool) = .ok pools := by
  simp only [impliedPools, guard_eq_ok, mapError_eq_ok, bind_eq_ok]
  simp

/-- **The implied pools are those of the contracts that records name, each once.** -/
theorem contracts_impliedPools {pools : List Pool}
    (h : s.impliedPools chain first last = .ok pools) :
    (pools.map (·.contract)).Nodup ∧
      ∀ c, c ∈ pools.map (·.contract) ↔ ∃ r ∈ s.recordsIn chain first last, r.contract = c := by
  obtain ⟨-, flows, hflows, hpools⟩ := impliedPools_eq_ok.1 h
  obtain ⟨each, heach, rfl⟩ := flows_eq_ok.1 hflows
  have hcontracts : pools.map (·.contract) = (Flow.total each).map (·.contract) :=
    map_eq_of_mapM_eq_ok (fun _ _ => Flow.contract_of_pool) hpools
  have hrows : each.map (·.contract) = (s.recordsIn chain first last).map (·.contract) :=
    map_eq_of_mapM_eq_ok (fun _ _ => RecordRow.contract_of_flow) heach
  refine ⟨hcontracts ▸ Flow.nodup_contracts_total each, ?_⟩
  intro c
  rw [hcontracts, Flow.mem_contracts_total, hrows, List.mem_map]

/-- **The pools are told exactly when every row can be read and every sum be written.** -/
theorem exists_impliedPools_iff :
    (∃ pools, s.impliedPools chain first last = .ok pools) ↔
      (fits first ∧ fits last) ∧ (∀ r ∈ s.recordsIn chain first last, r.IsReadable) ∧
        ∀ flows, s.flows chain first last = .ok flows → ∀ f ∈ flows, f.IsWritable := by
  simp only [impliedPools_eq_ok]
  constructor
  · rintro ⟨pools, hfits, flows, hflows, hpools⟩
    refine ⟨hfits, ?_, ?_⟩
    · obtain ⟨each, heach, -⟩ := flows_eq_ok.1 hflows
      intro r hr
      exact r.exists_flow_iff.1 (exists_of_mapM_eq_ok heach hr)
    · intro flows' hflows' f hf
      obtain rfl := Except.ok.inj (hflows.symm.trans hflows')
      exact f.exists_pool_iff.1 (exists_of_mapM_eq_ok hpools hf)
  · rintro ⟨hfits, hrows, hsums⟩
    obtain ⟨each, heach⟩ :=
      exists_mapM_eq_ok fun r hr => RecordRow.exists_flow_iff r |>.2 (hrows r hr)
    have hflows : s.flows chain first last = .ok (Flow.total each) :=
      flows_eq_ok.2 ⟨each, heach, rfl⟩
    obtain ⟨pools, hpools⟩ := exists_mapM_eq_ok fun f hf =>
      (Flow.exists_pool_iff f).2 (hsums _ hflows f hf)
    exact ⟨pools, hfits, _, hflows, hpools⟩

end Store

end PoolLedger
