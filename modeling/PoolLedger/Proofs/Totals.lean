import Mathlib.Algebra.BigOperators.Group.List.Basic
import Mathlib.Algebra.Ring.Int.Defs
import Mathlib.Data.List.Induction
import PoolLedger.Proofs.Distinct
import PoolLedger.Proofs.Flow
import PoolLedger.Proofs.Sync.Verdict

/-!
# What the rows of a pool add up to

Summing up flows goes from row to row and keeps a table of sums. Here is what comes of it in one go:
the contracts of the rows in the order in which they first occur, and for each of them what its own
rows add up to (`Flow.total_eq`). So the pools that a range of heights implies are those of its rows
(`Store.impliedPools_eq_ok_iff`), provided that they can be told at all (`Store.Tellable`).

`reservesOf` is the sum for the rows of one pool: the moves of either asset, and the shares issued
by provisions less those taken back by withdrawals. No other record has a part in the shares.
-/

namespace PoolLedger

/-! ## Sums of flows -/

/-- The first address that is not empty, or the empty one. -/
def firstAddress (addrs : List String) : String :=
  addrs.foldr Flow.firstName ""

namespace Flow

theorem firstName_assoc (a b c : String) :
    firstName (firstName a b) c = firstName a (firstName b c) := by
  by_cases ha : a = "" <;> simp [firstName, ha]

theorem firstAddress_append (as bs : List String) :
    firstAddress (as ++ bs) = firstName (firstAddress as) (firstAddress bs) := by
  induction as with
  | nil => rfl
  | cons a as ih =>
    show firstName a (firstAddress (as ++ bs)) = _
    rw [ih, ← firstName_assoc]
    rfl

theorem firstName_empty (a : String) : firstName a "" = a := by
  unfold firstName
  split_ifs with h
  · exact h.symm
  · rfl

theorem firstAddress_concat (as : List String) (a : String) :
    firstAddress (as ++ [a]) = firstName (firstAddress as) a := by
  rw [firstAddress_append]
  exact congrArg _ (firstName_empty a)

/-- What the flows of one contract add up to. -/
def sumOf (flows : List Flow) (contract : String) : Flow :=
  let own := flows.filter (·.contract == contract)
  { contract
    asset0 := firstAddress (own.map (·.asset0))
    asset1 := firstAddress (own.map (·.asset1))
    amount0 := (own.map (·.amount0)).sum
    amount1 := (own.map (·.amount1)).sum
    share := (own.map (·.share)).sum }

theorem sumOf_concat (flows : List Flow) (f : Flow) (contract : String) :
    sumOf (flows ++ [f]) contract =
      if contract = f.contract then (sumOf flows contract).add f else sumOf flows contract := by
  split_ifs with h
  · subst h
    simp [sumOf, add, firstAddress_concat]
  · have hne : ¬ f.contract = contract := fun heq => h heq.symm
    simp [sumOf, hne]

theorem sumOf_of_not_mem {flows : List Flow} {contract : String}
    (h : contract ∉ flows.map (·.contract)) :
    sumOf flows contract =
      { contract, asset0 := "", asset1 := "", amount0 := 0, amount1 := 0, share := 0 } := by
  have hnone : flows.filter (·.contract == contract) = [] := by
    rw [List.filter_eq_nil_iff]
    intro f hf heq
    exact h (List.mem_map.2 ⟨f, hf, by simpa using heq⟩)
  simp [sumOf, hnone, firstAddress]

/-- A flow goes into the sum of its contract, or starts one. -/
theorem into_sums {g : String → Flow} (hg : ∀ c, (g c).contract = c) (f : Flow) {cs : List String}
    (h : cs.Nodup) :
    f.into (cs.map g) =
      if f.contract ∈ cs then cs.map fun c => if c = f.contract then (g c).add f else g c
      else cs.map g ++ [f] := by
  induction cs with
  | nil => rfl
  | cons c cs ih =>
    rw [List.nodup_cons] at h
    rw [List.map_cons, into, hg]
    by_cases hc : c = f.contract
    · subst hc
      have hrest : (cs.map fun c => if c = f.contract then (g c).add f else g c) = cs.map g :=
        List.map_congr_left fun c hcs => if_neg fun heq : c = f.contract => h.1 (heq ▸ hcs)
      simp [hrest]
    · rw [if_neg hc, ih h.2]
      have hmem : f.contract ∈ c :: cs ↔ f.contract ∈ cs := by
        simp [List.mem_cons, Ne.symm hc]
      by_cases hf : f.contract ∈ cs <;> simp [hf, hmem, hc]

/-- **The sums are those of each contract**, in the order in which the contracts first occur. -/
theorem total_eq (flows : List Flow) :
    total flows = (flows.map (·.contract)).eraseDups.map (sumOf flows) := by
  induction flows using List.reverseRecOn with
  | nil => rfl
  | append_singleton flows f ih =>
    have hstep : total (flows ++ [f]) = f.into (total flows) := by
      rw [total, List.foldl_append]
      rfl
    rw [hstep, ih, into_sums (fun _ => rfl) f (nodup_eraseDups _), List.map_append,
      List.map_singleton, eraseDups_concat]
    -- The contract has a sum already, or begins one behind the others.
    by_cases h : f.contract ∈ flows.map (·.contract)
    · rw [if_pos (List.mem_eraseDups.2 h), if_pos h]
      exact List.map_congr_left fun c _ => (sumOf_concat flows f c).symm
    · rw [if_neg fun hmem => h (List.mem_eraseDups.1 hmem), if_neg h, List.map_append,
        List.map_singleton]
      have hlast : sumOf (flows ++ [f]) f.contract = f := by
        rw [sumOf_concat, if_pos rfl, sumOf_of_not_mem h]
        simp [add, firstName]
      have hothers : (flows.map (·.contract)).eraseDups.map (sumOf (flows ++ [f])) =
          (flows.map (·.contract)).eraseDups.map (sumOf flows) := by
        refine List.map_congr_left fun c hc => ?_
        have hne : c ≠ f.contract := fun heq => h (heq ▸ List.mem_eraseDups.1 hc)
        rw [sumOf_concat, if_neg hne]
      rw [hlast, hothers]

end Flow

/-! ## Rows -/

namespace Amount

/-- The integer that an amount stands for; it is zero for what is no amount. -/
def value (text : String) : Int :=
  (read text).toOption.getD 0

theorem read_of_isReadable {text : String} (h : IsReadable text) :
    read text = .ok (value text) := by
  obtain ⟨n, hn⟩ := h
  simp [value, hn, Except.toOption]

end Amount

/-- The rows of a contract among others. -/
def rowsOf (rows : List RecordRow) (contract : String) : List RecordRow :=
  rows.filter (·.contract == contract)

theorem rowsOf_append (as bs : List RecordRow) (contract : String) :
    rowsOf (as ++ bs) contract = rowsOf as contract ++ rowsOf bs contract :=
  List.filter_append ..

theorem rowsOf_eq_nil {rows : List RecordRow} {contract : String}
    (h : contract ∉ rows.map (·.contract)) :
    rowsOf rows contract = [] := by
  rw [rowsOf, List.filter_eq_nil_iff]
  intro r hr heq
  exact h (List.mem_map.2 ⟨r, hr, by simpa using heq⟩)

/-- What the rows of one pool add up to: what was moved of either asset, and the shares that
provisions issued less those that withdrawals took back. -/
def reservesOf (rows : List RecordRow) : Reserves where
  first := (rows.map fun r => Amount.value r.asset0Amount).sum
  second := (rows.map fun r => Amount.value r.asset1Amount).sum
  supply :=
    ((rows.filter fun r => r.kind = .provide || r.kind = .firstProvide).map fun r =>
        Amount.value r.shareAmount).sum -
      ((rows.filter fun r => r.kind = .withdraw).map fun r => Amount.value r.shareAmount).sum

namespace Reserves

/-- The reserves of a pool of which nothing is known. -/
def none : Reserves := { first := 0, second := 0, supply := 0 }

def add (a b : Reserves) : Reserves where
  first := a.first + b.first
  second := a.second + b.second
  supply := a.supply + b.supply

/-- Whether the integers are not too long to be written. -/
def IsWritable (r : Reserves) : Prop :=
  ∀ n ∈ [r.first, r.second, r.supply], Numeral.size n.natAbs ≤ Numeral.maxDigits

instance (r : Reserves) : Decidable r.IsWritable :=
  inferInstanceAs (Decidable (∀ n ∈ [r.first, r.second, r.supply], _))

end Reserves

theorem reservesOf_append (as bs : List RecordRow) :
    reservesOf (as ++ bs) = (reservesOf as).add (reservesOf bs) := by
  simp only [reservesOf, Reserves.add, List.map_append, List.filter_append, List.sum_append]
  congr 1
  omega

namespace RecordRow

/-- The flow of a row whose amounts can be read. -/
def flowOf (r : RecordRow) : Flow where
  contract := r.contract
  asset0 := r.asset0
  asset1 := r.asset1
  amount0 := Amount.value r.asset0Amount
  amount1 := Amount.value r.asset1Amount
  share := r.kind.shareSign * Amount.value r.shareAmount

theorem flow_of_isReadable {r : RecordRow} (h : r.IsReadable) : r.flow = .ok r.flowOf := by
  obtain ⟨h0, h1, hshare⟩ := h
  simp [flow, flowOf, Amount.read_of_isReadable h0, Amount.read_of_isReadable h1,
    Amount.read_of_isReadable hshare, bind, Except.bind, pure, Except.pure]

theorem mapM_flow_eq_ok {rows : List RecordRow} {each : List Flow} :
    rows.mapM (·.flow) = .ok each ↔ (∀ r ∈ rows, r.IsReadable) ∧ each = rows.map flowOf := by
  have hmap (h : ∀ r ∈ rows, r.IsReadable) : rows.mapM (·.flow) = .ok (rows.map flowOf) := by
    rw [mapM_eq_ok, List.forall₂_map_right_iff, List.forall₂_same]
    exact fun r hr => flow_of_isReadable (h r hr)
  constructor
  · intro heach
    have hrows : ∀ r ∈ rows, r.IsReadable := fun r hr =>
      r.exists_flow_iff.1 (exists_of_mapM_eq_ok heach hr)
    exact ⟨hrows, Except.ok.inj (heach.symm.trans (hmap hrows))⟩
  · rintro ⟨hrows, rfl⟩
    exact hmap hrows

/-- The shares of flows are those of provisions less those of withdrawals. -/
theorem sum_share (rows : List RecordRow) :
    (rows.map fun r => r.flowOf.share).sum = (reservesOf rows).supply := by
  induction rows with
  | nil => rfl
  | cons r rows ih =>
    simp only [reservesOf] at ih ⊢
    rw [List.map_cons, List.sum_cons, ih, flowOf]
    cases hkind : r.kind <;> simp [hkind, RecordKind.shareSign] <;> omega

end RecordRow

/-! ## Pools -/

namespace Pool

/-- The pool that is told of some reserves. -/
def ofReserves (contract asset0 asset1 : String) (r : Reserves) : Pool where
  contract
  assets := [{ addr := asset0, amount := toString r.first },
    { addr := asset1, amount := toString r.second }]
  supply := toString r.supply

/-- The pool of a contract that rows imply. -/
def ofRows (rows : List RecordRow) (contract : String) : Pool :=
  ofReserves contract (firstAddress ((rowsOf rows contract).map (·.asset0)))
    (firstAddress ((rowsOf rows contract).map (·.asset1))) (reservesOf (rowsOf rows contract))

/-- The pools that rows imply, in the order in which their contracts first occur. -/
def allOfRows (rows : List RecordRow) : List Pool :=
  (rows.map (·.contract)).eraseDups.map (ofRows rows)

end Pool

theorem Flow.pool_eq_ok {f : Flow} {p : Pool} :
    f.pool = .ok p ↔ f.IsWritable ∧
      p = .ofReserves f.contract f.asset0 f.asset1
        { first := f.amount0, second := f.amount1, supply := f.share } := by
  simp only [pool, bind_eq_ok, pure_eq_ok, Amount.write_eq_ok, IsWritable, List.mem_cons,
    List.not_mem_nil, or_false, forall_eq_or_imp, forall_eq]
  constructor
  · rintro ⟨_, ⟨h0, rfl⟩, _, ⟨h1, rfl⟩, _, ⟨hs, rfl⟩, rfl⟩
    exact ⟨⟨h0, h1, hs⟩, rfl⟩
  · rintro ⟨⟨h0, h1, hs⟩, rfl⟩
    exact ⟨_, ⟨h0, rfl⟩, _, ⟨h1, rfl⟩, _, ⟨hs, rfl⟩, rfl⟩

/-- What the flows of the rows of a contract add up to is what its rows do. -/
theorem Flow.sumOf_flowOf (rows : List RecordRow) (contract : String) :
    sumOf (rows.map RecordRow.flowOf) contract = {
      contract
      asset0 := firstAddress ((rowsOf rows contract).map (·.asset0))
      asset1 := firstAddress ((rowsOf rows contract).map (·.asset1))
      amount0 := (reservesOf (rowsOf rows contract)).first
      amount1 := (reservesOf (rowsOf rows contract)).second
      share := (reservesOf (rowsOf rows contract)).supply } := by
  have hown : (rows.map RecordRow.flowOf).filter (·.contract == contract) =
      (rowsOf rows contract).map RecordRow.flowOf := List.filter_map
  rw [sumOf, hown, ← RecordRow.sum_share]
  simp [Function.comp_def, RecordRow.flowOf, reservesOf]

theorem Flow.mapM_pool_eq_ok {rows : List RecordRow} {pools : List Pool} :
    (total (rows.map RecordRow.flowOf)).mapM pool = .ok pools ↔
      (∀ c ∈ rows.map (·.contract), (reservesOf (rowsOf rows c)).IsWritable) ∧
        pools = Pool.allOfRows rows := by
  have hcontracts : (rows.map RecordRow.flowOf).map (·.contract) = rows.map (·.contract) := by
    simp [Function.comp_def, RecordRow.flowOf]
  have hpool (c : String) (p : Pool) : pool (sumOf (rows.map RecordRow.flowOf) c) = .ok p ↔
      (reservesOf (rowsOf rows c)).IsWritable ∧ p = Pool.ofRows rows c := by
    rw [pool_eq_ok, sumOf_flowOf]
    rfl
  rw [total_eq, hcontracts, mapM_eq_ok, List.forall₂_map_left_iff]
  simp only [hpool, Pool.allOfRows, ← List.mem_eraseDups (l := rows.map (·.contract))]
  generalize (rows.map (·.contract)).eraseDups = cs
  induction cs generalizing pools with
  | nil => simp
  | cons c cs ih =>
    rw [List.map_cons, List.forall_mem_cons]
    constructor
    · rintro (_ | ⟨⟨hc, rfl⟩, hcs⟩)
      obtain ⟨hsums, rfl⟩ := ih.1 hcs
      exact ⟨⟨hc, hsums⟩, rfl⟩
    · rintro ⟨⟨hc, hsums⟩, rfl⟩
      exact .cons ⟨hc, rfl⟩ (ih.2 ⟨hsums, rfl⟩)

/-- A contract without rows has sums that can be written. -/
theorem writable_of_mem {rows : List RecordRow}
    (h : ∀ c ∈ rows.map (·.contract), (reservesOf (rowsOf rows c)).IsWritable) (c : String) :
    (reservesOf (rowsOf rows c)).IsWritable := by
  by_cases hc : c ∈ rows.map (·.contract)
  · exact h c hc
  · rw [rowsOf_eq_nil hc]
    decide

namespace Store

/-- Whether the pools that a range of heights implies can be told: both ends fit into a column,
every amount can be read, and no sum is too long to be written. -/
structure Tellable (s : Store) (chain : String) (first last : Int) : Prop where
  fits_first : fits first
  fits_last : fits last
  readable : ∀ r ∈ s.recordsIn chain first last, r.IsReadable
  writable : ∀ contract, (reservesOf (rowsOf (s.recordsIn chain first last) contract)).IsWritable

variable {s : Store} {chain : String} {first last : Int} {pools : List Pool}

/-- **The pools that a range of heights implies are those of its rows**, if they can be told. -/
theorem impliedPools_eq_ok_iff :
    s.impliedPools chain first last = .ok pools ↔
      s.Tellable chain first last ∧ pools = Pool.allOfRows (s.recordsIn chain first last) := by
  rw [impliedPools_eq_ok]
  simp only [flows_eq_ok, RecordRow.mapM_flow_eq_ok]
  constructor
  · rintro ⟨⟨hfirst, hlast⟩, _, ⟨_, ⟨hrows, rfl⟩, rfl⟩, hpools⟩
    obtain ⟨hsums, rfl⟩ := Flow.mapM_pool_eq_ok.1 hpools
    exact ⟨⟨hfirst, hlast, hrows, writable_of_mem hsums⟩, rfl⟩
  · rintro ⟨⟨hfirst, hlast, hrows, hsums⟩, rfl⟩
    exact ⟨⟨hfirst, hlast⟩, _, ⟨_, ⟨hrows, rfl⟩, rfl⟩,
      Flow.mapM_pool_eq_ok.2 ⟨fun c _ => hsums c, rfl⟩⟩

end Store

end PoolLedger
