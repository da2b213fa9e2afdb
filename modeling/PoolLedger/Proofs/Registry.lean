import Mathlib.Data.List.Basic
import PoolLedger.Pair
import PoolLedger.Proofs.Distinct
import PoolLedger.Reading.Transfer

/-!
# Which contracts a registry knows

A registry is looked up by contract, so the pair found has the contract asked for (`get?_eq_some`).
Registering pairs adds their contracts and takes none away (`mem_contracts_insertAll`), and if their
assets have addresses, it keeps those of all pairs so (`HasAssets.insertAll`). A transfer concerns a
pair of the registry (`party_eq_some`).

A registry is known by its contracts, in order, and by what is found under each (`ext_get?`). Of
several pairs with one contract the last one is found, so registering the same pairs again changes
nothing (`insertAll_insertAll`). A contract keeps the place where it was first seen
(`contracts_insertAll`), and the pairs of other contracts stay as they are (`filter_insertAll`).
-/

namespace PoolLedger.Registry

theorem get?_eq_some {r : Registry} {c : String} {p : Pair} (h : r.get? c = some p) :
    p.contract = c ∧ p ∈ r.pairs :=
  ⟨by simpa using List.find?_some h, List.mem_of_find?_eq_some h⟩

theorem get?_contract {r : Registry} {c : String} {p : Pair} (h : r.get? c = some p) :
    r.get? p.contract = some p := by
  rw [(get?_eq_some h).1, h]

theorem get?_eq_none {r : Registry} {c : String} : r.get? c = none ↔ c ∉ r.contracts := by
  simp [get?, contracts, List.find?_eq_none]

theorem mem_contracts_of_get? {r : Registry} {c : String} {p : Pair} (h : r.get? c = some p) :
    p.contract ∈ r.contracts :=
  List.mem_map_of_mem (get?_eq_some h).2

@[simp] theorem mem_contracts_empty (c : String) : c ∉ ({} : Registry).contracts := by
  simp [contracts]

theorem mem_contracts_insert (r : Registry) (p : Pair) (c : String) :
    c ∈ (r.insert p).contracts ↔ c = p.contract ∨ c ∈ r.contracts :=
  mem_map_contract_put p c r.pairs

theorem mem_contracts_insertAll (r : Registry) (ps : List Pair) (c : String) :
    c ∈ (r.insertAll ps).contracts ↔ c ∈ r.contracts ∨ c ∈ ps.map (·.contract) := by
  induction ps generalizing r with
  | nil => simp [insertAll]
  | cons p ps ih =>
    show c ∈ ((r.insert p).insertAll ps).contracts ↔ _
    rw [ih, mem_contracts_insert, List.map_cons, List.mem_cons]
    tauto

theorem mem_contracts_ofList (ps : List Pair) (c : String) :
    c ∈ (ofList ps).contracts ↔ c ∈ ps.map (·.contract) := by
  simp [ofList, mem_contracts_insertAll]

theorem insertAll_append (r : Registry) (ps qs : List Pair) :
    r.insertAll (ps ++ qs) = (r.insertAll ps).insertAll qs :=
  List.foldl_append

theorem ofList_append (ps qs : List Pair) : ofList (ps ++ qs) = (ofList ps).insertAll qs :=
  insertAll_append {} ps qs

/-- Whether the address of neither asset is empty, for every pair of a registry. -/
def HasAssets (r : Registry) : Prop :=
  ∀ p ∈ r.pairs, p.first ≠ "" ∧ p.second ≠ ""

instance (r : Registry) : Decidable r.HasAssets :=
  inferInstanceAs (Decidable (∀ p ∈ r.pairs, _ ∧ _))

theorem mem_put {p q : Pair} {l : List Pair} (h : q ∈ put p l) : q = p ∨ q ∈ l := by
  induction l with
  | nil => exact .inl (List.mem_singleton.1 h)
  | cons first rest ih =>
    unfold put at h
    split at h
    · exact (List.mem_cons.1 h).imp_right (List.mem_cons_of_mem _)
    · rcases List.mem_cons.1 h with rfl | h
      · exact .inr List.mem_cons_self
      · exact (ih h).imp_right (List.mem_cons_of_mem _)

theorem HasAssets.insertAll {r : Registry} {ps : List Pair} (h : r.HasAssets)
    (hps : ∀ p ∈ ps, p.first ≠ "" ∧ p.second ≠ "") : (r.insertAll ps).HasAssets := by
  induction ps generalizing r with
  | nil => exact h
  | cons p ps ih =>
    have hinsert : (r.insert p).HasAssets := fun q hq =>
      (mem_put hq).elim (fun hqp => hqp ▸ hps p List.mem_cons_self) (h q)
    exact ih hinsert fun q hq => hps q (List.mem_cons_of_mem _ hq)

/-! ## Registering again -/

theorem find?_contract_of_mem {p : Pair} {l : List Pair} (hl : (l.map (·.contract)).Nodup)
    (hp : p ∈ l) :
    l.find? (·.contract == p.contract) = some p := by
  induction l with
  | nil => cases hp
  | cons q rest ih =>
    rw [List.map_cons, List.nodup_cons] at hl
    rcases List.mem_cons.1 hp with rfl | hp
    · exact List.find?_cons_of_pos (beq_self_eq_true _)
    · have hne : q.contract ≠ p.contract := fun heq => hl.1 (heq ▸ List.mem_map_of_mem hp)
      rw [List.find?_cons_of_neg (by simpa using hne)]
      exact ih hl.2 hp

theorem find?_put (p : Pair) (c : String) (l : List Pair) :
    (put p l).find? (·.contract == c) =
      if p.contract = c then some p else l.find? (·.contract == c) := by
  induction l with
  | nil => by_cases hc : p.contract = c <;> simp [put, hc]
  | cons q rest ih =>
    by_cases hq : q.contract = p.contract
    · by_cases hc : p.contract = c <;> simp [put, hq, hc]
    · rw [put, if_neg hq]
      by_cases hqc : q.contract = c
      · have hc : p.contract ≠ c := fun hc => hq (hqc.trans hc.symm)
        simp [hqc, hc]
      · rw [List.find?_cons_of_neg (by simpa using hqc),
          List.find?_cons_of_neg (by simpa using hqc), ih]

theorem map_contract_put_of_mem {p : Pair} {l : List Pair} (h : p.contract ∈ l.map (·.contract)) :
    (put p l).map (·.contract) = l.map (·.contract) := by
  induction l with
  | nil => cases h
  | cons q rest ih =>
    by_cases hq : q.contract = p.contract
    · rw [put, if_pos hq, List.map_cons, List.map_cons, hq]
    · have hrest : p.contract ∈ rest.map (·.contract) :=
        (List.mem_cons.1 h).resolve_left fun heq => hq heq.symm
      rw [put, if_neg hq, List.map_cons, List.map_cons, ih hrest]

theorem map_get?_contracts (r : Registry) : r.contracts.map r.get? = r.pairs.map some := by
  rw [contracts, List.map_map]
  exact List.map_congr_left fun p hp => find?_contract_of_mem r.nodup hp

theorem ext_get? {r r' : Registry} (hcontracts : r.contracts = r'.contracts)
    (hget : ∀ c, r.get? c = r'.get? c) : r = r' := by
  have hpairs : r.pairs.map some = r'.pairs.map some := by
    rw [← map_get?_contracts, ← map_get?_contracts, hcontracts, funext hget]
  have heq : r.pairs = r'.pairs := List.map_injective_iff.2 (fun _ _ => Option.some.inj) hpairs
  cases r
  cases r'
  cases heq
  rfl

theorem get?_insert (r : Registry) (p : Pair) (c : String) :
    (r.insert p).get? c = if p.contract = c then some p else r.get? c :=
  find?_put p c r.pairs

/-- What is registered last under a contract is found there. -/
theorem get?_insertAll (r : Registry) (ps : List Pair) (c : String) :
    (r.insertAll ps).get? c = (ps.reverse.find? (·.contract == c)).or (r.get? c) := by
  induction ps generalizing r with
  | nil => rfl
  | cons p ps ih =>
    show ((r.insert p).insertAll ps).get? c = _
    rw [ih, get?_insert, List.reverse_cons, List.find?_append, Option.or_assoc]
    by_cases hc : p.contract = c <;> simp [hc]

theorem contracts_insertAll_of_subset {r : Registry} {ps : List Pair}
    (h : ∀ p ∈ ps, p.contract ∈ r.contracts) : (r.insertAll ps).contracts = r.contracts := by
  induction ps generalizing r with
  | nil => rfl
  | cons p ps ih =>
    have hsame : (r.insert p).contracts = r.contracts :=
      map_contract_put_of_mem (h p List.mem_cons_self)
    show ((r.insert p).insertAll ps).contracts = _
    rw [ih fun q hq => hsame ▸ h q (List.mem_cons_of_mem _ hq), hsame]

/-- **Registering the same pairs again changes nothing.** -/
theorem insertAll_insertAll (r : Registry) (ps : List Pair) :
    (r.insertAll ps).insertAll ps = r.insertAll ps := by
  refine ext_get? (contracts_insertAll_of_subset fun p hp => ?_) fun c => ?_
  · exact (mem_contracts_insertAll r ps p.contract).2 (.inr (List.mem_map_of_mem hp))
  · rw [get?_insertAll, get?_insertAll, ← Option.or_assoc, Option.or_self]

/-! ## Places -/

theorem map_contract_put_of_not_mem {p : Pair} {l : List Pair}
    (h : p.contract ∉ l.map (·.contract)) :
    (put p l).map (·.contract) = l.map (·.contract) ++ [p.contract] := by
  induction l with
  | nil => rfl
  | cons q rest ih =>
    rw [List.map_cons, List.mem_cons, not_or] at h
    rw [put, if_neg (Ne.symm h.1), List.map_cons, List.map_cons, ih h.2, List.cons_append]

theorem filter_put {p : Pair} {keep : Pair → Bool}
    (hkeep : ∀ q : Pair, q.contract = p.contract → keep q = false) (l : List Pair) :
    (put p l).filter keep = l.filter keep := by
  induction l with
  | nil => simp [put, hkeep p rfl]
  | cons q rest ih =>
    by_cases hq : q.contract = p.contract
    · simp [put, hq, hkeep p rfl, hkeep q hq]
    · rw [put, if_neg hq, List.filter_cons, List.filter_cons, ih]

/-- A contract keeps the place where it was first seen. -/
theorem contracts_insertAll (r : Registry) (ps : List Pair) :
    (r.insertAll ps).contracts = (r.contracts ++ ps.map (·.contract)).eraseDups := by
  induction ps generalizing r with
  | nil =>
    rw [List.map_nil, List.append_nil]
    exact (eraseDups_of_nodup r.nodup).symm
  | cons p ps ih =>
    show ((r.insert p).insertAll ps).contracts = _
    rw [ih, List.map_cons]
    by_cases hp : p.contract ∈ r.contracts
    · have hsame : (r.insert p).contracts = r.contracts := map_contract_put_of_mem hp
      rw [hsame, List.eraseDups_append, List.eraseDups_append]
      simp [List.removeAll, hp]
    · have hlast : (r.insert p).contracts = r.contracts ++ [p.contract] :=
        map_contract_put_of_not_mem hp
      rw [hlast, List.append_assoc, List.singleton_append]

theorem filter_insertAll {keep : Pair → Bool} {ps : List Pair}
    (hkeep : ∀ p ∈ ps, ∀ q : Pair, q.contract = p.contract → keep q = false) (r : Registry) :
    (r.insertAll ps).pairs.filter keep = r.pairs.filter keep := by
  induction ps generalizing r with
  | nil => rfl
  | cons p ps ih =>
    show ((r.insert p).insertAll ps).pairs.filter keep = _
    rw [ih (fun q hq => hkeep q (List.mem_cons_of_mem _ hq)), insert,
      filter_put (hkeep p List.mem_cons_self)]

/-! ## Transfers -/

/-- **Exactly one side of a transfer that matters is a pair.** -/
theorem party_eq_some {r : Registry} {sender recipient : String} {p : Party}
    (h : r.party sender recipient = .ok (some p)) :
    r.get? (if p.outflow then sender else recipient) = some p.pair ∧
      r.get? (if p.outflow then recipient else sender) = none := by
  unfold party at h
  split at h
  · cases h
  · cases h; simp_all
  · cases h; simp_all
  · cases h

theorem party_eq_none {r : Registry} {sender recipient : String} (hsender : sender ∉ r.contracts)
    (hrecipient : recipient ∉ r.contracts) : r.party sender recipient = .ok none := by
  rw [party, get?_eq_none.2 hsender, get?_eq_none.2 hrecipient]

theorem party_mem_contracts {r : Registry} {sender recipient : String} {p : Party}
    (h : r.party sender recipient = .ok (some p)) : p.pair.contract ∈ r.contracts :=
  mem_contracts_of_get? (party_eq_some h).1

end PoolLedger.Registry
