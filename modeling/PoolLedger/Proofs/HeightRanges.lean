import PoolLedger.Proofs.Coins
import PoolLedger.Proofs.Isolation
import PoolLedger.Proofs.Totals

/-!
# Ranges of heights

**Theorem (`Store.Filled.pools_of_ranges`).** The pools that a range of heights implies are those of
its lower part, followed by the new ones of its upper part, and what they hold is what they hold in
either part together (`IsMerge`). A range can be told if, and only if, its ends fit into a column,
its amounts can be read and its sums are not too long; the longest sum of a range may be longer than
that of either part (`ranges_not_merged`).

This rests on the order of the records. A chain is written height by height, so its records are in
the order of their heights (`Store.InOrder`), also when a block is given up half way and its records
are written by whoever calls next: they lie at the height that the chain is to reach. Hence a range
is its lower part and then its upper part (`recordsIn_eq_append`).
-/

namespace PoolLedger

namespace Store

/-! ## The order of records -/

/-- A store that was empty, or had rows of progress only, before the calls of some chains. -/
inductive Filled : Store → Prop
  | start {s : Store} : s.records = [] → (s.progress.map (·.chain)).Nodup → Filled s
  | step {s s' : Store} {chain : String} {call : StoreCall} :
      Filled s → call.next chain s = .ok s' → Filled s'

/-- The records of every chain are in the order of their heights, and none lies beyond the height
that the chain is to reach next. -/
structure InOrder (s : Store) : Prop where
  once : (s.progress.map (·.chain)).Nodup
  sorted : s.records.Pairwise fun a b => a.chain = b.chain → a.height ≤ b.height
  reached : ∀ r ∈ s.records, ∃ q ∈ s.progress, q.chain = r.chain ∧ r.height ≤ q.height + 1

namespace InOrder

variable {s s' : Store} {chain : String} {height : Int}

theorem congr (h : InOrder s) (hprogress : s'.progress = s.progress)
    (hrecords : s'.records = s.records) :
    InOrder s' where
  once := hprogress ▸ h.once
  sorted := hrecords ▸ h.sorted
  reached := by
    rw [hprogress, hrecords]
    exact h.reached

theorem eq_of_chain (h : InOrder s) {q q' : ProgressRow} (hq : q ∈ s.progress)
    (hq' : q' ∈ s.progress) (hchain : q.chain = q'.chain) : q = q' :=
  List.inj_on_of_nodup_map h.once hq hq' hchain

theorem append_records (h : InOrder s)
    (hnext : ∃ q ∈ s.progress, q.chain = chain ∧ q.height = height - 1) (pairs : List PairRow)
    (records : List Record) :
    InOrder { s with pairs, records := s.records ++ records.map (.ofRecord chain height) } where
  once := h.once
  sorted := by
    have hnew : ∀ r ∈ records.map (RecordRow.ofRecord chain height), r.chain = chain ∧
        r.height = height := by
      intro r hr
      obtain ⟨_, -, rfl⟩ := List.mem_map.1 hr
      exact ⟨rfl, rfl⟩
    refine List.pairwise_append.2 ⟨h.sorted, ?_, ?_⟩
    · exact List.pairwise_of_forall_mem_list fun a ha b hb _ =>
        Int.le_of_eq ((hnew a ha).2.trans (hnew b hb).2.symm)
    · intro a ha b hb hchain
      obtain ⟨q, hq, hqchain, hqheight⟩ := hnext
      -- There is one progress of the chain, so older heights are below the new one.
      obtain ⟨q', hq', hqchain', hle⟩ := h.reached a ha
      obtain rfl : q = q' := h.eq_of_chain hq hq' (by rw [hqchain, hqchain', hchain, (hnew b hb).1])
      rw [(hnew b hb).2]
      omega
  reached := by
    intro r hr
    rcases List.mem_append.1 hr with hr | hr
    · exact h.reached r hr
    · obtain ⟨_, -, rfl⟩ := List.mem_map.1 hr
      obtain ⟨q, hq, hqchain, hqheight⟩ := hnext
      exact ⟨q, hq, hqchain, by show height ≤ _; omega⟩

theorem advance (h : InOrder s) (chain : String) (height : Int) (pools : List PoolRow) :
    InOrder { s with pools, progress := Store.advance chain height s.progress } where
  once := by
    have hsame : (Store.advance chain height s.progress).map (·.chain) =
        s.progress.map (·.chain) := by
      rw [Store.advance, List.map_map]
      refine List.map_congr_left fun q _ => ?_
      show (if _ then _ else _ : ProgressRow).chain = _
      split_ifs <;> rfl
    exact hsame ▸ h.once
  sorted := h.sorted
  reached := by
    intro r hr
    obtain ⟨q, hq, hchain, hle⟩ := h.reached r hr
    refine ⟨_, List.mem_map.2 ⟨q, hq, rfl⟩, ?_, ?_⟩
    · split_ifs <;> exact hchain
    · split_ifs with hadvance
      · show r.height ≤ height + 1
        omega
      · exact hle

theorem syncedHeight (h : InOrder s) (chain : String) : InOrder (s.syncedHeight chain).2 := by
  unfold Store.syncedHeight
  split
  · exact h
  · rename_i hnone
    have hfresh : chain ∉ s.progress.map (·.chain) := by
      intro hmem
      obtain ⟨q, hq, rfl⟩ := List.mem_map.1 hmem
      simp only [height?, Option.map_eq_none_iff, List.find?_eq_none] at hnone
      exact hnone q hq (beq_self_eq_true _)
    refine ⟨?_, h.sorted, ?_⟩
    · rw [List.map_append]
      exact List.concat_eq_append ▸ h.once.concat hfresh
    · intro r hr
      obtain ⟨q, hq, hle⟩ := h.reached r hr
      exact ⟨q, List.mem_append_left _ hq, hle⟩

theorem addTo (h : InOrder s) {addition : StoreAddition} (hadd : addition.addTo chain s = .ok s') :
    InOrder s' := by
  cases addition with
  | exemption contract =>
    rw [StoreAddition.addTo, addExemption] at hadd
    split at hadd
    · cases hadd
    · exact Except.ok.inj hadd ▸ h.congr rfl rfl
  | failure height hash category message stack =>
    rw [StoreAddition.addTo, addFailure] at hadd
    split at hadd
    · exact Except.ok.inj hadd ▸ h.congr rfl rfl
    · cases hadd

/-- What a block that was given up half way leaves lies at the height that the chain is to reach. -/
theorem writePending (h : InOrder s) {records : List Record} {pools : List Pool} {pairs : List Pair}
    (hinsert : s.insert chain height records pools pairs = .error .missingAsset)
    (hwrite : (Pending.ofBlock chain height records pairs).write s = .ok s') : InOrder s' := by
  have hnext : ∃ q ∈ s.progress, q.chain = chain ∧ q.height = height - 1 := by
    by_contra hnone
    have hany : s.progress.any (fun r => r.chain == chain && r.height == height - 1) = false := by
      simpa using hnone
    cases hfits : fits (height - 1) <;>
      simp [insert, hany, hfits, bind, Except.bind, throw, throwThe, MonadExceptOf.throw] at hinsert
  obtain ⟨between, hpairs, hrecords⟩ := bind_eq_ok.1 hwrite
  obtain ⟨rows, -, hbetween⟩ := bind_eq_ok.1 hpairs
  obtain rfl := pure_eq_ok.1 hbetween
  unfold Pending.writeRecords at hrecords
  split at hrecords
  · exact Except.ok.inj hrecords ▸ h.append_records hnext rows records
  · cases hrecords

/-- **No call brings the records out of order.** -/
theorem next (h : InOrder s) {call : StoreCall}
    (hnext : call.next chain s = .ok s') : InOrder s' := by
  cases call with
  | syncedHeight => exact Except.ok.inj hnext ▸ h.syncedHeight chain
  | ask question => exact Except.ok.inj hnext ▸ h
  | commit => exact Except.ok.inj hnext ▸ h
  | add addition => exact h.addTo hnext
  | insert height records pools pairs =>
    cases hinsert : s.insert chain height records pools pairs with
    | ok written =>
      rw [StoreCall.next, hinsert] at hnext
      obtain rfl := Except.ok.inj hnext
      obtain ⟨hbefore, rows, -, rfl⟩ := insert_eq_ok hinsert
      exact (h.append_records hbefore _ records).advance chain height _
    | error e =>
      rw [StoreCall.next, hinsert] at hnext
      cases e with
      | missingAsset => exact h.writePending hinsert hnext
      | _ => exact Except.ok.inj hnext ▸ h

end InOrder

theorem Filled.inOrder {s : Store} (h : Filled s) : InOrder s := by
  induction h with
  | start hrecords hprogress =>
    refine ⟨hprogress, ?_, ?_⟩ <;> rw [hrecords]
    · exact .nil
    · exact nofun
  | step _ hnext ih => exact ih.next hnext

/-! ## Ranges -/

/-- What satisfies one of two conditions, if nothing satisfies the first behind what
satisfies the second. -/
theorem filter_or_of_pairwise {α : Type} {R : α → α → Prop} {p q : α → Bool} {l : List α}
    (hl : l.Pairwise R) (hbehind : ∀ a b, R a b → q a = true → p b = false)
    (hdisjoint : ∀ a, q a = true → p a = false) :
    l.filter (fun a => p a || q a) = l.filter p ++ l.filter q := by
  induction l with
  | nil => rfl
  | cons a l ih =>
    rw [List.pairwise_cons] at hl
    have hrest := ih hl.2
    cases hq : q a with
    | false => cases hp : p a <;> simp [hp, hq, hrest]
    | true =>
      have hnone : l.filter p = [] := List.filter_eq_nil_iff.2 fun b hb => by
        simp [hbehind a b (hl.1 b hb) hq]
      rw [hnone, List.nil_append] at hrest
      simp [hq, hdisjoint a hq, hnone, hrest]

/-- **The records of a range are those of its lower part and then those of its upper part.** -/
theorem InOrder.recordsIn_eq_append {s : Store} (h : InOrder s) (chain : String)
    {first mid last : Int} (hfirst : first ≤ mid) (hlast : mid < last) :
    s.recordsIn chain first last =
      s.recordsIn chain first mid ++ s.recordsIn chain (mid + 1) last := by
  have hsplit (r : RecordRow) : (r.chain == chain && first ≤ r.height && r.height ≤ last) =
      ((r.chain == chain && first ≤ r.height && r.height ≤ mid) ||
        (r.chain == chain && mid + 1 ≤ r.height && r.height ≤ last)) := by
    cases r.chain == chain with
    | false => simp
    | true =>
      rw [Bool.eq_iff_iff]
      simp only [Bool.true_and, Bool.and_eq_true, Bool.or_eq_true, decide_eq_true_eq]
      omega
  simp only [recordsIn, hsplit]
  -- Heights do not decrease, so no record of the lower part follows one of the upper.
  refine filter_or_of_pairwise h.sorted ?_ ?_
  · intro a b hab ha
    simp only [Bool.and_eq_true, beq_iff_eq, decide_eq_true_eq] at ha
    by_contra hb
    simp only [Bool.not_eq_false, Bool.and_eq_true, beq_iff_eq, decide_eq_true_eq] at hb
    have hle := hab (ha.1.1.trans hb.1.1.symm)
    omega
  · intro a ha
    simp only [Bool.and_eq_true, beq_iff_eq, decide_eq_true_eq] at ha
    by_contra hp
    simp only [Bool.not_eq_false, Bool.and_eq_true, beq_iff_eq, decide_eq_true_eq] at hp
    omega

end Store

/-! ## Merging -/

namespace Pool

/-- How much some pools hold under a contract: nothing if it is none of theirs. -/
def HoldAt (pools : List Pool) (contract : String) (r : Reserves) : Prop :=
  match pools.find? (·.contract == contract) with
  | some p => p.Holds r
  | none => r = .none

/-- The address of asset number `i` under a contract: none if it is none of the pools. -/
def addressAt (pools : List Pool) (contract : String) (i : Nat) : String :=
  match pools.find? (·.contract == contract) with
  | some p => (p.assets.map (·.addr)).getD i ""
  | none => ""

/-- Pools are those of two lists together: the contracts of the first list and then the new ones of
the second, what is held in either, and the addresses of the first list unless they are empty. -/
structure IsMerge (a b whole : List Pool) : Prop where
  contracts : whole.map (·.contract) =
    a.map (·.contract) ++ (b.map (·.contract)).filter fun c => !(a.map (·.contract)).contains c
  pools : ∀ p ∈ whole, ∃ r r', HoldAt a p.contract r ∧ HoldAt b p.contract r' ∧
    p = ofReserves p.contract (Flow.firstName (addressAt a p.contract 0) (addressAt b p.contract 0))
      (Flow.firstName (addressAt a p.contract 1) (addressAt b p.contract 1)) (r.add r')

theorem holds_ofReserves {r : Reserves} (h : r.IsWritable) (contract asset0 asset1 : String) :
    (ofReserves contract asset0 asset1 r).Holds r := by
  have hread {n : Int} (hn : n ∈ [r.first, r.second, r.supply]) : Amount.read (toString n) =
      .ok n :=
    Amount.read_of_write (Amount.write_eq_ok.2 ⟨h n hn, rfl⟩)
  exact ⟨_, _, rfl, hread (by simp), hread (by simp), hread (by simp)⟩

theorem contracts_allOfRows (rows : List RecordRow) :
    (allOfRows rows).map (·.contract) = (rows.map (·.contract)).eraseDups := by
  rw [allOfRows, List.map_map]
  exact List.map_id' _

theorem find?_map_contract {g : String → Pool} (hg : ∀ c, (g c).contract = c) (cs : List String)
    (contract : String) :
    (cs.map g).find? (·.contract == contract) = if contract ∈ cs then some (g contract)
      else none := by
  induction cs with
  | nil => rfl
  | cons c cs ih =>
    rw [List.map_cons]
    by_cases hc : c = contract
    · rw [List.find?_cons_of_pos (by simp [hg, hc]), hc, if_pos List.mem_cons_self]
    · rw [List.find?_cons_of_neg (by simpa [hg] using hc), ih]
      simp [Ne.symm hc]

theorem find?_allOfRows (rows : List RecordRow) (contract : String) :
    (allOfRows rows).find? (·.contract == contract) =
      if contract ∈ rows.map (·.contract) then some (ofRows rows contract) else none := by
  rw [allOfRows, find?_map_contract (fun _ => rfl)]
  simp only [List.mem_eraseDups]

theorem holdAt_allOfRows {rows : List RecordRow} {contract : String}
    (h : (reservesOf (rowsOf rows contract)).IsWritable) :
    HoldAt (allOfRows rows) contract (reservesOf (rowsOf rows contract)) := by
  unfold HoldAt
  rw [find?_allOfRows]
  by_cases hc : contract ∈ rows.map (·.contract)
  · rw [if_pos hc]
    exact holds_ofReserves h _ _ _
  · rw [if_neg hc, rowsOf_eq_nil hc]
    rfl

theorem addressAt_allOfRows (rows : List RecordRow) (contract : String) :
    addressAt (allOfRows rows) contract 0 = firstAddress ((rowsOf rows contract).map (·.asset0)) ∧
      addressAt (allOfRows rows) contract 1 =
        firstAddress ((rowsOf rows contract).map (·.asset1)) := by
  unfold addressAt
  rw [find?_allOfRows]
  by_cases hc : contract ∈ rows.map (·.contract)
  · rw [if_pos hc]
    exact ⟨rfl, rfl⟩
  · rw [if_neg hc, rowsOf_eq_nil hc]
    exact ⟨rfl, rfl⟩

/-- **What rows imply is what some of them and the others imply, merged.** -/
theorem isMerge_allOfRows {as bs : List RecordRow} (ha : ∀ c, (reservesOf (rowsOf as c)).IsWritable)
    (hb : ∀ c, (reservesOf (rowsOf bs c)).IsWritable) :
    IsMerge (allOfRows as) (allOfRows bs) (allOfRows (as ++ bs)) where
  contracts := by
    simp only [contracts_allOfRows, List.map_append, List.eraseDups_append, List.removeAll,
      eraseDups_filter]
    congr 1
    refine List.filter_congr fun c _ => ?_
    simp
  pools := by
    intro p hp
    obtain ⟨c, -, rfl⟩ := List.mem_map.1 hp
    refine ⟨_, _, holdAt_allOfRows (ha c), holdAt_allOfRows (hb c), ?_⟩
    obtain ⟨ha0, ha1⟩ := addressAt_allOfRows as c
    obtain ⟨hb0, hb1⟩ := addressAt_allOfRows bs c
    show ofRows (as ++ bs) c = ofReserves c _ _ _
    rw [show (ofRows (as ++ bs) c).contract = c from rfl, ha0, ha1, hb0, hb1, ofRows, rowsOf_append,
      reservesOf_append]
    simp only [List.map_append, Flow.firstAddress_append]

end Pool

namespace Store

/-- **The pools of a range are those of its lower part and of its upper part, merged.** A range can
be told exactly if it is `Tellable`, and its pools hold what their rows add up to. -/
theorem Filled.pools_of_ranges {s : Store} (h : s.Filled) (chain : String) {first mid last : Int}
    (hfirst : first ≤ mid) (hlast : mid < last) :
    (∀ low high, (∃ pools, s.impliedPools chain low high = .ok pools) ↔ s.Tellable chain low high) ∧
      (∀ low high pools, s.impliedPools chain low high = .ok pools → ∀ p ∈ pools,
        p.Holds (reservesOf (rowsOf (s.recordsIn chain low high) p.contract))) ∧
      ∀ a b whole, s.impliedPools chain first mid = .ok a →
        s.impliedPools chain (mid + 1) last = .ok b → s.impliedPools chain first last = .ok whole →
          Pool.IsMerge a b whole := by
  refine ⟨fun low high => ?_, fun low high pools hpools p hp => ?_,
    fun a b whole ha hb hwhole => ?_⟩
  · simp only [impliedPools_eq_ok_iff, exists_and_left, exists_eq, and_true]
  · obtain ⟨htell, rfl⟩ := impliedPools_eq_ok_iff.1 hpools
    obtain ⟨c, -, rfl⟩ := List.mem_map.1 hp
    exact Pool.holds_ofReserves (htell.writable c) _ _ _
  · obtain ⟨htella, rfl⟩ := impliedPools_eq_ok_iff.1 ha
    obtain ⟨htellb, rfl⟩ := impliedPools_eq_ok_iff.1 hb
    obtain ⟨-, rfl⟩ := impliedPools_eq_ok_iff.1 hwhole
    rw [h.inOrder.recordsIn_eq_append chain hfirst hlast]
    exact Pool.isMerge_allOfRows htella.writable htellb.writable

/-- What calls make of a store one after the other. -/
def afterCalls (calls : List (String × StoreCall)) (s : Store) : Except StoreError Store :=
  calls.foldlM (fun s call => call.2.next call.1 s) s

theorem filled_empty : Filled {} :=
  .start rfl List.nodup_nil

theorem Filled.run {calls : List (String × StoreCall)} {s s' : Store} (h : s.Filled)
    (hcalls : s.afterCalls calls = .ok s') : s'.Filled := by
  induction calls generalizing s with
  | nil => exact pure_eq_ok.1 hcalls ▸ h
  | cons call calls ih =>
    rw [afterCalls, List.foldlM_cons] at hcalls
    obtain ⟨between, hcall, hrest⟩ := bind_eq_ok.1 hcalls
    exact ih (h.step hcall) hrest

end Store

/-! A provision, a swap and a withdrawal at three heights, and a pool that is new at the last
one. -/

def tradeOf (kind : RecordKind) (first second shareAmount : String) : Record where
  kind
  contract := "terra1pair"
  legs := {
    first := { addr := "uluna", amount := first }
    second := { addr := "terra1token", amount := second } }
  shareAmount

def tradedCalls : List (String × StoreCall) :=
  [("phoenix-1", .syncedHeight),
    ("phoenix-1", .insert 1 [tradeOf .provide "2000" "2000" "1000"] [] []),
    ("phoenix-1", .insert 2 [tradeOf .swap "-950" "1000" ""] [] []),
    ("phoenix-1", .insert 3 [tradeOf .withdraw "-105" "-300" "100", tradeOf .transfer "" "7" "",
      { kind := .firstProvide, contract := "terra1other", shareAmount := "50" }] [] [])]

def tradedStore : Store :=
  (({} : Store).afterCalls tradedCalls).toOption.getD {}

def tradedPool (first second supply : String) : Pool where
  contract := "terra1pair"
  assets := [{ addr := "uluna", amount := first }, { addr := "terra1token", amount := second }]
  supply

def startedPool : Pool where
  contract := "terra1other"
  assets := [{ addr := "", amount := "0" }, { addr := "", amount := "0" }]
  supply := "50"

theorem traded_pools_merged :
    tradedStore.Filled ∧ (1 : Int) ≤ 1 ∧ (1 : Int) < 3 ∧
      tradedStore.impliedPools "phoenix-1" 1 1 = .ok [tradedPool "2000" "2000" "1000"] ∧
      tradedStore.impliedPools "phoenix-1" (1 + 1) 3 =
        .ok [tradedPool "-1055" "707" "-100", startedPool] ∧
      tradedStore.impliedPools "phoenix-1" 1 3 = .ok [tradedPool "945" "2707" "900", startedPool] ∧
      Pool.IsMerge [tradedPool "2000" "2000" "1000"] [tradedPool "-1055" "707" "-100", startedPool]
        [tradedPool "945" "2707" "900", startedPool] := by
  have hfilled : tradedStore.Filled := Store.filled_empty.run
    (by decide +kernel : ({} : Store).afterCalls tradedCalls = .ok tradedStore)
  have hlow : tradedStore.impliedPools "phoenix-1" 1 1 = .ok [tradedPool "2000" "2000" "1000"] := by
    decide +kernel
  have hhigh : tradedStore.impliedPools "phoenix-1" (1 + 1) 3 =
      .ok [tradedPool "-1055" "707" "-100", startedPool] := by decide +kernel
  have hwhole : tradedStore.impliedPools "phoenix-1" 1 3 =
      .ok [tradedPool "945" "2707" "900", startedPool] := by decide +kernel
  exact ⟨hfilled, by decide, by decide, hlow, hhigh, hwhole,
    (hfilled.pools_of_ranges "phoenix-1" (by decide) (by decide)).2.2 _ _ _ hlow hhigh hwhole⟩

/-! The greatest amount that can be read, moved at two heights. -/

/-- The greatest number of `k` digits, and its double. -/
theorem size_greatest {k : Nat} (hk : 0 < k) :
    Numeral.size (10 ^ k - 1) ≤ k ∧ k < Numeral.size (2 * (10 ^ k - 1)) := by
  have hsize (n : Nat) : Numeral.size n ≤ k ↔ n < 10 ^ k :=
    Nat.length_toDigits_le_iff (by decide) hk
  have hten : 10 ≤ 10 ^ k := Nat.le_self_pow (Nat.ne_of_gt hk) 10
  rw [← Nat.not_le, hsize, hsize]
  omega

@[irreducible]
def greatestAmount : Nat := 10 ^ Numeral.maxDigits - 1

theorem size_greatestAmount : Numeral.size greatestAmount ≤ Numeral.maxDigits ∧
    Numeral.maxDigits < Numeral.size (2 * greatestAmount) := by
  unfold greatestAmount
  exact size_greatest (by decide)

def greatestText : String := toString greatestAmount

theorem read_greatestText : Amount.read greatestText = .ok (greatestAmount : Int) :=
  Amount.read_toString size_greatestAmount.1

def greatestRecord : Record :=
  tradeOf .transfer greatestText "" ""

/-- The rows of the record at some heights. -/
def greatestRows (heights : List Int) : List RecordRow :=
  heights.map fun height => .ofRecord "phoenix-1" height greatestRecord

theorem reservesOf_greatestRows (heights : List Int) : reservesOf (greatestRows heights) =
    { first := (heights.length * greatestAmount : Nat), second := 0, supply := 0 } := by
  have hvalue : Amount.value greatestText = greatestAmount := by
    rw [Amount.value, read_greatestText]
    rfl
  have hnone : Amount.value "" = 0 := rfl
  simp [reservesOf, greatestRows, RecordRow.ofRecord, greatestRecord, tradeOf, List.filter_map,
    Function.comp_def, hvalue, hnone]

theorem rowsOf_greatestRows (heights : List Int) :
    rowsOf (greatestRows heights) "terra1pair" = greatestRows heights :=
  List.filter_eq_self.2 fun r hr => by
    obtain ⟨height, -, rfl⟩ := List.mem_map.1 hr
    rfl

/-- The store after two blocks with the record. -/
def greatestStore : Store where
  records := greatestRows [1, 2]
  progress := [{ chain := "phoenix-1", height := 2 }]

theorem greatestStore_filled : greatestStore.Filled := by
  have hcalls : ({} : Store).afterCalls [("phoenix-1", .syncedHeight),
      ("phoenix-1", .insert 1 [greatestRecord] [] []),
      ("phoenix-1", .insert 2 [greatestRecord] [] [])] =
        .ok greatestStore := rfl
  exact Store.filled_empty.run hcalls

theorem recordsIn_greatestStore :
    greatestStore.recordsIn "phoenix-1" 1 1 = greatestRows [1] ∧
      greatestStore.recordsIn "phoenix-1" 2 2 = greatestRows [2] ∧
      greatestStore.recordsIn "phoenix-1" 1 2 = greatestRows [1, 2] := by
  simp [Store.recordsIn, greatestStore, greatestRows, RecordRow.ofRecord]

theorem isReadable_greatestRows {heights : List Int} :
    ∀ r ∈ greatestRows heights, r.IsReadable := by
  intro r hr
  obtain ⟨height, -, rfl⟩ := List.mem_map.1 hr
  exact ⟨⟨_, read_greatestText⟩, Amount.isReadable_empty, Amount.isReadable_empty⟩

/-- The rows of one height can be told. -/
theorem tellable_of_recordsIn {first last height : Int} (hfirst : Store.fits first)
    (hlast : Store.fits last)
    (h : greatestStore.recordsIn "phoenix-1" first last = greatestRows [height]) :
    greatestStore.Tellable "phoenix-1" first last where
  fits_first := hfirst
  fits_last := hlast
  readable := h ▸ isReadable_greatestRows
  writable := by
    rw [h]
    refine writable_of_mem fun c hc => ?_
    obtain rfl : c = "terra1pair" := List.mem_singleton.1 hc
    rw [rowsOf_greatestRows, reservesOf_greatestRows, List.length_singleton, Nat.one_mul]
    intro n hn
    simp only [List.mem_cons, List.not_mem_nil, or_false] at hn
    rcases hn with rfl | rfl | rfl
    · exact size_greatestAmount.1
    · decide
    · decide

/-- **A range may have a sum that is too long though neither part has.** -/
theorem ranges_not_merged :
    greatestStore.Filled ∧ (∀ r ∈ greatestStore.records, r.IsReadable) ∧
      (∃ a, greatestStore.impliedPools "phoenix-1" 1 1 = .ok a) ∧
      (∃ b, greatestStore.impliedPools "phoenix-1" (1 + 1) 2 = .ok b) ∧
      ∀ whole, greatestStore.impliedPools "phoenix-1" 1 2 ≠ .ok whole := by
  obtain ⟨hlow, hhigh, hwhole⟩ := recordsIn_greatestStore
  refine ⟨greatestStore_filled, isReadable_greatestRows, ?_, ?_, ?_⟩
  · exact ⟨_, Store.impliedPools_eq_ok_iff.2
      ⟨tellable_of_recordsIn (by decide) (by decide) hlow, rfl⟩⟩
  · exact ⟨_, Store.impliedPools_eq_ok_iff.2
      ⟨tellable_of_recordsIn (by decide) (by decide) hhigh, rfl⟩⟩
  · intro whole htold
    have hwritable := (Store.impliedPools_eq_ok_iff.1 htold).1.writable "terra1pair"
    rw [hwhole, rowsOf_greatestRows, reservesOf_greatestRows] at hwritable
    have hsize := hwritable _ List.mem_cons_self
    exact absurd size_greatestAmount.2 (Nat.not_lt.2 hsize)

end PoolLedger
