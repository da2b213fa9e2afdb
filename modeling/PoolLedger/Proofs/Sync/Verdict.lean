import Mathlib.Data.List.Nodup
import PoolLedger.Proofs.Sync.Comparison
import PoolLedger.Proofs.Sync.Stages
import PoolLedger.Proofs.Sync.Validated

/-!
# What validation comes to

**Theorem (`Follower.verdict_of_validate`).** Validation succeeds exactly if the pools that are not
exempt have the same contracts on both sides and every one of them agrees with its counterpart or is
flagged. Then the flagged pairs that disagree are exempt as well, and validating again changes
nothing. If it fails over a pool that is not expected, or over a difference in a pair that is not
flagged, no pair is exempted.

Pools agree if they hold the same `Reserves`. Those that records imply always hold some
(`Store.holds_of_impliedPools`), so comparing them with pools that do cannot fail for another reason
than the ones above (`comparePools_verdict`).

A flagged pair that differs is exempted while the comparison is under way, in a session that is
given up when a later pool fails (`Session.compareInTurn`). That comes to the same as comparing
first (`Follower.validate_eq_inTurn`).
-/

namespace PoolLedger

/-! ## What a pool holds -/

/-- How much a pool has of either asset, and how much of its share token is issued. -/
structure Reserves where
  first : Int
  second : Int
  supply : Int
deriving DecidableEq, Repr

namespace Pool

/-- A pool with two assets whose amounts and share supply are integers. -/
def Holds (p : Pool) (r : Reserves) : Prop :=
  ∃ a b, p.assets = [a, b] ∧ Amount.read a.amount = .ok r.first ∧
    Amount.read b.amount = .ok r.second ∧
    Amount.read p.supply = .ok r.supply

/-- Two pools with the same integers. -/
def Agrees (p q : Pool) : Prop :=
  ∃ r, p.Holds r ∧ q.Holds r

theorem Holds.unique {p : Pool} {r r' : Reserves} (h : p.Holds r) (h' : p.Holds r') : r = r' := by
  obtain ⟨a, b, hassets, hfirst, hsecond, hsupply⟩ := h
  obtain ⟨a', b', hassets', hfirst', hsecond', hsupply'⟩ := h'
  obtain ⟨rfl, rfl⟩ : a = a' ∧ b = b' := by simpa using hassets.symm.trans hassets'
  cases r
  cases r'
  simp_all

theorem Holds.agrees_iff {p q : Pool} {r r' : Reserves} (h : p.Holds r) (h' : q.Holds r') :
    p.Agrees q ↔ r = r' :=
  ⟨fun ⟨_, hp, hq⟩ => (h.unique hp).trans (hq.unique h'), fun heq => ⟨r, h, heq ▸ h'⟩⟩

end Pool

theorem Flow.holds_of_pool {f : Flow} {p : Pool} (h : f.pool = .ok p) :
    p.Holds { first := f.amount0, second := f.amount1, supply := f.share } := by
  simp only [pool, bind_eq_ok, pure_eq_ok] at h
  obtain ⟨amount0, h0, amount1, h1, supply, hs, rfl⟩ := h
  exact ⟨_, _, rfl, Amount.read_of_write h0, Amount.read_of_write h1, Amount.read_of_write hs⟩

theorem Store.holds_of_impliedPools {s : Store} {chain : String} {first last : Int}
    {pools : List Pool} (h : s.impliedPools chain first last = .ok pools) :
    ∀ p ∈ pools, ∃ r, p.Holds r := by
  intro p hp
  obtain ⟨-, flows, -, hpools⟩ := impliedPools_eq_ok.1 h
  obtain ⟨f, -, hf⟩ := exists_of_mem_mapM hpools hp
  exact ⟨_, Flow.holds_of_pool hf⟩

/-! ## Two pools -/

/-- A difference between the two pools of a contract. -/
def PoolMismatch.IsDifferenceIn (contract : String) : PoolMismatch → Prop
  | amount c _ _ _ | supply c _ _ => c = contract
  | _ => False

/-- **Comparing two pools finds nothing if they hold the same**, and otherwise a difference in
them. -/
theorem poolMismatch?_of_holds {actual expected : Pool} {r r' : Reserves} (h : actual.Holds r)
    (h' : expected.Holds r') :
    (r = r' ∧ poolMismatch? actual expected = .ok none) ∨
      (r ≠ r' ∧ ∃ m, poolMismatch? actual expected = .ok (some m) ∧
        m.IsDifferenceIn actual.contract) := by
  obtain ⟨a, b, hassets, hfirst, hsecond, hsupply⟩ := h
  obtain ⟨a', b', hassets', hfirst', hsecond', hsupply'⟩ := h'
  -- Every text can be read, so that only the three comparisons of integers are left.
  have hread {text : String} {n : Int} (h : Amount.read text = .ok n)
      (k : Int → Except SyncError (Option PoolMismatch)) :
      ((Amount.read text).mapError SyncError.reading >>= k) = k n := by
    rw [h]
    rfl
  have hmismatch : poolMismatch? actual expected =
      if r'.first = r.first then
        if r'.second = r.second then
          if r'.supply = r.supply then .ok none
          else .ok (some (.supply actual.contract actual.supply expected.supply))
        else .ok (some (.amount actual.contract b'.addr b.amount b'.amount))
      else .ok (some (.amount actual.contract a'.addr a.amount a'.amount)) := by
    unfold poolMismatch?
    rw [hassets, hassets', assetMismatch?, hread hfirst']
    dsimp only
    rw [hread hfirst]
    split
    · rw [assetMismatch?, hread hsecond']
      dsimp only
      rw [hread hsecond]
      split
      · show ((Amount.read expected.supply).mapError SyncError.reading >>= _) = _
        rw [hread hsupply', hread hsupply]
        rfl
      · rfl
    · rfl
  rw [hmismatch]
  split
  · split
    · split
      · exact .inl ⟨by cases r; cases r'; simp_all, rfl⟩
      · exact .inr ⟨fun heq => by simp_all, _, rfl, rfl⟩
    · exact .inr ⟨fun heq => by simp_all, _, rfl, rfl⟩
  · exact .inr ⟨fun heq => by simp_all, _, rfl, rfl⟩

/-! ## All pools -/

/-- A comparison that has found a difference in one more pool. -/
def Comparison.noting (compared : Comparison) (a : Pool) : Comparison :=
  { compared with differing := a.contract :: compared.differing }

/-- The first pool is looked up, and what its comparison comes to decides how it goes on. -/
theorem comparePools_cons (flags : Flags) (a : Pool) (actual expected : List Pool) :
    comparePools flags (a :: actual) expected =
      match expected.find? (·.contract == a.contract) with
      | none => .error (.mismatch (.unexpected a.contract))
      | some e =>
        let rest := comparePools flags actual (expected.filter (·.contract != a.contract))
        match poolMismatch? a e with
        | .error cause => .error cause
        | .ok none => rest
        | .ok (some m) =>
          if flags.contains a.contract then rest.map (·.noting a) else .error (.mismatch m) := by
  rw [comparePools]
  cases expected.find? (·.contract == a.contract) with
  | none => rfl
  | some e =>
    dsimp only
    rcases poolMismatch? a e with cause | _ | m
    · rfl
    · rfl
    · cases hflagged : flags.contains a.contract with
      | false => rfl
      | true =>
        cases comparePools flags actual (expected.filter (·.contract != a.contract)) with
        | error cause => rfl
        | ok rest => rfl

theorem putPool_of_not_mem {p : Pool} {l : List Pool} (h : p.contract ∉ l.map (·.contract)) :
    putPool p l = l ++ [p] := by
  induction l with
  | nil => rfl
  | cons q rest ih =>
    rw [List.map_cons, List.mem_cons, not_or] at h
    rw [putPool, if_neg (Ne.symm h.1), ih h.2, List.cons_append]

theorem expectedPools_eq {exempt : List String} {expected : List Pool}
    (h : (expected.map (·.contract)).Nodup) :
    expectedPools exempt expected = expected.filter fun p => !exempt.contains p.contract := by
  have hfold (l sums : List Pool) (h : ((sums ++ l).map (·.contract)).Nodup) :
      l.foldl (fun l p => putPool p l) sums = sums ++ l := by
    induction l generalizing sums with
    | nil => exact (List.append_nil sums).symm
    | cons p l ih =>
      have hp : p.contract ∉ sums.map (·.contract) := by
        rw [List.map_append, List.map_cons] at h
        exact fun hmem => (List.nodup_append.1 h).2.2 _ hmem _ List.mem_cons_self rfl
      rw [List.foldl_cons, putPool_of_not_mem hp, ih, List.append_assoc, List.singleton_append]
      rwa [List.append_assoc, List.singleton_append]
  exact hfold _ [] (h.sublist ((List.filter_sublist).map _))

/-- What the comparison of some pools comes to, pool by pool. -/
def Verdict (flags : Flags) (actual expected : List Pool) : Except SyncError Comparison → Prop
  | .ok compared =>
    (∀ a ∈ actual, ∃ e ∈ expected, e.contract = a.contract ∧ (a.Agrees e ∨ a.contract ∈ flags)) ∧
      compared.left = expected.filter (fun e => !(actual.map (·.contract)).contains e.contract) ∧
      compared.differing.Sublist (actual.map (·.contract)) ∧
      ∀ c, c ∈ compared.differing ↔
        ∃ a ∈ actual, ∃ e ∈ expected, a.contract = c ∧ e.contract = c ∧ ¬a.Agrees e
  | .error cause =>
    (∃ a ∈ actual, a.contract ∉ expected.map (·.contract) ∧
      cause = .mismatch (.unexpected a.contract)) ∨
      ∃ a ∈ actual, ∃ e ∈ expected, e.contract = a.contract ∧ ¬a.Agrees e ∧ a.contract ∉ flags ∧
        ∃ m : PoolMismatch, cause = .mismatch m ∧ m.IsDifferenceIn a.contract

section

variable {flags : Flags} {actual expected : List Pool} {a e : Pool}

/-- A failure over the pools that come later is one over all of them. -/
theorem Verdict.cons_error (hfresh : a.contract ∉ actual.map (·.contract)) {cause : SyncError}
    (h : Verdict flags actual (expected.filter (·.contract != a.contract)) (.error cause)) :
    Verdict flags (a :: actual) expected (.error cause) := by
  rcases h with ⟨b, hb, hunexpected, hcause⟩ | ⟨b, hb, e, he, h⟩
  · refine .inl ⟨b, List.mem_cons_of_mem _ hb, ?_, hcause⟩
    intro hmem
    rw [mem_contracts_without] at hunexpected
    exact hunexpected ⟨hmem, fun heq => hfresh (heq ▸ List.mem_map_of_mem hb)⟩
  · exact .inr ⟨b, List.mem_cons_of_mem _ hb, e, (List.mem_filter.1 he).1, h⟩

section

variable (hfresh : a.contract ∉ actual.map (·.contract)) (he : e ∈ expected)
  (hcontract : e.contract = a.contract)
  (hunique : ∀ e' ∈ expected, e'.contract = a.contract → e' = e)
include hfresh he hcontract hunique

/-- If the first pool agrees with its counterpart or is flagged, all depends on those that come
later. -/
theorem Verdict.cons_ok {rest : Comparison} {differing : List String}
    (h : Verdict flags actual (expected.filter (·.contract != a.contract)) (.ok rest))
    (hfirst : (a.Agrees e ∧ differing = rest.differing) ∨
      (¬a.Agrees e ∧ a.contract ∈ flags ∧ differing = a.contract :: rest.differing)) :
    Verdict flags (a :: actual) expected (.ok { rest with differing }) := by
  obtain ⟨haccepted, hleft, hsublist, hdiffering⟩ := h
  -- Nothing changes for the contracts of later pools; that of the first occurs nowhere else.
  have hother {c : String} (hc : c ≠ a.contract) : c ∈ rest.differing ↔
      ∃ b ∈ a :: actual, ∃ e ∈ expected, b.contract = c ∧ e.contract = c ∧ ¬b.Agrees e := by
    rw [hdiffering]
    constructor
    · rintro ⟨b, hb, e, he, h⟩
      exact ⟨b, List.mem_cons_of_mem _ hb, e, (List.mem_filter.1 he).1, h⟩
    · rintro ⟨b, hb, e, he, rfl, h⟩
      rcases List.mem_cons.1 hb with rfl | hb
      · exact absurd rfl hc
      · exact ⟨b, hb, e, List.mem_filter.2 ⟨he, by simpa [h.1] using hc⟩, rfl, h⟩
  have hself : (∃ b ∈ a :: actual, ∃ e ∈ expected,
      b.contract = a.contract ∧ e.contract = a.contract ∧ ¬b.Agrees e) ↔ ¬a.Agrees e := by
    constructor
    · rintro ⟨b, hb, e', he', hb', hcontract', hdiffers⟩
      rcases List.mem_cons.1 hb with rfl | hb
      · exact hunique e' he' hcontract' ▸ hdiffers
      · exact absurd (hb' ▸ List.mem_map_of_mem hb) hfresh
    · exact fun hdiffers => ⟨a, List.mem_cons_self, e, he, rfl, hcontract, hdiffers⟩
  have hfresh' : a.contract ∉ rest.differing := fun hmem => hfresh (hsublist.subset hmem)
  refine ⟨?_, ?_, ?_, ?_⟩
  · intro b hb
    rcases List.mem_cons.1 hb with rfl | hb
    · exact ⟨e, he, hcontract, hfirst.imp And.left fun h => h.2.1⟩
    · obtain ⟨e', he', h⟩ := haccepted b hb
      exact ⟨e', (List.mem_filter.1 he').1, h⟩
  · dsimp only
    rw [hleft, List.filter_filter]
    refine List.filter_congr fun e' _ => ?_
    rw [List.map_cons, List.contains_cons, Bool.not_or, Bool.and_comm]
    rfl
  · rcases hfirst with ⟨-, rfl⟩ | ⟨-, -, rfl⟩
    · exact hsublist.cons _
    · exact hsublist.cons_cons _
  · intro c
    by_cases hc : c = a.contract
    · rw [hc, hself]
      rcases hfirst with ⟨hagrees, rfl⟩ | ⟨hdiffers, -, rfl⟩
      · exact ⟨fun hmem => absurd hmem hfresh', fun hdiffers => absurd hagrees hdiffers⟩
      · exact ⟨fun _ => hdiffers, fun _ => List.mem_cons_self⟩
    · rw [← hother hc]
      rcases hfirst with ⟨-, rfl⟩ | ⟨-, -, rfl⟩
      · exact Iff.rfl
      · exact List.mem_cons.trans (or_iff_right hc)

theorem Verdict.cons_agreeing {outcome : Except SyncError Comparison}
    (h : Verdict flags actual (expected.filter (·.contract != a.contract)) outcome)
    (hagrees : a.Agrees e) :
    Verdict flags (a :: actual) expected outcome := by
  cases outcome with
  | error cause => exact h.cons_error hfresh
  | ok rest => exact h.cons_ok hfresh he hcontract hunique (.inl ⟨hagrees, rfl⟩)

theorem Verdict.cons_flagged {outcome : Except SyncError Comparison}
    (h : Verdict flags actual (expected.filter (·.contract != a.contract)) outcome)
    (hdiffers : ¬a.Agrees e) (hflagged : a.contract ∈ flags) :
    Verdict flags (a :: actual) expected (outcome.map (·.noting a)) := by
  cases outcome with
  | error cause => exact h.cons_error hfresh
  | ok rest => exact h.cons_ok hfresh he hcontract hunique (.inr ⟨hdiffers, hflagged, rfl⟩)

end

/-- **What comparing pools comes to**, if no contract occurs twice on either side and every
pool holds something. -/
theorem comparePools_verdict (hactual : (actual.map (·.contract)).Nodup)
    (hexpected : (expected.map (·.contract)).Nodup) (hholds : ∀ a ∈ actual, ∃ r, a.Holds r)
    (hholds' : ∀ e ∈ expected, ∃ r, e.Holds r) :
    Verdict flags actual expected (comparePools flags actual expected) := by
  -- The counterpart of a pool is taken out, so the later pools meet fewer expected ones.
  induction actual generalizing expected with
  | nil => exact ⟨nofun, by simp, .slnil, by simp⟩
  | cons a actual ih =>
    rw [List.map_cons, List.nodup_cons] at hactual
    rw [comparePools_cons]
    cases hfind : expected.find? (·.contract == a.contract) with
    | none =>
      refine .inl ⟨a, List.mem_cons_self, ?_, rfl⟩
      intro hmem
      obtain ⟨e, he, hcontract⟩ := List.mem_map.1 hmem
      exact List.find?_eq_none.1 hfind e he (by simpa using hcontract)
    | some e =>
      have he : e ∈ expected := List.mem_of_find?_eq_some hfind
      have hcontract : e.contract = a.contract := by simpa using List.find?_some hfind
      have hunique : ∀ e' ∈ expected, e'.contract = a.contract → e' = e := fun e' he' h =>
        List.inj_on_of_nodup_map hexpected he' he (h.trans hcontract.symm)
      have hrest : Verdict flags actual (expected.filter (·.contract != a.contract))
          (comparePools flags actual (expected.filter (·.contract != a.contract))) := by
        apply ih hactual.2 (hexpected.sublist (List.filter_sublist.map _))
        · intro b hb
          exact hholds b (List.mem_cons_of_mem _ hb)
        · intro e' he'
          exact hholds' e' (List.mem_filter.1 he').1
      obtain ⟨r, hr⟩ := hholds a List.mem_cons_self
      obtain ⟨r', hr'⟩ := hholds' e he
      dsimp only
      rcases poolMismatch?_of_holds hr hr' with ⟨hsame, hnone⟩ | ⟨hdiffer, m, hsome, hm⟩
      · rw [hnone]
        exact hrest.cons_agreeing hactual.1 he hcontract hunique ((hr.agrees_iff hr').2 hsame)
      · have hdiffers : ¬a.Agrees e := mt (hr.agrees_iff hr').1 hdiffer
        rw [hsome]
        dsimp only
        split
        · rename_i hflagged
          exact hrest.cons_flagged hactual.1 he hcontract hunique hdiffers
            (List.contains_iff_mem.1 hflagged)
        · rename_i hflagged
          have hnot : a.contract ∉ flags := mt List.contains_iff_mem.2 hflagged
          exact .inr ⟨a, List.mem_cons_self, e, he, hcontract, hdiffers, hnot, m, rfl, hm⟩

end

/-! ## Exempting in turn -/

/-- Compares pools one by one, and exempts a flagged pair that differs before it goes on to the
next. What is left are the expected pools that were not found. -/
def Session.compareInTurn (flags : Flags) (chain : String) :
    List Pool → List Pool → ExceptT SyncError (StateM Session) (List Pool)
  | [], expected => pure expected
  | a :: actual, expected =>
    match expected.find? (·.contract == a.contract) with
    | none => throw (.mismatch (.unexpected a.contract))
    | some e => do
      let expected := expected.filter (·.contract != a.contract)
      match ← liftM (poolMismatch? a e) with
      | none => compareInTurn flags chain actual expected
      | some m =>
        if flags.contains a.contract then
          ExceptT.adapt .store (write (·.addExemption chain a.contract))
          compareInTurn flags chain actual expected
        else throw (.mismatch m)

/-- Validates pools in one session, which is committed once all of them have been compared. -/
def Session.validateInTurn (flags : Flags) (chain : String) (first last : Int)
    (expected : List Pool) :
    ExceptT SyncError (StateM Session) (List Pool) := do
  let actual ← ExceptT.adapt .store (query (·.impliedPools chain first last))
  let exempt ← ExceptT.adapt .store (query fun s => .ok (s.exemptions chain))
  let left ← compareInTurn flags chain (actual.filter fun p => !exempt.contains p.contract)
    (expectedPools exempt expected)
  ExceptT.adapt .store commit
  return left

/-- Validation whose exemptions are written while the comparison is under way, in a session that is
given up if it fails. -/
def Follower.validateInTurn {σ : Type} (f : Follower σ) (first last : Int) (expected : List Pool) :
    Syncing σ Unit := fun w =>
  if expected.isEmpty then (.ok (), w)
  else
    let (outcome, session) :=
      Session.validateInTurn w.flags f.chain first last expected (.on w.store)
    (outcome >>= fun left =>
      if left.isEmpty then .ok ()
      else .error (.mismatch (.missing (sortBy (· ≤ ·) (left.map (·.contract))))),
      { w with store := session.committed })

namespace Session

theorem run_adapt {α : Type} (m : InSession α) (session : Session) :
    (ExceptT.adapt SyncError.store m : ExceptT SyncError (StateM Session) α) session =
      ((m session).1.mapError .store, (m session).2) := by
  show (ExceptT.adapt SyncError.store m).run session = _
  rw [ExceptT.run_adapt]
  rfl

/-- A session that has compared pools in turn: it comes to what comparing them first does, and has
exempted the pairs that differ. -/
def Realizes (chain : String) (session : Session) :
    Except SyncError Comparison → Except SyncError (List Pool) × Session → Prop
  | .error cause, result => ∃ current, result = (.error cause, { session with current })
  | .ok compared, result => ∃ current,
    exemptAll chain compared.differing session.current = .ok current ∧
      result = (.ok compared.left, { session with current })

/-- A pair that is exempted before the rest is compared is exempted first when they all are. -/
theorem Realizes.cons {chain : String} {session : Session} {a : Pool} {store : Store}
    (hadd : session.current.addExemption chain a.contract = .ok store)
    {outcome : Except SyncError Comparison} {result : Except SyncError (List Pool) × Session}
    (h : Realizes chain { session with current := store } outcome result) :
    session.Realizes chain (outcome.map (·.noting a)) result := by
  cases outcome with
  | error cause => exact h
  | ok compared =>
    obtain ⟨current, hall, hresult⟩ := h
    refine ⟨current, ?_, hresult⟩
    show exemptAll chain (a.contract :: compared.differing) session.current = _
    rw [exemptAll, List.foldlM_cons, hadd]
    exact hall

/-- As `comparePools_cons`, with an exemption that is written in between. -/
theorem compareInTurn_cons (flags : Flags) (chain : String) (a : Pool) (actual expected : List Pool)
    (session : Session) :
    compareInTurn flags chain (a :: actual) expected session =
      match expected.find? (·.contract == a.contract) with
      | none => (.error (.mismatch (.unexpected a.contract)), session)
      | some e =>
        let rest := compareInTurn flags chain actual (expected.filter (·.contract != a.contract))
        match poolMismatch? a e with
        | .error cause => (.error cause, session)
        | .ok none => rest session
        | .ok (some m) =>
          if flags.contains a.contract then
            match write (·.addExemption chain a.contract) session with
            | (.error cause, session) => (.error (.store cause), session)
            | (.ok (), session) => rest session
          else (.error (.mismatch m), session) := by
  rw [compareInTurn]
  cases expected.find? (·.contract == a.contract) with
  | none => rfl
  | some e =>
    dsimp only
    rw [run_bind]
    rcases poolMismatch? a e with cause | _ | m
    · rfl
    · rfl
    · cases hflagged : flags.contains a.contract with
      | false => rfl
      | true =>
        -- What is written may fail; its cause is then one of the store.
        show (ExceptT.adapt SyncError.store (write (·.addExemption chain a.contract)) >>= _ :
          ExceptT SyncError (StateM Session) (List Pool)) session = _
        rw [run_bind, run_adapt]
        rcases write (·.addExemption chain a.contract) session with ⟨cause | _, session⟩
        · rfl
        · rfl

/-- **Exempting pairs in turn comes to the same as comparing first**, if none of them
occurs twice or is exempt. -/
theorem realizes_compareInTurn {flags : Flags} {chain : String} {actual expected : List Pool}
    {session : Session} (hsound : session.isBroken = false) (hpending : session.pending = {})
    (hnodup : (actual.map (·.contract)).Nodup)
    (hfresh : ∀ a ∈ actual, a.contract ∉ session.current.exemptions chain) :
    session.Realizes chain (comparePools flags actual expected)
      (compareInTurn flags chain actual expected session) := by
  induction actual generalizing expected session with
  | nil => exact ⟨session.current, rfl, rfl⟩
  | cons a actual ih =>
    rw [List.map_cons, List.nodup_cons] at hnodup
    have hlater : ∀ b ∈ actual, b.contract ∉ session.current.exemptions chain :=
      fun b hb => hfresh b (List.mem_cons_of_mem _ hb)
    rw [comparePools_cons, compareInTurn_cons]
    cases expected.find? (·.contract == a.contract) with
    | none => exact ⟨session.current, rfl⟩
    | some e =>
      dsimp only
      rcases poolMismatch? a e with cause | _ | m
      · exact ⟨session.current, rfl⟩
      · exact ih hsound hpending hnodup.2 hlater
      · by_cases hflagged : flags.contains a.contract
        · -- The exemption is written, and the rest goes on with a store that has it.
          have hadd := Store.addExemption_of_not_mem (hfresh a List.mem_cons_self)
          dsimp only
          rw [if_pos hflagged, if_pos hflagged, write_eq hsound hpending, hadd]
          refine Realizes.cons hadd (ih hsound hpending hnodup.2 ?_)
          intro b hb
          rw [Store.exemptions_exempting, List.mem_append, List.mem_singleton]
          rintro (hmem | heq)
          · exact hlater b hb hmem
          · exact hnodup.1 (heq ▸ List.mem_map_of_mem hb)
        · dsimp only
          rw [if_neg hflagged, if_neg hflagged]
          exact ⟨session.current, rfl⟩

theorem validateInTurn_eq (flags : Flags) (chain : String) (first last : Int) (expected : List Pool)
    (s : Store) :
    validateInTurn flags chain first last expected (on s) =
      match s.impliedPools chain first last with
      | .error cause => (.error (.store cause), on s)
      | .ok actual =>
        let exempt := s.exemptions chain
        match compareInTurn flags chain (actual.filter fun p => !exempt.contains p.contract)
            (expectedPools exempt expected) (on s) with
        | (.error cause, session) => (.error cause, session)
        | (.ok left, session) => match commit session with
          | (.error cause, session) => (.error (.store cause), session)
          | (.ok (), session) => (.ok left, session) := by
  unfold validateInTurn
  rw [run_bind, run_adapt, query_on]
  dsimp only
  cases s.impliedPools chain first last with
  | error cause => rfl
  | ok actual =>
    dsimp only [Except.mapError]
    rw [run_bind, run_adapt, query_on]
    dsimp only [Except.mapError]
    rw [run_bind]
    rcases compareInTurn flags chain _ _ _ with ⟨cause | left, session⟩
    · rfl
    · dsimp only
      rw [run_bind, run_adapt]
      rcases commit session with ⟨cause | _, session⟩
      · rfl
      · rfl

end Session

/-- **Validation leaves what exempting in turn leaves**, also if it fails after some pairs were
exempted. -/
theorem Follower.validate_eq_inTurn {σ : Type} (f : Follower σ) (first last : Int)
    (expected : List Pool) (w : World σ) :
    f.validate first last expected w = f.validateInTurn first last expected w := by
  rw [validate_eq, validateInTurn, Session.validateInTurn_eq]
  split
  · rfl
  · cases hactual : w.store.impliedPools f.chain first last with
    | error cause => rfl
    | ok actual =>
      dsimp only
      -- An exemption fails only if the pair is exempt already, and none of those compared is.
      have hnodup : ((actual.filter fun p =>
          !(w.store.exemptions f.chain).contains p.contract).map (·.contract)).Nodup :=
        (Store.contracts_impliedPools hactual).1.sublist (List.filter_sublist.map _)
      have hfresh : ∀ a ∈ actual.filter fun p => !(w.store.exemptions f.chain).contains p.contract,
          a.contract ∉ w.store.exemptions f.chain := by
        intro a ha
        simpa using (List.mem_filter.1 ha).2
      have hturn : (Session.on w.store).Realizes f.chain _ (Session.compareInTurn w.flags f.chain _
          (expectedPools (w.store.exemptions f.chain) expected) (.on w.store)) :=
        Session.realizes_compareInTurn rfl rfl hnodup hfresh
      cases hcompared : comparePools w.flags
        _ (expectedPools (w.store.exemptions f.chain) expected) with
      | error cause =>
        rw [hcompared] at hturn
        obtain ⟨current, hturn⟩ := hturn
        rw [hturn]
        rfl
      | ok compared =>
        rw [hcompared] at hturn
        obtain ⟨current, hall, hturn⟩ := hturn
        rw [hturn]
        dsimp only
        rw [show exemptAll f.chain compared.differing w.store = .ok current from hall,
          Session.commit_eq rfl rfl]
        rfl

/-! ## What validation comes to -/

/-- The pools of a contract that is not exempt, on either side. -/
structure Paired (exempt : List String) (actual expected : List Pool) (a e : Pool) : Prop where
  actual : a ∈ actual
  expected : e ∈ expected
  contract : e.contract = a.contract
  compared : a.contract ∉ exempt

/-- The contracts that are not exempt are the same on both sides, and their pools
agree or are flagged. -/
structure Acceptable (flags : Flags) (exempt : List String)
    (actual expected : List Pool) : Prop where
  contracts : ∀ c, c ∉ exempt → (c ∈ actual.map (·.contract) ↔ c ∈ expected.map (·.contract))
  pools : ∀ a e, Paired exempt actual expected a e → a.Agrees e ∨ a.contract ∈ flags

/-- Exactly the flagged contracts whose pools differ, each once. -/
structure Excuses (flags : Flags) (exempt : List String) (actual expected : List Pool)
    (differing : List String) : Prop where
  nodup : differing.Nodup
  iff : ∀ c, c ∈ differing ↔
    c ∈ flags ∧ ∃ a e, Paired exempt actual expected a e ∧ a.contract = c ∧ ¬a.Agrees e

/-- A pool that is not expected, or a difference in a pair that is not flagged. -/
def Refutes (flags : Flags) (exempt : List String) (actual expected : List Pool)
    (cause : SyncError) : Prop :=
  (∃ a ∈ actual, a.contract ∉ exempt ∧ a.contract ∉ expected.map (·.contract) ∧
      cause = .mismatch (.unexpected a.contract)) ∨
    ∃ a e, Paired exempt actual expected a e ∧ ¬a.Agrees e ∧ a.contract ∉ flags ∧
      ∃ m : PoolMismatch, cause = .mismatch m ∧ m.IsDifferenceIn a.contract

section

variable {flags : Flags} {exempt : List String} {actual expected : List Pool} {a e : Pool}

theorem mem_filter_exempt {p : Pool} {l : List Pool} :
    p ∈ l.filter (fun p => !exempt.contains p.contract) ↔ p ∈ l ∧ p.contract ∉ exempt := by
  rw [List.mem_filter]
  simp

theorem paired_iff (hexpected : (expected.map (·.contract)).Nodup) :
    Paired exempt actual expected a e ↔ a ∈ actual.filter (fun p => !exempt.contains p.contract) ∧
      e ∈ expectedPools exempt expected ∧ e.contract = a.contract := by
  rw [expectedPools_eq hexpected, mem_filter_exempt, mem_filter_exempt]
  constructor
  · rintro ⟨ha, he, hcontract, hexempt⟩
    exact ⟨⟨ha, hexempt⟩, ⟨he, hcontract ▸ hexempt⟩, hcontract⟩
  · rintro ⟨⟨ha, hexempt⟩, ⟨he, -⟩, hcontract⟩
    exact ⟨ha, he, hcontract, hexempt⟩

namespace Verdict

variable (hexpected : (expected.map (·.contract)).Nodup)
include hexpected

/-- Pools that are compared agree or are flagged if the comparison succeeds. -/
theorem accepted {compared : Comparison}
    (h : Verdict flags (actual.filter fun p => !exempt.contains p.contract)
      (expectedPools exempt expected) (.ok compared))
    (hpair : Paired exempt actual expected a e) : a.Agrees e ∨ a.contract ∈ flags := by
  obtain ⟨ha, -, -⟩ := (paired_iff hexpected).1 hpair
  obtain ⟨e', he', hcontract, haccepted⟩ := h.1 a ha
  have hpair' := (paired_iff hexpected).2 ⟨ha, he', hcontract⟩
  obtain rfl : e' = e := List.inj_on_of_nodup_map hexpected hpair'.expected hpair.expected
    (hcontract.trans hpair.contract.symm)
  exact haccepted

theorem acceptable_iff {compared : Comparison}

    (h : Verdict flags (actual.filter fun p => !exempt.contains p.contract)
      (expectedPools exempt expected) (.ok compared)) :
    Acceptable flags exempt actual expected ↔ compared.left = [] := by
  have hpools : ∀ a e, Paired exempt actual expected a e → a.Agrees e ∨ a.contract ∈ flags :=
    fun a e => h.accepted hexpected
  obtain ⟨haccepted, hleft, -, -⟩ := h
  have hnone : compared.left = [] ↔ ∀ c ∉ exempt, c ∈ expected.map (·.contract) →
      c ∈ actual.map (·.contract) := by
    rw [hleft, List.filter_eq_nil_iff, expectedPools_eq hexpected]
    constructor
    · intro hall c hc hmem
      obtain ⟨e, he, rfl⟩ := List.mem_map.1 hmem
      have hfound := hall e (mem_filter_exempt.2 ⟨he, hc⟩)
      rw [Bool.not_eq_true', Bool.not_eq_false, List.contains_iff_mem,
        mem_contracts_filter] at hfound
      exact hfound.1
    · intro hall e he
      obtain ⟨he, hexempt⟩ := mem_filter_exempt.1 he
      rw [Bool.not_eq_true', Bool.not_eq_false, List.contains_iff_mem, mem_contracts_filter]
      exact ⟨hall _ hexempt (List.mem_map_of_mem he), hexempt⟩
  rw [hnone]
  constructor
  · exact fun hacceptable c hc => (hacceptable.contracts c hc).2
  · intro hall
    refine ⟨fun c hc => ⟨?_, hall c hc⟩, hpools⟩
    intro hmem
    obtain ⟨a, ha, rfl⟩ := List.mem_map.1 hmem
    obtain ⟨e, he, hcontract, -⟩ := haccepted a (mem_filter_exempt.2 ⟨ha, hc⟩)
    exact hcontract ▸ ((mem_contracts_expectedPools _ _ _).1 (List.mem_map_of_mem he)).1

theorem excuses (hactual : (actual.map (·.contract)).Nodup) {compared : Comparison}

    (h : Verdict flags (actual.filter fun p => !exempt.contains p.contract)
      (expectedPools exempt expected) (.ok compared)) :
    Excuses flags exempt actual expected compared.differing := by
  obtain ⟨-, -, hsublist, hdiffering⟩ := id h
  refine ⟨(hactual.sublist (List.filter_sublist.map _)).sublist hsublist, fun c => ?_⟩
  rw [hdiffering]
  constructor
  · rintro ⟨a, ha, e, he, rfl, hcontract, hdiffers⟩
    have hpair := (paired_iff hexpected).2 ⟨ha, he, hcontract⟩
    exact ⟨(h.accepted hexpected hpair).resolve_left hdiffers, a, e, hpair, rfl, hdiffers⟩
  · rintro ⟨-, a, e, hpair, rfl, hdiffers⟩
    obtain ⟨ha, he, hcontract⟩ := (paired_iff hexpected).1 hpair
    exact ⟨a, ha, e, he, rfl, hcontract, hdiffers⟩

theorem refutes {cause : SyncError}

    (h : Verdict flags (actual.filter fun p => !exempt.contains p.contract)
      (expectedPools exempt expected) (.error cause)) :
    Refutes flags exempt actual expected cause ∧ ¬Acceptable flags exempt actual expected := by
  rcases h with ⟨a, ha, hunexpected, rfl⟩ | ⟨a, ha, e, he, hcontract, hdiffers, hflagged, hcause⟩
  · obtain ⟨ha, hexempt⟩ := mem_filter_exempt.1 ha
    have hnot : a.contract ∉ expected.map (·.contract) := fun hmem =>
      hunexpected ((mem_contracts_expectedPools _ _ _).2 ⟨hmem, hexempt⟩)
    exact ⟨.inl ⟨a, ha, hexempt, hnot, rfl⟩, fun hacceptable =>
      hnot ((hacceptable.contracts _ hexempt).1 (List.mem_map_of_mem ha))⟩
  · have hpair := (paired_iff hexpected).2 ⟨ha, he, hcontract⟩
    exact ⟨.inr ⟨a, e, hpair, hdiffers, hflagged, hcause⟩, fun hacceptable =>
      (hacceptable.pools a e hpair).elim hdiffers hflagged⟩

end Verdict

end

namespace Follower

variable {σ : Type} {f : Follower σ} {first last : Int} {expected actual : List Pool} {w : World σ}

/-- Validation that compares two lists of pools either succeeds, or is refuted and leaves everything
as it is, or misses some pools. -/
theorem validate_of_impliedPools (hsome : expected ≠ [])
    (hunique : (expected.map (·.contract)).Nodup) (hlegible : ∀ e ∈ expected, ∃ r, e.Holds r)
    (hactual : w.store.impliedPools f.chain first last = .ok actual) :
    let exempt := w.store.exemptions f.chain
    (∃ cause, f.validate first last expected w = (.error cause, w) ∧
      Refutes w.flags exempt actual expected cause ∧ ¬Acceptable w.flags exempt actual expected) ∨
    ∃ differing missing outcome, f.validate first last expected w =
        (outcome, { w with store := w.store.exempting f.chain differing }) ∧
      Excuses w.flags exempt actual expected differing ∧
      (∀ c, c ∈ missing ↔
        c ∈ expected.map (·.contract) ∧ c ∉ exempt ∧ c ∉ actual.map (·.contract)) ∧
      (Acceptable w.flags exempt actual expected ↔ missing = []) ∧
      outcome = if missing = [] then .ok () else .error (.mismatch (.missing missing)) := by
  intro exempt
  obtain ⟨hnodup, -⟩ := Store.contracts_impliedPools hactual
  -- Both sides are compared without the pairs that are exempt.
  have hverdict : Verdict w.flags (actual.filter fun p => !exempt.contains p.contract)
      (expectedPools exempt expected)
      (comparePools w.flags (actual.filter fun p => !exempt.contains p.contract)
        (expectedPools exempt expected)) := by
    apply comparePools_verdict
    · exact hnodup.sublist (List.filter_sublist.map _)
    · rw [expectedPools_eq hunique]
      exact hunique.sublist (List.filter_sublist.map _)
    · intro a ha
      exact Store.holds_of_impliedPools hactual a (mem_filter_exempt.1 ha).1
    · intro e he
      rw [expectedPools_eq hunique] at he
      exact hlegible e (mem_filter_exempt.1 he).1
  rw [validate_eq, if_neg (by simpa using hsome), hactual]
  dsimp only
  cases hcompared : comparePools w.flags (actual.filter fun p => !exempt.contains p.contract)
      (expectedPools exempt expected) with
  | error cause =>
    rw [hcompared] at hverdict
    obtain ⟨hrefutes, hnot⟩ := hverdict.refutes hunique
    exact .inl ⟨cause, rfl, hrefutes, hnot⟩
  | ok compared =>
    rw [hcompared] at hverdict
    have hexcuses := hverdict.excuses hunique hnodup
    -- No pair that is excused is exempt yet, so all of them can be exempted.
    have hall : exemptAll f.chain compared.differing w.store =
        .ok (w.store.exempting f.chain compared.differing) := by
      refine Store.exemptAll_of_not_mem hexcuses.nodup ?_
      intro c hc
      obtain ⟨-, a, e, hpair, rfl, -⟩ := (hexcuses.iff c).1 hc
      exact hpair.compared
    have hnil : sortBy (· ≤ ·) (compared.left.map (·.contract)) = [] ↔ compared.left = [] := by
      rw [← List.length_eq_zero_iff, (sortBy_perm _ _).length_eq, List.length_map,
        List.length_eq_zero_iff]
    dsimp only
    rw [hall]
    refine .inr ⟨compared.differing, sortBy (· ≤ ·) (compared.left.map (·.contract)), _, rfl,
      hexcuses, ?_, (hverdict.acceptable_iff hunique).trans hnil.symm, ?_⟩
    · intro c
      rw [(sortBy_perm _ _).mem_iff, (comparePools_eq_ok hcompared).1, mem_contracts_expectedPools,
        mem_contracts_filter]
      tauto
    · by_cases hleft : compared.left = []
      · rw [if_pos (List.isEmpty_iff.2 hleft), if_pos (hnil.2 hleft)]
      · rw [if_neg fun hempty => hleft (List.isEmpty_iff.1 hempty), if_neg (hnil.not.2 hleft)]

/-- Once the pairs that are excused are exempt, the pools that are left agree. -/
theorem validate_again (hsome : expected ≠ []) (hunique : (expected.map (·.contract)).Nodup)
    (hlegible : ∀ e ∈ expected, ∃ r, e.Holds r)
    (hactual : w.store.impliedPools f.chain first last = .ok actual)
    (hacceptable : Acceptable w.flags (w.store.exemptions f.chain) actual expected)
    {differing : List String}
    (hexcuses : Excuses w.flags (w.store.exemptions f.chain) actual expected differing)
    {w' : World σ} (hw' : w' = { w with store := w.store.exempting f.chain differing }) :
    f.validate first last expected w' = (.ok (), w') := by
  have hflags : w'.flags = w.flags := by rw [hw']
  have hexempt : w'.store.exemptions f.chain = w.store.exemptions f.chain ++ differing := by
    rw [hw']
    exact w.store.exemptions_exempting f.chain differing
  have hactual' : w'.store.impliedPools f.chain first last = .ok actual := by
    rw [hw']
    exact hactual
  have hacceptable' : Acceptable w'.flags (w'.store.exemptions f.chain) actual expected := by
    rw [hflags, hexempt]
    refine ⟨fun c hc => hacceptable.contracts c (mt (List.mem_append_left _) hc), ?_⟩
    rintro a e ⟨ha, he, hcontract, hnot⟩
    exact hacceptable.pools a e ⟨ha, he, hcontract, mt (List.mem_append_left _) hnot⟩
  rcases validate_of_impliedPools hsome hunique hlegible hactual' with
    ⟨-, -, -, hnot⟩ | ⟨again, missing, outcome, hrun, hexcuses', -, hiff, rfl⟩
  · exact absurd hacceptable' hnot
  · -- A pair that is excused again would have been excused before.
    have hnone : again = [] := by
      refine List.eq_nil_iff_forall_not_mem.2 fun c hc => ?_
      obtain ⟨hflagged, a, e, ⟨ha, he, hcontract, hnot⟩, rfl, hdiffers⟩ := (hexcuses'.iff c).1 hc
      rw [hexempt, List.mem_append, not_or] at hnot
      exact hnot.2 ((hexcuses.iff _).2
        ⟨hflags ▸ hflagged, a, e, ⟨ha, he, hcontract, hnot.1⟩, rfl, hdiffers⟩)
    rw [hrun, if_pos (hiff.1 hacceptable'), hnone]
    simp [Store.exempting]

/-- **What validation comes to.** It succeeds exactly if the pools are acceptable; then the pairs
that are excused are exempt as well, and validating again changes nothing. If a pool is
unexpected or differs without being flagged, everything stays as it is. It comes to the same if
pairs are exempted in turn. -/
theorem verdict_of_validate (hsome : expected ≠ []) (hunique : (expected.map (·.contract)).Nodup)
    (hlegible : ∀ e ∈ expected, ∃ r, e.Holds r)
    (hactual : w.store.impliedPools f.chain first last = .ok actual) :
    let exempt := w.store.exemptions f.chain
    ∃ outcome w', f.validate first last expected w = (outcome, w') ∧
      f.validateInTurn first last expected w = (outcome, w') ∧
      (outcome = .ok () ↔ Acceptable w.flags exempt actual expected) ∧
      (outcome = .ok () → ∃ differing, Excuses w.flags exempt actual expected differing ∧
        w' = { w with store := w.store.exempting f.chain differing } ∧
        w'.store.exemptions f.chain = exempt ++ differing ∧
        f.validate first last expected w' = (.ok (), w')) ∧
      ∀ cause, outcome = .error cause →
        (Refutes w.flags exempt actual expected cause ∧ w' = w) ∨
          ∃ missing differing, cause = .mismatch (.missing missing) ∧ missing ≠ [] ∧
            (∀ c, c ∈ missing ↔
              c ∈ expected.map (·.contract) ∧ c ∉ exempt ∧ c ∉ actual.map (·.contract)) ∧
            Excuses w.flags exempt actual expected differing ∧
            w' = { w with store := w.store.exempting f.chain differing } := by
  intro exempt
  rw [← validate_eq_inTurn]
  -- Either a pool refutes, or at worst pools are missing and the excused are exempted anyway.
  rcases validate_of_impliedPools hsome hunique hlegible hactual with
    ⟨cause, hrun, hrefutes, hnot⟩ | ⟨differing, missing, outcome, hrun, hexcuses, hmissing,
      hiff, rfl⟩
  · refine ⟨_, _, hrun, hrun, ⟨nofun, fun h => absurd h hnot⟩, nofun, ?_⟩
    intro cause' heq
    exact .inl ⟨Except.error.inj heq ▸ hrefutes, rfl⟩
  · refine ⟨_, _, hrun, hrun, ?_⟩
    by_cases hnil : missing = []
    · rw [if_pos hnil]
      have hacceptable := hiff.2 hnil
      refine ⟨⟨fun _ => hacceptable, fun _ => rfl⟩, fun _ => ?_, nofun⟩
      have hexempt := w.store.exemptions_exempting f.chain differing
      refine ⟨differing, hexcuses, rfl, hexempt, ?_⟩
      exact validate_again hsome hunique hlegible hactual hacceptable hexcuses rfl
    · rw [if_neg hnil]
      refine ⟨⟨nofun, fun h => absurd (hiff.1 h) hnil⟩, nofun, fun cause heq => .inr ?_⟩
      exact ⟨missing, differing, (Except.error.inj heq).symm, hnil, hmissing, hexcuses, rfl⟩

end Follower

/-- A pool of Luna and a token. -/
def lunaPool (contract luna token supply : String) : Pool where
  contract
  assets := [{ addr := "uluna", amount := luna }, { addr := "terra1token", amount := token }]
  supply

/-- A provision to such a pool. -/
def lunaProvision (contract : String) : Record where
  kind := .provide
  contract
  legs := ⟨{ addr := "uluna", amount := "10" }, { addr := "terra1token", amount := "20" }⟩
  shareAmount := "14"

/-- Three pools, of which one is exempt and another one flagged. -/
def provisionedWorld : World ScriptedSource where
  source := {}
  store := {
    records := ["terra1pair", "terra1taxed", "terra1old"].map fun contract =>
      .ofRecord carefulFollower.chain 1 (lunaProvision contract)
    exempt := [{ chain := carefulFollower.chain, contract := "terra1old" }] }
  flags := ["terra1taxed"]

/-- What a node tells of them, which took a tax of the flagged one. -/
def taxedPools : List Pool :=
  [lunaPool "terra1pair" "10" "20" "14", lunaPool "terra1taxed" "9" "20" "14"]

/-- The flagged pair is exempted, once. -/
theorem taxed_pair_exempted :
    taxedPools ≠ [] ∧ (taxedPools.map (·.contract)).Nodup ∧ (∀ e ∈ taxedPools, ∃ r, e.Holds r) ∧
      (∃ actual, provisionedWorld.store.impliedPools carefulFollower.chain 0 1 = .ok actual) ∧
      ∃ w', carefulFollower.validate 0 1 taxedPools provisionedWorld = (.ok (), w') ∧
        w'.store.exemptions carefulFollower.chain = ["terra1old", "terra1taxed"] ∧
        carefulFollower.validate 0 1 taxedPools w' = (.ok (), w') := by
  have hsome : taxedPools ≠ [] := by decide
  have hunique : (taxedPools.map (·.contract)).Nodup := by decide
  have hlegible : ∀ e ∈ taxedPools, ∃ r, e.Holds r := by
    intro e he
    rcases List.mem_pair.1 he with rfl | rfl
    · exact ⟨⟨10, 20, 14⟩, _, _, rfl, by decide +kernel, by decide +kernel, by decide +kernel⟩
    · exact ⟨⟨9, 20, 14⟩, _, _, rfl, by decide +kernel, by decide +kernel, by decide +kernel⟩
  have hactual : provisionedWorld.store.impliedPools carefulFollower.chain 0 1 =
      .ok (["terra1pair", "terra1taxed", "terra1old"].map (lunaPool · "10" "20" "14")) := by
    decide +kernel
  refine ⟨hsome, hunique, hlegible, ⟨_, hactual⟩, ?_⟩
  obtain ⟨outcome, w', hrun, -, -, hok, -⟩ :=
    Follower.verdict_of_validate hsome hunique hlegible hactual
  have houtcome : (carefulFollower.validate 0 1 taxedPools provisionedWorld).1 = .ok () := by
    decide +kernel
  have hexempt : (carefulFollower.validate 0 1 taxedPools provisionedWorld).2.store.exemptions
      carefulFollower.chain = ["terra1old", "terra1taxed"] := by decide +kernel
  rw [hrun] at houtcome hexempt
  dsimp only at houtcome hexempt
  obtain ⟨-, -, -, -, hagain⟩ := hok houtcome
  exact ⟨w', by rw [hrun, houtcome], hexempt, hagain⟩

end PoolLedger
