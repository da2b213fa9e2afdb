import PoolLedger.Proofs.Origin
import PoolLedger.Proofs.Registry
import PoolLedger.Proofs.Shape

/-!
# Announcements

A factory announces a pair in five attributes that all have a value, the third with the two assets
of the pair (`Announces`). A transaction registers all the pairs that it announces or, if one of its
announcements is malformed, none, and it fails then (`registry_all_or_nothing`). What else it tells,
and whether it fails over that, makes no difference to the registry.

`Registers` says what a registry is after some pairs: a pair is found under its contract as it was
announced last, a contract keeps the place where it was first seen, and the other pairs stay as
they are and in their order.
-/

namespace PoolLedger

/-! ## Names of pairs -/

theorem splitOn_eq_singleton_iff {c : Char} {l a : List Char} :
    l.splitOn c = [a] ↔ l = a ∧ c ∉ l := by
  constructor
  · intro h
    have hc : c ∉ l := by
      intro hc
      obtain ⟨front, behind, rfl, hfront⟩ := List.eq_append_cons_of_mem hc
      rw [List.splitOn_append_cons_self_of_not_mem hfront] at h
      exact List.splitOn_ne_nil c behind (List.cons.inj h).2
    rw [List.splitOn_eq_singleton hc] at h
    exact ⟨(List.cons.inj h).1, hc⟩
  · rintro ⟨rfl, hc⟩
    exact List.splitOn_eq_singleton hc

theorem splitOn_eq_pair_iff {c : Char} {l a b : List Char} :
    l.splitOn c = [a, b] ↔ l = a ++ c :: b ∧ c ∉ a ∧ c ∉ b := by
  constructor
  · intro h
    by_cases hc : c ∈ l
    · obtain ⟨front, behind, rfl, hfront⟩ := List.eq_append_cons_of_mem hc
      rw [List.splitOn_append_cons_self_of_not_mem hfront] at h
      obtain ⟨rfl, hone⟩ := List.cons.inj h
      obtain ⟨rfl, hbehind⟩ := splitOn_eq_singleton_iff.1 hone
      exact ⟨rfl, hfront, hbehind⟩
    · rw [List.splitOn_eq_singleton hc] at h
      cases h
  · rintro ⟨rfl, ha, hb⟩
    rw [List.splitOn_append_cons_self_of_not_mem ha, List.splitOn_eq_singleton hb]

/-- A text consists of two assets, neither of them empty, and a hyphen between them. -/
structure NamesAssets (text first second : String) : Prop where
  text_eq : text = first ++ "-" ++ second
  first_ne : first ≠ ""
  second_ne : second ≠ ""
  not_mem_first : '-' ∉ first.toList
  not_mem_second : '-' ∉ second.toList

theorem assetNames?_eq_some {text first second : String} :
    assetNames? text = some (first, second) ↔ NamesAssets text first second := by
  -- Two pieces mean that exactly one hyphen was there.
  have hsplit : (text.toList.splitOn '-').map String.ofList = [first, second] ↔
      text = first ++ "-" ++ second ∧ '-' ∉ first.toList ∧ '-' ∉ second.toList := by
    have hpieces : (text.toList.splitOn '-').map String.ofList = [first, second] ↔
        text.toList.splitOn '-' = [first.toList, second.toList] := by
      constructor
      · intro h
        simpa [List.map_map, Function.comp_def] using congrArg (List.map String.toList) h
      · intro h
        simp [h]
    rw [hpieces, splitOn_eq_pair_iff, ← String.toList_inj]
    simp
  unfold assetNames?
  constructor
  · intro h
    split at h
    · rename_i a b hab
      split at h
      · cases h
      · rename_i hne
        obtain ⟨rfl, rfl⟩ := Prod.mk.inj (Option.some.inj h)
        obtain ⟨htext, hfirst, hsecond⟩ := hsplit.1 hab
        simp only [Bool.or_eq_true, decide_eq_true_eq, not_or] at hne
        exact ⟨htext, hne.1, hne.2, hfirst, hsecond⟩
    · cases h
  · rintro ⟨htext, hfirst_ne, hsecond_ne, hfirst, hsecond⟩
    rw [hsplit.2 ⟨htext, hfirst, hsecond⟩]
    simp [hfirst_ne, hsecond_ne]

/-! ## Announcements -/

/-- The attributes in which a factory announces a pair. -/
def Announces (attrs : List Attribute) (pair : Pair) : Prop :=
  ∃ factory action names contract share, attrs = [factory, action, names, contract, share] ∧
    (∀ a ∈ attrs, a.value ≠ "") ∧ NamesAssets names.value pair.first pair.second ∧
    contract.value = pair.contract ∧ share.value = pair.share

/-- **An announcement is read exactly if it is one, and gives the pair that it announces.** -/
theorem announces_iff {attrs : List Attribute} {pair : Pair} :
    Announces attrs pair ↔ ∃ r, readCreation 0 attrs = .ok r ∧ r.createdPair = pair := by
  constructor
  · rintro ⟨factory, action, names, contract, share, rfl, hvalues, hnames, hcontract, hshare⟩
    have hshape : checkShape .creation RecordKind.creation.name 5 0
        [factory, action, names, contract, share] = .ok () := checkShape_eq_ok.2 ⟨rfl, hvalues⟩
    refine ⟨{
      kind := .creation, contract := contract.value, share := share.value
      legs := { first := { addr := pair.first }, second := { addr := pair.second } } }, ?_, ?_⟩
    · simp [readCreation, hshape, attributeAt, assetNames?_eq_some.2 hnames, bind,
        Except.bind, pure, Except.pure]
    · simp [Record.createdPair, hcontract, hshare]
  · rintro ⟨r, hread, rfl⟩
    simp only [readCreation, bind_eq_ok] at hread
    obtain ⟨_, hshape, names, hnames, hread⟩ := hread
    obtain ⟨hlength, hvalues⟩ := checkShape_eq_ok.1 hshape
    have hfive : attrs.length = 5 := by omega
    obtain ⟨factory, _, rfl, hfour⟩ := List.length_eq_succ_iff.1 hfive
    obtain ⟨action, _, rfl, hthree⟩ := List.length_eq_succ_iff.1 hfour
    obtain ⟨names', contract, share, rfl⟩ := List.length_eq_three.1 hthree
    obtain rfl : names' = names := by simpa [attributeAt] using hnames
    split at hread
    · cases hread
    · rename_i first second hassets
      simp [attributeAt, bind, Except.bind, pure, Except.pure] at hread
      subst hread
      exact ⟨factory, action, names', contract, share, rfl, hvalues, assetNames?_eq_some.1 hassets,
        rfl, rfl⟩

theorem announces_of_creations {p : Profile} {tx : RawTx} {entries : List Entry}
    {created : List Record} (h : p.creations tx entries = .ok created) :
    List.Forall₂ Announces (p.creationRule.findIn entries) (created.map (·.createdPair)) := by
  rw [List.forall₂_map_right_iff]
  refine (mapM_eq_ok.1 h).imp fun attrs r hr => ?_
  simp only [bind_eq_ok, pure_eq_ok] at hr
  obtain ⟨r', hread, rfl⟩ := hr
  exact announces_iff.2 ⟨r', hread, rfl⟩

theorem creations_of_announces {p : Profile} (tx : RawTx) {entries : List Entry}
    (h : ∀ attrs ∈ p.creationRule.findIn entries, ∃ pair, Announces attrs pair) :
    ∃ created, p.creations tx entries = .ok created := by
  refine exists_mapM_eq_ok fun attrs hattrs => ?_
  obtain ⟨pair, hpair⟩ := h attrs hattrs
  obtain ⟨r, hread, -⟩ := announces_iff.1 hpair
  exact ⟨r.stamped tx, by simp [hread, bind, Except.bind, pure, Except.pure]⟩

/-! ## The registry afterwards -/

namespace Registry

/-- A registry after some pairs were registered in turn. -/
structure Registers (before : Registry) (pairs : List Pair) (after : Registry) : Prop where
  eq_insertAll : after = before.insertAll pairs
  /-- A pair is found under its contract as it was announced last. -/
  get? : ∀ c, after.get? c = (pairs.reverse.find? (·.contract == c)).or (before.get? c)
  /-- New contracts follow the known ones, in the order in which they were first announced. -/
  contracts : after.contracts = (before.contracts ++ pairs.map (·.contract)).eraseDups
  /-- The other pairs stay as they are and in their order. -/
  others : after.pairs.filter (fun q => !(pairs.map (·.contract)).contains q.contract) =
    before.pairs.filter fun q => !(pairs.map (·.contract)).contains q.contract

theorem registers_insertAll (r : Registry) (ps : List Pair) : Registers r ps (r.insertAll ps) where
  eq_insertAll := rfl
  get? := get?_insertAll r ps
  contracts := contracts_insertAll r ps
  others := by
    refine filter_insertAll (fun p hp q hq => ?_) r
    simpa [hq] using ⟨p, hp, rfl⟩

end Registry

namespace Profile

/-- **A transaction registers all the pairs that it announces, or none.** If an announcement is
malformed, it fails and leaves everything as it was; otherwise all pairs are registered in the order
of the log, whether or not it fails later. -/
theorem registry_all_or_nothing (p : Profile) (height : Int) (tx : RawTx) (known : Knowledge) :
    (∃ attrs ∈ p.creationRule.findIn tx.entries, ∀ pair, ¬ Announces attrs pair) ∧
        (∃ e, (p.extract height tx known).1 = .error e) ∧ (p.extract height tx known).2 = known ∨
      ∃ pairs, List.Forall₂ Announces (p.creationRule.findIn tx.entries) pairs ∧
        Registry.Registers known.registry pairs (p.extract height tx known).2.registry := by
  cases hcreations : p.creations tx tx.entries with
  | error e =>
    have hextract : p.extract height tx known = (.error e, known) := by
      rw [extract, hcreations]
    -- Creations are read before anything else, and the first that fails ends it.
    have hmalformed : ∃ attrs ∈ p.creationRule.findIn tx.entries,
        ∀ pair, ¬ Announces attrs pair := by
      by_contra hnone
      obtain ⟨created, hok⟩ := creations_of_announces tx (by simpa using hnone)
      rw [hcreations] at hok
      cases hok
    exact .inl ⟨hmalformed, ⟨e, by rw [hextract]⟩, by rw [hextract]⟩
  | ok created =>
    have hregistry : (p.extract height tx known).2.registry =
        known.registry.insertAll (created.map (·.createdPair)) := by
      rw [extract, hcreations]
      rfl
    refine .inr ⟨_, announces_of_creations hcreations, ?_⟩
    rw [hregistry]
    exact Registry.registers_insertAll _ _

end Profile

end PoolLedger
