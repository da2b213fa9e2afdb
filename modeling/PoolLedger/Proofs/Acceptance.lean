import Mathlib.Data.List.Nodup
import Mathlib.Data.String.Basic
import PoolLedger.Proofs.Distinct
import PoolLedger.Proofs.Reading
import PoolLedger.Proofs.Registry
import PoolLedger.Proofs.Segments
import PoolLedger.Proofs.Shape

/-!
# Which events of pairs are accepted

An event of a pair opens with its contract and its action. It is *in shape* for an action
(`Layout.IsInShape`) if no key occurs twice, every attribute has a value, the fields of the action
are there, and besides these and the optional keys there are as many attributes as the chain adds
to every event. This is what the checks of `PairReader.accept` come to
(`PairReader.accept_eq_ok_iff`); the number of attributes alone would also let pass events that
lack a field and have something else in its place.

**Sorted layouts.** The contract and the action are read from the first two places, also after
sorting. The keys of the layouts come behind that of the action, so in most events the two stay in
front. A key that the layout does not know, however, can come before them, and then something else
is read for the contract or the action (`Layout.opening`).

`Profile.pairActions_event` has the exact condition under which an event of a registered pair is
accepted, and what becomes of it.
-/

namespace PoolLedger

section

variable {α : Type} [DecidableEq α]

/-- The members that two lists without duplicates share are the same from either side. -/
theorem filter_mem_perm {l m : List α} (hl : l.Nodup) (hm : m.Nodup) :
    (l.filter (· ∈ m)).Perm (m.filter (· ∈ l)) := by
  refine (List.perm_ext_iff_of_nodup (hl.filter _) (hm.filter _)).2 fun a => ?_
  simp [and_comm]

omit [DecidableEq α] in
theorem eq_of_mem_of_length_le_one {l : List α} (h : l.length ≤ 1) {a b : α} (ha : a ∈ l)
    (hb : b ∈ l) :
    a = b := by
  match l, h with
  | [c], _ => rw [List.mem_singleton.1 ha, List.mem_singleton.1 hb]

end

namespace Layout

variable {l : Layout} {action : String} {required : List String} {attrs : List Attribute}

/-! ## The keys of an action -/

/-- The keys that an event may have by its layout: those of the contract and of the action, the
fields of the action, and the optional ones. -/
def keysOf (l : Layout) (action : String) : List String :=
  l.contractKey :: actionKey :: ((l.required? action).getD [] ++ l.optionalOf action)

/-- The attributes with other keys. -/
def strays (l : Layout) (action : String) (attrs : List Attribute) : List Attribute :=
  attrs.filter fun a => a.key ∉ l.keysOf action

/-- The shape of an event with the given action on a chain that adds some attributes to every
event. -/
structure IsInShape (l : Layout) (action : String) (added : Int)
    (attrs : List Attribute) : Prop where
  distinct : (attrs.map (·.key)).Nodup
  valued : ∀ a ∈ attrs, a.value ≠ ""
  complete : ∃ required, l.required? action = some required ∧
    ∀ key ∈ required, key ∈ attrs.map (·.key)
  strays : ((l.strays action attrs).length : Int) = added

/-- The keys of each action are different and do not include the index. In alphabetical order the
fields come behind the action, and the action behind the contract if sub-events are sorted. -/
structure IsOrderly (l : Layout) : Prop where
  distinct : ∀ action ∈ l.fields.map (·.1), (indexKey :: l.keysOf action).Nodup
  behind : ∀ action ∈ l.fields.map (·.1), ∀ key ∈ (l.keysOf action).drop 2, actionKey < key
  front : l.sorted → l.contractKey < actionKey

theorem keysOf_eq (h : l.required? action = some required) :
    l.keysOf action = l.contractKey :: actionKey :: (required ++ l.optionalOf action) := by
  rw [keysOf, h, Option.getD_some]

theorem mem_fields_of_required? (h : l.required? action = some required) :
    action ∈ l.fields.map (·.1) := by
  obtain ⟨before, after, hfields, -⟩ := List.lookup_eq_some_iff.1 h
  rw [hfields]
  simp

theorem IsOrderly.nodup_keysOf (hl : l.IsOrderly) (h : l.required? action = some required) :
    (indexKey :: l.contractKey :: actionKey :: (required ++ l.optionalOf action)).Nodup :=
  keysOf_eq h ▸ hl.distinct action (mem_fields_of_required? h)

theorem IsOrderly.lt_of_mem (hl : l.IsOrderly) (h : l.required? action = some required)
    {key : String} (hkey : key ∈ required ++ l.optionalOf action) : actionKey < key :=
  hl.behind action (mem_fields_of_required? h) key (by rwa [keysOf_eq h])

theorem IsOrderly.expectedLength_eq_ok (hl : l.IsOrderly) (h : l.required? action = some required)
    (present : List String) : l.expectedLength action present =
      .ok (2 + required.length + ((l.optionalOf action).filter present.contains).length) := by
  have hdistinct : (l.optionalOf action).Nodup :=
    (hl.nodup_keysOf h).of_cons.of_cons.of_cons.of_append_right
  rw [expectedLength, h]
  dsimp only
  rw [eraseDups_of_nodup hdistinct]

/-- The number of attributes of an event that has a contract, an action and the
fields of the action. -/
theorem IsOrderly.length_eq (hl : l.IsOrderly) (h : l.required? action = some required)
    (hdistinct : (attrs.map (·.key)).Nodup) (hcontract : l.contractKey ∈ attrs.map (·.key))
    (haction : actionKey ∈ attrs.map (·.key)) (hhas : ∀ key ∈ required, key ∈ attrs.map (·.key)) :
    attrs.length = 2 + required.length +
      ((l.optionalOf action).filter (attrs.map (·.key)).contains).length +
        (l.strays action attrs).length := by
  have hpresent : (attrs.map (·.key)).contains = fun key => decide (key ∈ attrs.map (·.key)) := by
    funext key
    exact List.contains_eq_mem key _
  -- No key repeats, so the known ones can be counted in the layout instead.
  have hknown : (attrs.filter fun a => a.key ∈ l.keysOf action).length =
      2 + required.length + ((l.optionalOf action).filter (attrs.map (·.key)).contains).length := by
    calc (attrs.filter fun a => a.key ∈ l.keysOf action).length
        = ((attrs.map (·.key)).filter (· ∈ l.keysOf action)).length := by
          rw [List.filter_map, List.length_map]
          rfl
      _ = ((l.keysOf action).filter (· ∈ attrs.map (·.key))).length :=
          (filter_mem_perm hdistinct
            (hl.distinct action (mem_fields_of_required? h)).of_cons).length_eq
      _ = _ := by
          rw [keysOf_eq h, List.filter_cons_of_pos (by simpa using hcontract),
            List.filter_cons_of_pos (by simpa using haction), List.filter_append,
            List.filter_eq_self.2 (by simpa using hhas), hpresent]
          simp only [List.length_cons, List.length_append]
          omega
  have hsplit := List.length_eq_length_filter_add (l := attrs) fun a =>
    decide (a.key ∈ l.keysOf action)
  rw [hknown] at hsplit
  rw [hsplit, strays]
  simp only [decide_not]

/-! ## Events in shape -/

theorem IsInShape.of_perm {added : Int} {attrs' : List Attribute} (h : attrs.Perm attrs')
    (hshape : l.IsInShape action added attrs) : l.IsInShape action added attrs' where
  distinct := (h.map _).nodup_iff.1 hshape.distinct
  valued a ha := hshape.valued a (h.mem_iff.2 ha)
  complete := by
    obtain ⟨required, hrequired, hhas⟩ := hshape.complete
    exact ⟨required, hrequired, fun key hkey => (h.map _).mem_iff.1 (hhas key hkey)⟩
  strays := by
    rw [← hshape.strays, Layout.strays, Layout.strays, (h.filter _).length_eq]

/-- **The number of attributes and the presence of the fields decide how many other keys there
are.** -/
theorem IsOrderly.isInShape_iff (hl : l.IsOrderly) {added : Int}
    (hcontract : l.contractKey ∈ attrs.map (·.key)) (haction : actionKey ∈ attrs.map (·.key)) :
    l.IsInShape action added attrs ↔ (attrs.map (·.key)).Nodup ∧ (∀ a ∈ attrs, a.value ≠ "") ∧
      ∃ required n, l.required? action = some required ∧
        l.expectedLength action (attrs.map (·.key)) = .ok n ∧ (attrs.length : Int) = n + added ∧
        ∀ key ∈ required, key ∈ attrs.map (·.key) := by
  constructor
  · rintro ⟨hdistinct, hvalued, ⟨required, hrequired, hhas⟩, hstrays⟩
    refine ⟨hdistinct, hvalued, required, _, hrequired, hl.expectedLength_eq_ok hrequired _,
      ?_, hhas⟩
    have hlen := hl.length_eq hrequired hdistinct hcontract haction hhas
    omega
  · rintro ⟨hdistinct, hvalued, required, n, hrequired, hn, hlen, hhas⟩
    refine ⟨hdistinct, hvalued, ⟨required, hrequired, hhas⟩, ?_⟩
    have hlen' := hl.length_eq hrequired hdistinct hcontract haction hhas
    have hn' := Except.ok.inj ((hl.expectedLength_eq_ok hrequired _).symm.trans hn)
    omega

theorem length_strays (l : Layout) (action : String) (attrs : List Attribute) :
    (l.strays action attrs).length = ((attrs.map (·.key)).filter (· ∉ l.keysOf action)).length := by
  rw [List.filter_map, List.length_map]
  rfl

/-- **Events that list the keys of a layout are in shape**: those of the contract and of the action,
the fields, some of the optional ones, and the index or not. -/
theorem IsOrderly.isInShape_of_perm (hl : l.IsOrderly) (h : l.required? action = some required)
    {chosen index : List String} (hchosen : chosen.Sublist (l.optionalOf action))
    (hindex : index = [] ∨ index = [indexKey]) (hvalued : ∀ a ∈ attrs, a.value ≠ "")

    (hperm : (attrs.map (·.key)).Perm
      (l.contractKey :: actionKey :: (required ++ chosen) ++ index)) :
    l.IsInShape action index.length attrs := by
  have hsublist : (l.contractKey :: actionKey :: (required ++ chosen)).Sublist
      (l.keysOf action) := by
    rw [keysOf_eq h]
    exact ((hchosen.append_left required).cons_cons _).cons_cons _
  have hnodup : (indexKey :: l.keysOf action).Nodup :=
    hl.distinct action (mem_fields_of_required? h)
  have hlisted : (indexKey :: l.contractKey :: actionKey :: (required ++ chosen)).Nodup :=
    hnodup.sublist (hsublist.cons_cons _)
  refine ⟨hperm.nodup_iff.2 ?_, hvalued, ⟨required, h, fun key hkey => ?_⟩, ?_⟩
  · rcases hindex with rfl | rfl
    · rw [List.append_nil]
      exact hlisted.of_cons
    · exact List.perm_append_comm.nodup_iff.1 hlisted
  · exact hperm.mem_iff.2 (List.mem_append_left _ (by simp [hkey]))
  · have hnone : (l.contractKey :: actionKey :: (required ++ chosen)).filter
        (· ∉ l.keysOf action) = [] :=
      List.filter_eq_nil_iff.2 fun key hkey => by simpa using hsublist.subset hkey
    have hall : index.filter (· ∉ l.keysOf action) = index := by
      refine List.filter_eq_self.2 fun key hkey => decide_eq_true ?_
      rcases hindex with rfl | rfl
      · cases hkey
      · rw [List.mem_singleton.1 hkey]
        exact (List.nodup_cons.1 hnodup).1
    rw [length_strays, (hperm.filter _).length_eq, List.filter_append, hnone, hall, List.nil_append]

end Layout

/-! ## What the checks come to -/

namespace PairReader

variable {reader : PairReader} {registry : Registry} {attrs : List Attribute}
  {accepted : PairAction}

theorem acceptAction_eq_ok {contract action : String} :
    reader.acceptAction registry contract action attrs = .ok accepted ↔
      registry.get? contract = some accepted.pair ∧ accepted.action = action ∧
        accepted.fields = attrs.map (fun a => (a.key, a.value)) ∧ (attrs.map (·.key)).Nodup ∧
        (∀ a ∈ attrs, a.value ≠ "") ∧ ∃ required n, reader.layout.required? action = some required ∧
          reader.layout.expectedLength action (attrs.map (·.key)) = .ok n ∧
          (attrs.length : Int) = n + reader.added ∧ ∀ key ∈ required, key ∈ attrs.map (·.key) := by
  have hkeys : Fields.keys (attrs.map fun a => (a.key, a.value)) = attrs.map (·.key) := by
    rw [Fields.keys, List.map_map]
    rfl
  unfold acceptAction
  -- An unknown contract or action is refused before anything else is looked at.
  cases hpair : registry.get? contract with
  | none => simp [throw, throwThe, MonadExceptOf.throw]
  | some pair =>
    cases hrequired : reader.layout.required? action with
    | none => simp [throw, throwThe, MonadExceptOf.throw]
    | some required =>
      simp only [bind_eq_ok, pure_eq_ok, Fields.read_eq_ok_iff, checkShape_eq_ok, checkKeys_eq_ok]
      constructor
      · rintro ⟨_, ⟨hdistinct, rfl⟩, n, hn, -, ⟨hlen, hvalued⟩, -, hhas, rfl⟩
        rw [hkeys] at hn
        exact ⟨rfl, rfl, rfl, hdistinct, hvalued, required, n, rfl, hn, hlen,
          fun key hkey => Fields.has_iff.1 (hhas key hkey)⟩
      · rintro ⟨hpair, rfl, hfields, hdistinct, hvalued, _, n, hrequired, hn, hlen, hhas⟩
        obtain rfl := Option.some.inj hrequired
        obtain rfl := Option.some.inj hpair
        refine ⟨_, ⟨hdistinct, rfl⟩, n, by rwa [hkeys], ⟨⟩, ⟨hlen, hvalued⟩, ⟨⟩,
          fun key hkey => Fields.has_iff.2 (hhas key hkey), ?_⟩
        rw [← hfields]

/-- **The checks let pass what is in shape** for the action that is read from it, where the contract
that is read from it has a pair. -/
theorem accept_eq_ok_iff (hl : reader.layout.IsOrderly)
    (hcontract : reader.layout.contractKey ∈ attrs.map (·.key))
    (haction : actionKey ∈ attrs.map (·.key)) :
    reader.accept registry attrs = .ok accepted ↔ ∃ contract action rest,
      reader.layout.prepare attrs = contract :: action :: rest ∧
        registry.get? contract.value = some accepted.pair ∧ accepted.action = action.value ∧
        reader.layout.IsInShape accepted.action reader.added attrs ∧
        accepted.fields = (reader.layout.prepare attrs).map fun a => (a.key, a.value) := by
  have hperm := reader.layout.prepare_perm attrs
  have hshape : reader.layout.IsInShape accepted.action reader.added attrs ↔
      reader.layout.IsInShape accepted.action reader.added (reader.layout.prepare attrs) :=
    ⟨.of_perm hperm.symm, .of_perm hperm⟩
  rw [hshape, hl.isInShape_iff ((hperm.map _).mem_iff.2 hcontract)
    ((hperm.map _).mem_iff.2 haction)]
  unfold accept
  split
  · rename_i contract action rest hprepare
    rw [acceptAction_eq_ok, hprepare]
    constructor
    · rintro ⟨hpair, haccepted, hfields, hdistinct, hvalued, hchecks⟩
      exact ⟨contract, action, rest, rfl, hpair, haccepted,
        ⟨hdistinct, hvalued, haccepted ▸ hchecks⟩, hfields⟩
    · rintro ⟨_, _, _, heq, hpair, haccepted, ⟨hdistinct, hvalued, hchecks⟩, hfields⟩
      cases heq
      exact ⟨hpair, haccepted, hfields, hdistinct, hvalued, haccepted ▸ hchecks⟩
  · rename_i hshort
    constructor
    · nofun
    · rintro ⟨contract, action, rest, hprepare, -⟩
      exact absurd hprepare (hshort contract action rest)

theorem nodup_of_accept (h : reader.accept registry attrs = .ok accepted) :
    (attrs.map (·.key)).Nodup := by
  unfold accept at h
  split at h
  · rename_i hprepare
    obtain ⟨-, -, -, hdistinct, -⟩ := acceptAction_eq_ok.1 h
    rw [← hprepare] at hdistinct
    exact ((reader.layout.prepare_perm attrs).map _).nodup_iff.1 hdistinct
  · cases h

theorem mem_of_accept (h : reader.accept registry attrs = .ok accepted) {key value : String}
    (hget : accepted.fields.get? key = some value) : ⟨key, value⟩ ∈ attrs := by
  unfold accept at h
  split at h
  · rename_i hprepare
    obtain ⟨-, -, hfields, hdistinct, -⟩ := acceptAction_eq_ok.1 h
    rw [hfields, Fields.get?_eq_some_iff hdistinct, ← hprepare] at hget
    exact (reader.layout.prepare_perm attrs).mem_iff.1 hget
  · cases h

end PairReader

/-! ## What is read for the contract and the action -/

namespace Layout

variable {l : Layout} {contract action : String} {rest : List Attribute}

/-- The contract and the action that are read from an event: its own, unless the event is sorted and
a key comes before them. -/
def opening (l : Layout) (contract action : String) (rest : List Attribute) : String × String :=
  match rest.find? fun a => l.sorted && a.key < actionKey with
  | none => (contract, action)
  | some a => if a.key < l.contractKey then (a.value, contract) else (contract, a.value)

/-- An event has its own contract and action read from it if no other key comes
before that of the action. -/
theorem opening_of_le (h : l.sorted → ∀ a ∈ rest, actionKey ≤ a.key) :
    l.opening contract action rest = (contract, action) := by
  have hnone : rest.find? (fun a => l.sorted && a.key < actionKey) = none := by
    refine List.find?_eq_none.2 fun a ha hlt => ?_
    obtain ⟨hsorted, hlt⟩ := Bool.and_eq_true_iff.1 hlt
    exact String.not_le.2 (of_decide_eq_true hlt) (h hsorted a ha)
  rw [opening, hnone]

/-- The one key that comes before that of the action decides what is read. -/
theorem opening_of_lt (hsorted : l.sorted) {stray : Attribute} (hmem : stray ∈ rest)
    (hlt : stray.key < actionKey) (honly : ∀ a ∈ rest, a.key < actionKey → a = stray) :
    l.opening contract action rest =
      if stray.key < l.contractKey then (stray.value, contract) else (contract, stray.value) := by
  have hfound : rest.find? (fun a => l.sorted && a.key < actionKey) = some stray := by
    cases hfind : rest.find? (fun a => l.sorted && a.key < actionKey) with
    | none => exact absurd (List.find?_eq_none.1 hfind stray hmem) (by simp [hsorted, hlt])
    | some a =>
      have ha := List.find?_some hfind
      simp only [hsorted, Bool.true_and, decide_eq_true_eq] at ha
      rw [honly a (List.mem_of_find?_eq_some hfind) ha]
  rw [opening, hfound]

theorem sortedBefore_of_le {a b : Attribute} (ha : a.key ≤ actionKey) (h : a.key ≤ b.key) :
    sortedBefore a b := by
  refine sortedBefore_iff.2 (.inr ⟨fun heq => ?_, h⟩)
  rw [heq] at ha
  exact absurd ha (by decide)

/-- The two attributes that come first in alphabetical order, up to the action, come
first in a sorted segment. -/
theorem sortBy_eq_of_front {attrs others : List Attribute} {a b : Attribute}
    (hperm : attrs.Perm (a :: b :: others)) (hdistinct : (attrs.map (·.key)).Nodup)
    (hab : a.key ≤ b.key) (hb : b.key ≤ actionKey) (hothers : ∀ c ∈ others, b.key ≤ c.key) :
    sortBy sortedBefore attrs = a :: b :: sortBy sortedBefore others := by
  have hfirst : ∀ c ∈ b :: others, sortedBefore a c := List.forall_mem_cons.2
    ⟨sortedBefore_of_le (hab.trans hb) hab,
      fun c hc => sortedBefore_of_le (hab.trans hb) (hab.trans (hothers c hc))⟩
  have hsecond : ∀ c ∈ others, sortedBefore b c := fun c hc => sortedBefore_of_le hb (hothers c hc)
  rw [sortBy_sortedBefore_of_perm hperm hdistinct, sortBy_cons_of_le hfirst,
    sortBy_cons_of_le hsecond]

/-- **The first two places of an event in its order** hold what is read for its contract and its
action, if at most one other key comes before that of the action. -/
theorem IsOrderly.prepare_eq (hl : l.IsOrderly) (hrest : ∀ a ∈ rest, a.key ≠ l.contractKey)
    (hdistinct : ((⟨l.contractKey, contract⟩ :: ⟨actionKey, action⟩ :: rest : List Attribute).map
      (·.key)).Nodup)
    (hfew : ∀ a ∈ rest, ∀ b ∈ rest, a.key < actionKey → b.key < actionKey → a = b) :
    ∃ a b more, l.prepare (⟨l.contractKey, contract⟩ :: ⟨actionKey, action⟩ :: rest) =
      a :: b :: more ∧
      l.opening contract action rest = (a.value, b.value) := by
  unfold prepare
  split
  · rename_i hsorted
    have hfront : l.contractKey < actionKey := hl.front hsorted
    have hsingle : ∀ b ∈ ⟨actionKey, action⟩ :: rest, b.key ≠ l.contractKey :=
      List.forall_mem_cons.2 ⟨hfront.ne', hrest⟩
    rw [sortSegments_of_single hsingle]
    by_cases hstray : ∃ stray ∈ rest, stray.key < actionKey
    · obtain ⟨stray, hmem, hlt⟩ := hstray
      rw [opening_of_lt hsorted hmem hlt fun a ha ha' => hfew a ha stray hmem ha' hlt]
      -- Everything else comes behind the action.
      have hnodup : rest.Nodup := .of_map _ hdistinct.of_cons.of_cons
      have hothers : ∀ b ∈ ⟨actionKey, action⟩ :: rest.erase stray, actionKey ≤ b.key := by
        refine List.forall_mem_cons.2 ⟨le_rfl, fun b hb => ?_⟩
        obtain ⟨hne, hb⟩ := hnodup.mem_erase_iff.1 hb
        exact not_lt.1 fun hb' => hne (hfew b hb stray hmem hb' hlt)
      have hperm : (⟨actionKey, action⟩ :: rest).Perm
          (stray :: ⟨actionKey, action⟩ :: rest.erase stray) :=
        ((List.perm_cons_erase hmem).cons _).trans (.swap _ _ _)
      by_cases hbefore : stray.key < l.contractKey
      · rw [if_pos hbefore,
          sortBy_eq_of_front ((hperm.cons _).trans (.swap _ _ _)) hdistinct hbefore.le
          hfront.le fun c hc => hfront.le.trans (hothers c hc)]
        exact ⟨_, _, _, rfl, rfl⟩
      · rw [if_neg hbefore, sortBy_eq_of_front (hperm.cons _) hdistinct (not_lt.1 hbefore) hlt.le
          fun c hc => hlt.le.trans (hothers c hc)]
        exact ⟨_, _, _, rfl, rfl⟩
    · have hbehind : ∀ b ∈ rest, actionKey ≤ b.key :=
        fun b hb => not_lt.1 fun hlt => hstray ⟨b, hb, hlt⟩
      rw [opening_of_le fun _ => hbehind,
        sortBy_eq_of_front (.refl _) hdistinct hfront.le le_rfl hbehind]
      exact ⟨_, _, _, rfl, rfl⟩
  · rename_i hsorted
    exact ⟨_, _, rest, rfl, opening_of_le fun h => absurd h hsorted⟩

end Layout

/-! ## The layouts of the deployments -/

namespace Deployment

theorem pairLayout_mem (d : Deployment) (height : Int) : d.pairLayout height ∈
    [.pair, .plainPair, .taxedPair, Layout.pair.unordered, Layout.refundingPair.unordered] := by
  cases d with
  | phoenix | columbusFour | columbusFive => simp [pairLayout]
  | dezswap network | starfleit network =>
    simp only [pairLayout]
    split <;> simp

theorem contractKey_pairLayout (d : Deployment) (height : Int) :
    (d.pairLayout height).contractKey = d.contractKey := by
  cases d with
  | phoenix | columbusFour | columbusFive => rfl
  | dezswap network | starfleit network =>
    simp only [pairLayout]
    split <;> rfl

theorem isOrderly_pairLayout (d : Deployment) (height : Int) : (d.pairLayout height).IsOrderly := by
  have hlayouts : ∀ l ∈ [.pair, .plainPair, .taxedPair, Layout.pair.unordered,
      Layout.refundingPair.unordered],
      (∀ action ∈ l.fields.map (·.1), (indexKey :: l.keysOf action).Nodup) ∧
        (∀ action ∈ l.fields.map (·.1), ∀ key ∈ (l.keysOf action).drop 2, actionKey < key) ∧
        (l.sorted → l.contractKey < actionKey) := by decide
  obtain ⟨hdistinct, hbehind, hfront⟩ := hlayouts _ (d.pairLayout_mem height)
  exact ⟨hdistinct, hbehind, hfront⟩

end Deployment

/-! ## Events of registered pairs -/

/-- The keys that a chain adds to every event at a height. -/
def Deployment.addedKeys (d : Deployment) (height : Int) : List String :=
  if d.added height = 1 then [indexKey] else []

theorem Deployment.addedKeys_eq (d : Deployment) (height : Int) :
    (d.addedKeys height = [] ∨ d.addedKeys height = [indexKey]) ∧
      ((d.addedKeys height).length : Int) = d.added height := by
  rcases d.added_eq height with h | h
  · rw [addedKeys, h]
    exact ⟨.inl rfl, rfl⟩
  · rw [addedKeys, h]
    exact ⟨.inr rfl, rfl⟩

/-- An event of a registered pair: it opens with the contract of the pair and an action, and the key
of the contract does not occur again. -/
structure PairEvent (p : Profile) (registry : Registry) where
  pair : Pair
  action : String
  /-- The attributes behind the contract and the action. -/
  rest : List Attribute
  registered : registry.get? pair.contract = some pair
  handled : action ∈ Action.ofPair
  whole : ∀ a ∈ rest, a.key ≠ p.deployment.contractKey

namespace PairEvent

variable {p : Profile} {registry : Registry} {height : Int}

def attributes (e : PairEvent p registry) : List Attribute :=
  ⟨p.deployment.contractKey, e.pair.contract⟩ :: ⟨actionKey, e.action⟩ :: e.rest

/-- The contract and the action that are read from the event. -/
def opening (e : PairEvent p registry) (height : Int) : String × String :=
  (p.deployment.pairLayout height).opening e.pair.contract e.action e.rest

/-- The event is in shape for an action. -/
def IsInShape (e : PairEvent p registry) (height : Int) (action : String) : Prop :=
  (p.deployment.pairLayout height).IsInShape action (p.deployment.added height) e.attributes

/-- Sorting leaves the contract and the action of the event in front, if it is sorted and the chain
adds attributes at all. -/
def KeepsFront (e : PairEvent p registry) (height : Int) : Prop :=
  (p.deployment.pairLayout height).sorted → p.deployment.added height = 1 →
    ∀ a ∈ e.rest, actionKey ≤ a.key

/-- Behind the contract and the action there are the fields of the action, some of the optional
ones, and an index if the chain adds one, in any order. -/
structure IsListed (e : PairEvent p registry) (height : Int) : Prop where
  valued : ∀ a ∈ e.attributes, a.value ≠ ""
  listed : ∃ required chosen, (p.deployment.pairLayout height).required? e.action = some required ∧
    chosen.Sublist ((p.deployment.pairLayout height).optionalOf e.action) ∧
    (e.rest.map (·.key)).Perm (required ++ chosen ++ p.deployment.addedKeys height)

variable (e : PairEvent p registry)

theorem isContractEvent :
    IsContractEvent p.deployment.contractKey e.pair.contract e.action e.attributes :=
  ⟨e.rest, rfl, e.whole⟩

theorem find_attributes : (p.pairRule registry.contracts).find e.attributes = [e.attributes] := by
  rw [Rule.find_contractEvent (Profile.isOfContracts_pairRule p _) e.isContractEvent]
  refine if_pos (e.isContractEvent.fits_iff.2 ⟨?_, ?_⟩)
  · exact List.contains_iff_mem.2 (Registry.mem_contracts_of_get? e.registered)
  · exact List.contains_iff_mem.2 e.handled

theorem exists_of_mem_find {attrs m : List Attribute}
    (h : m ∈ (p.pairRule registry.contracts).find attrs) :
    ∃ e : PairEvent p registry, e.attributes = m := by
  have htail := Rule.key_ne_of_mem_find (Profile.isOfContracts_pairRule p _) h
  have hfits := (Rule.mem_find h).1
  have hlen : 2 ≤ m.length := Rule.length_le_of_fits hfits
  match m, hlen with
  | a :: b :: rest, _ =>
    simp only [Profile.pairRule, Rule.pairAction, Rule.fits, RuleItem.accepts, Filter.accepts,
      Bool.and_eq_true, beq_iff_eq, List.contains_iff_mem, Bool.and_true] at hfits
    obtain ⟨⟨hkey, hmem⟩, hkey', haction⟩ := hfits
    cases hpair : registry.get? a.value with
    | none => exact absurd hmem (Registry.get?_eq_none.1 hpair)
    | some pair =>
      have hcontract : pair.contract = a.value := (Registry.get?_eq_some hpair).1
      refine ⟨⟨pair, b.value, rest, hcontract ▸ hpair, haction, fun c hc =>
        htail c (List.mem_cons_of_mem _ hc)⟩, ?_⟩
      simp only [attributes, hcontract, ← hkey, ← hkey']

/-- Among the keys that come before that of the action, the layout knows the key of the contract
only. -/
theorem mem_strays {action : String} {required : List String}
    (h : (p.deployment.pairLayout height).required? action = some required) {a : Attribute}
    (ha : a ∈ e.rest) (hlt : a.key < actionKey) :
    a ∈ (p.deployment.pairLayout height).strays action e.attributes := by
  refine List.mem_filter.2 ⟨List.mem_cons_of_mem _ (List.mem_cons_of_mem _ ha), decide_eq_true ?_⟩
  rw [Layout.keysOf_eq h, List.mem_cons, List.mem_cons, not_or, not_or,
    Deployment.contractKey_pairLayout]
  exact ⟨e.whole a ha, hlt.ne, fun hmem =>
    hlt.not_gt ((p.deployment.isOrderly_pairLayout height).lt_of_mem h hmem)⟩

/-- In shape, at most one key besides that of the contract comes before that of the action. -/
theorem eq_of_isInShape {action : String} (h : e.IsInShape height action) {a b : Attribute}
    (ha : a ∈ e.rest) (hb : b ∈ e.rest) (ha' : a.key < actionKey)
    (hb' : b.key < actionKey) : a = b := by
  obtain ⟨required, hrequired, -⟩ := h.complete
  have hle : ((p.deployment.pairLayout height).strays action e.attributes).length ≤ 1 := by
    have hlen := h.strays
    rcases p.deployment.added_eq height with hadded | hadded <;> omega
  exact eq_of_mem_of_length_le_one hle (e.mem_strays hrequired ha ha')
    (e.mem_strays hrequired hb hb')

/-- **An event is accepted if what is read for its contract is registered and it is in shape** for
what is read for its action. -/
theorem accept_eq_ok_iff {accepted : PairAction} :
    (p.pairReader height).accept registry e.attributes = .ok accepted ↔
      registry.get? (e.opening height).1 = some accepted.pair ∧
      accepted.action = (e.opening height).2 ∧
        e.IsInShape height (e.opening height).2 ∧
        accepted.fields = ((p.deployment.pairLayout height).prepare e.attributes).map
          fun a => (a.key, a.value) := by
  have hl := p.deployment.isOrderly_pairLayout height
  have hkey := p.deployment.contractKey_pairLayout height
  have hattributes : e.attributes =
      ⟨(p.deployment.pairLayout height).contractKey, e.pair.contract⟩ ::
      ⟨actionKey, e.action⟩ :: e.rest := by
    rw [hkey]
    rfl
  have hfront (action : String) (h : e.IsInShape height action) : ∃ a b more,
      (p.deployment.pairLayout height).prepare e.attributes = a :: b :: more ∧
        e.opening height = (a.value, b.value) := by
    have hdistinct := h.distinct
    rw [hattributes] at hdistinct ⊢
    exact hl.prepare_eq (hkey ▸ e.whole) hdistinct fun a ha b hb => e.eq_of_isInShape h ha hb
  have hcontract : (p.deployment.pairLayout height).contractKey ∈ e.attributes.map (·.key) := by
    rw [hkey]
    exact List.mem_cons_self
  refine (PairReader.accept_eq_ok_iff hl hcontract
    (List.mem_cons_of_mem _ List.mem_cons_self)).trans ?_
  constructor
  · rintro ⟨contract, action, rest, hprepare, hpair, haction, hshape, hfields⟩
    obtain ⟨a, b, more, hprepare', hopening⟩ := hfront _ hshape
    cases hprepare.symm.trans hprepare'
    rw [hopening]
    exact ⟨hpair, haction, haction ▸ hshape, hfields⟩
  · rintro ⟨hpair, haction, hshape, hfields⟩
    obtain ⟨a, b, more, hprepare, hopening⟩ := hfront _ hshape
    rw [hopening] at hpair haction hshape
    exact ⟨a, b, more, hprepare, hpair, haction, haction ▸ hshape, hfields⟩

variable {e}

/-- Where sorting leaves the contract and the action in front, an event in shape is read as what it
is. -/
theorem opening_of_isInShape (hkeeps : e.KeepsFront height) {action : String}
    (h : e.IsInShape height action) :
    e.opening height = (e.pair.contract, e.action) := by
  refine Layout.opening_of_le fun hsorted a ha => ?_
  rcases p.deployment.added_eq height with hadded | hadded
  · -- The chain adds nothing, so there is no other key.
    refine not_lt.1 fun hlt => ?_
    obtain ⟨required, hrequired, -⟩ := h.complete
    have hlen := h.strays
    rw [hadded] at hlen
    have hnone := List.eq_nil_of_length_eq_zero (Int.ofNat_eq_zero.1 hlen)
    exact List.not_mem_nil (hnone ▸ e.mem_strays hrequired ha hlt)
  · exact hkeeps hsorted hadded a ha

/-- Events that list the keys of their layout are in shape, and sorting leaves the contract
and the action in front. -/
theorem IsListed.isInShape (h : e.IsListed height) :
    e.KeepsFront height ∧ e.IsInShape height e.action := by
  obtain ⟨hvalued, required, chosen, hrequired, hchosen, hperm⟩ := h
  have hl := p.deployment.isOrderly_pairLayout height
  obtain ⟨hindex, hlen⟩ := p.deployment.addedKeys_eq height
  constructor
  · intro _ _ a ha
    rcases List.mem_append.1 (hperm.mem_iff.1 (List.mem_map_of_mem ha)) with hkey | hkey
    · exact (hl.lt_of_mem hrequired ((hchosen.append_left required).subset hkey)).le
    · have hkey : a.key = indexKey := by
        rcases hindex with h | h <;> rw [h] at hkey
        · cases hkey
        · exact List.mem_singleton.1 hkey
      rw [hkey]
      decide
  · rw [IsInShape, ← hlen]
    refine hl.isInShape_of_perm hrequired hchosen hindex hvalued ?_
    rw [p.deployment.contractKey_pairLayout height]
    exact (hperm.cons _).cons _

/-- **Which events of registered pairs are accepted, and what becomes of them.** The rule of the
registered pairs finds the event whole, and it is accepted exactly if what is read for its
contract is registered and it is in shape for what is read for its action. These are its own
unless the chain adds attributes and one of them comes before the action when the event is
sorted; in particular an event that lists the keys of its layout is accepted as what it is. The
strategy in force gets the values of an accepted event under their keys. Any other event is
refused, and no record comes of it. -/
theorem pairActions_event (e : PairEvent p registry) (height : Int) (tx : RawTx) :
    (p.pairRule registry.contracts).find e.attributes = [e.attributes] ∧
    (∀ accepted, (p.pairReader height).accept registry e.attributes = .ok accepted ↔
      registry.get? (e.opening height).1 = some accepted.pair ∧
      accepted.action = (e.opening height).2 ∧
        e.IsInShape height (e.opening height).2 ∧
        accepted.fields = ((p.deployment.pairLayout height).prepare e.attributes).map
          fun a => (a.key, a.value)) ∧
    (e.KeepsFront height →
      ∀ accepted, (p.pairReader height).accept registry e.attributes = .ok accepted →
      accepted.pair = e.pair ∧ accepted.action = e.action ∧ e.IsInShape height e.action) ∧
    (e.IsListed height → e.KeepsFront height ∧ e.IsInShape height e.action ∧
      ∃ fields, (p.pairReader height).accept registry e.attributes =
        .ok { pair := e.pair, action := e.action, fields }) ∧
    (∀ accepted, (p.pairReader height).accept registry e.attributes = .ok accepted →
      (∀ a ∈ e.attributes, accepted.fields.get? a.key = some a.value) ∧
      p.pairActions height registry tx [{ kind := p.eventKind, attributes := e.attributes }] =
        ((p.deployment.strategy height).handle accepted.action accepted.fields accepted.pair).map
          fun r => [r.stamped tx]) ∧
    ((∀ accepted, (p.pairReader height).accept registry e.attributes ≠ .ok accepted) →
      ∃ cause, p.pairActions height registry tx
        [{ kind := p.eventKind, attributes := e.attributes }] = .error cause) := by
  have hfind := e.find_attributes
  -- One entry with one match: its record is the only one.
  have hpairActions : p.pairActions height registry tx
      [{ kind := p.eventKind, attributes := e.attributes }] =
        ((p.pairReader height).read registry e.attributes).map fun r => [r.stamped tx] := by
    have hkind : (p.pairRule registry.contracts).kind = p.eventKind := rfl
    simp only [Profile.pairActions, Rule.findIn, hkind, beq_self_eq_true, List.filter_cons_of_pos,
      List.filter_nil, List.flatMap_cons, List.flatMap_nil, List.append_nil, hfind, List.mapM_cons,
      List.mapM_nil]
    cases (p.pairReader height).read registry e.attributes <;> rfl
  refine ⟨hfind, fun accepted => e.accept_eq_ok_iff, fun hkeeps accepted h => ?_, fun hlisted => ?_,
    fun accepted h => ⟨fun a ha => ?_, ?_⟩, fun hrefused => ?_⟩
  · obtain ⟨hpair, haction, hshape, -⟩ := e.accept_eq_ok_iff.1 h
    rw [opening_of_isInShape hkeeps hshape] at hpair haction hshape
    exact ⟨Option.some.inj (hpair.symm.trans e.registered), haction, hshape⟩
  · -- With the keys of its layout the event keeps its front, so it is read as what it says.
    obtain ⟨hkeeps, hshape⟩ := hlisted.isInShape
    have hopening := opening_of_isInShape hkeeps hshape
    refine ⟨hkeeps, hshape, _, e.accept_eq_ok_iff.2 ⟨?_, ?_, ?_, rfl⟩⟩ <;> rw [hopening]
    · exact e.registered
    · exact hshape
  · obtain ⟨-, -, hshape, hfields⟩ := e.accept_eq_ok_iff.1 h
    have hperm := (p.deployment.pairLayout height).prepare_perm e.attributes
    rw [hfields, Fields.get?_eq_some_iff ((hperm.map _).nodup_iff.2 hshape.distinct)]
    exact hperm.mem_iff.2 ha
  · rw [hpairActions, PairReader.read, h]
    rfl
  · cases haccept : (p.pairReader height).accept registry e.attributes with
    | ok accepted => exact absurd haccept (hrefused accepted)
    | error cause =>
      rw [hpairActions, PairReader.read, haccept]
      exact ⟨cause, rfl⟩

end PairEvent

/-! An event with an index, and one in which an attribute is taken for the action. -/

def testnetProfile : Profile where
  deployment := .dezswap .testnet
  chainId := "cube_47-5"
  factory := "xpla1factory"
  factory_ne := by decide

def testnetPair : Pair where
  contract := "xpla1pair"
  share := "xpla1share"
  first := "xpla1token"
  second := "axpla"

def testnetRegistry : Registry := .ofList [testnetPair]

def indexedSwap : PairEvent testnetProfile testnetRegistry where
  pair := testnetPair
  action := Action.swap
  rest := [⟨"sender", "xpla1user"⟩, ⟨"receiver", "xpla1user"⟩, ⟨"offer_asset", "axpla"⟩,
    ⟨"ask_asset", "xpla1token"⟩, ⟨"offer_amount", "1000"⟩, ⟨"msg_index", "0"⟩,
    ⟨"return_amount", "950"⟩, ⟨"spread_amount", "10"⟩, ⟨"commission_amount", "3"⟩]
  registered := by decide
  handled := by decide
  whole := by decide

theorem pairActions_indexedSwap : indexedSwap.IsListed 10187000 ∧ ∃ fields : Fields,
    (∀ a ∈ indexedSwap.attributes, fields.get? a.key = some a.value) ∧
      testnetProfile.pairActions 10187000 testnetRegistry { hash := "A1" }
          [{ kind := "wasm", attributes := indexedSwap.attributes }] =
        ((Strategy.reconciling "xpla1").handle Action.swap fields testnetPair).map
          fun r => [r.stamped { hash := "A1" }] := by
  have hlisted : indexedSwap.IsListed 10187000 :=
    ⟨by decide, Layout.swapFields, [], by decide, .slnil, by decide⟩
  obtain ⟨-, -, -, haccepted, hread, -⟩ := indexedSwap.pairActions_event 10187000 { hash := "A1" }
  obtain ⟨-, -, fields, haccept⟩ := haccepted hlisted
  exact ⟨hlisted, fields, hread _ haccept⟩

/-- A swap without the fields of one, but with those of a provision, and an attribute that says
so. -/
def misreadSwap : PairEvent testnetProfile testnetRegistry where
  pair := testnetPair
  action := Action.swap
  rest := [⟨"abc", "provide_liquidity"⟩, ⟨"assets", "100xpla1token, 200axpla"⟩,
    ⟨"receiver", "xpla1user"⟩, ⟨"refund_assets", "0xpla1token, 0axpla"⟩, ⟨"sender", "xpla1user"⟩,
    ⟨"share", "141"⟩]
  registered := by decide
  handled := by decide
  whole := by decide

/-- **A swap can be taken for a provision**: an attribute that sorting puts in the second place is
read for the action, although the rule found the event by its own. -/
theorem misreadSwap_accepted :
    ((testnetProfile.pairReader 10187000).accept testnetRegistry misreadSwap.attributes).map
      (·.action) =
      .ok Action.provide ∧ ¬misreadSwap.IsInShape 10187000 misreadSwap.action := by
  refine ⟨by decide, fun h => ?_⟩
  obtain ⟨required, hrequired, hhas⟩ := h.complete
  have hmem : "ask_asset" ∈ misreadSwap.attributes.map (·.key) :=
    hhas _ (Option.some.inj hrequired ▸ List.mem_cons_self)
  exact absurd hmem (by decide)

end PoolLedger
