import PoolLedger.Proofs.Acceptance
import PoolLedger.Proofs.Failures

/-!
# Events whose contract is not where it is looked for

The rule of the registered pairs finds only events that open with the contract of one of them
(`PairEvent.exists_of_mem_find`), and still an event that it found can fail over a pair that is not
known: where sub-events are sorted the contract is read from the first place after sorting, and an
attribute whose key comes before that of the contract takes this place (`PairEvent.Displaces`). The
value of that attribute is then looked up.

That is the only way (`Profile.pairActions_unknownPair`). An event in which nothing takes the place
of the contract is accepted or refused over its shape; so is one where the value in its place
happens to be a registered contract. If no key comes before that of the contract, as in all layouts,
an unknown pair is never reported.
-/

namespace PoolLedger

/-- Of some things there is a first one among those that come to the least value. -/
theorem exists_first_least {α β : Type} [LinearOrder β] (f : α → β) {l : List α} (h : l ≠ []) :
    ∃ front a back, l = front ++ a :: back ∧ (∀ b ∈ front, f a < f b) ∧ ∀ b ∈ back, f a ≤ f b := by
  induction l with
  | nil => exact absurd rfl h
  | cons first rest ih =>
    by_cases hrest : rest = []
    · exact ⟨[], first, rest, rfl, nofun, by rw [hrest]; nofun⟩
    · obtain ⟨front, a, back, hsplit, hfront, hback⟩ := ih hrest
      rcases le_or_gt (f first) (f a) with hle | hlt
      · refine ⟨[], first, rest, rfl, nofun, fun b hb => ?_⟩
        rw [hsplit] at hb
        rcases List.mem_append.1 hb with hb | hb
        · exact hle.trans (hfront b hb).le
        · rcases List.mem_cons.1 hb with rfl | hb
          · exact hle
          · exact hle.trans (hback b hb)
      · exact ⟨first :: front, a, back, congrArg _ hsplit, List.forall_mem_cons.2 ⟨hlt, hfront⟩,
          hback⟩

/-! ## What an event is refused for -/

namespace PairReader

variable {reader : PairReader} {registry : Registry} {contract : String}

theorem acceptAction_of_unregistered (h : registry.get? contract = none) (action : String)
    (attrs : List Attribute) :
    reader.acceptAction registry contract action attrs = .error (.unknownPair contract) := by
  rw [acceptAction, h]
  rfl

/-- Where the contract has a pair, an event is refused over its shape only. -/
theorem refusesShape_acceptAction {pair : Pair} (h : registry.get? contract = some pair)
    (action : String) (attrs : List Attribute) :
    RefusesShape (reader.acceptAction registry contract action attrs) := by
  unfold acceptAction
  rw [h]
  cases hrequired : reader.layout.required? action with
  | none =>
    intro e he
    cases he
    rfl
  | some required =>
    refine (refusesShape_read _ _ _).bind fun fields _ => RefusesShape.bind ?_ fun _ _ =>
      (refusesShape_checkShape _ _ _ _ _).bind fun _ _ =>
        (refusesShape_checkKeys _ _ _).bind fun _ _ => nofun
    intro e he
    rw [Layout.expectedLength, hrequired] at he
    cases he

end PairReader

/-- What is done with an accepted event does not look for a pair. -/
theorem Profile.read_eq_unknownPair {p : Profile} {height : Int} {registry : Registry}
    {attrs : List Attribute} {contract : String} :
    (p.pairReader height).read registry attrs = .error (.unknownPair contract) ↔
      (p.pairReader height).accept registry attrs = .error (.unknownPair contract) := by
  rw [PairReader.read, bind_eq_error]
  refine or_iff_left ?_
  rintro ⟨accepted, haccept, hhandle⟩
  obtain ⟨required, hrequired, hhas⟩ := PairReader.exists_required haccept
  exact failsOnly_handle hrequired hhas _ _ hhandle

/-! ## What takes the place of the contract -/

namespace PairEvent

variable {p : Profile} {registry : Registry} {height : Int} {e : PairEvent p registry}
  {a : Attribute}

/-- Sorting puts an attribute before the contract of an event: of the keys that come before that of
the contract it has the first, and it is the first attribute with that key. -/
structure Displaces (e : PairEvent p registry) (height : Int) (a : Attribute) : Prop where
  sorted : (p.deployment.pairLayout height).sorted
  before : a.key < p.deployment.contractKey
  first : ∃ front back, e.rest = front ++ a :: back ∧ (∀ b ∈ front, a.key < b.key) ∧
    ∀ b ∈ back, a.key ≤ b.key

theorem contractKey_lt (hsorted : (p.deployment.pairLayout height).sorted) :
    p.deployment.contractKey < actionKey :=
  p.deployment.contractKey_pairLayout height ▸
    (p.deployment.isOrderly_pairLayout height).front hsorted

theorem exists_displaces (hsorted : (p.deployment.pairLayout height).sorted)
    (h : ∃ a ∈ e.rest, a.key < p.deployment.contractKey) : ∃ a, e.Displaces height a := by
  obtain ⟨a, ha, hlt⟩ := h
  obtain ⟨front, first, back, hsplit, hfront, hback⟩ :=
    exists_first_least Attribute.key (List.ne_nil_of_mem ha)
  have hle : first.key ≤ a.key := by
    rw [hsplit] at ha
    rcases List.mem_append.1 ha with ha | ha
    · exact (hfront a ha).le
    · rcases List.mem_cons.1 ha with rfl | ha
      · exact le_rfl
      · exact hback a ha
  exact ⟨first, hsorted, hle.trans_lt hlt, front, back, hsplit, hfront, hback⟩

theorem not_sortedBefore_of_lt {b : Attribute} (hb : b.key ≤ actionKey) (h : b.key < a.key) :
    ¬sortedBefore a b := by
  rw [sortedBefore_iff]
  rintro (hindex | ⟨-, hle⟩)
  · rw [hindex] at hb
    exact absurd hb (by decide)
  · exact absurd hle h.not_ge

theorem prepare_attributes (hsorted : (p.deployment.pairLayout height).sorted) :
    (p.deployment.pairLayout height).prepare e.attributes = sortBy sortedBefore e.attributes := by
  rw [Layout.prepare, if_pos hsorted, p.deployment.contractKey_pairLayout height]
  exact sortSegments_of_single (List.forall_mem_cons.2 ⟨(contractKey_lt hsorted).ne', e.whole⟩)

/-- An attribute that takes the place of the contract comes first. -/
theorem prepare_of_displaces (h : e.Displaces height a) : ∃ more,
    (p.deployment.pairLayout height).prepare e.attributes = a :: more := by
  obtain ⟨hsorted, hbefore, front, back, hrest, hfront, hback⟩ := h
  have hlt : a.key < actionKey := hbefore.trans (contractKey_lt hsorted)
  have hsplit : e.attributes =
      (⟨p.deployment.contractKey, e.pair.contract⟩ :: ⟨actionKey, e.action⟩ :: front) ++
      a :: back := by
    rw [attributes, hrest]
    rfl
  have hfront' : ∀ b ∈ (⟨p.deployment.contractKey, e.pair.contract⟩ :: ⟨actionKey, e.action⟩ ::
      front :
      List Attribute), a.key < b.key :=
    List.forall_mem_cons.2 ⟨hbefore, List.forall_mem_cons.2 ⟨hlt, hfront⟩⟩
  rw [prepare_attributes hsorted, hsplit, sortBy_append_cons_of_le
    (fun b hb => not_sortedBefore_of_lt hlt.le (hfront' b hb))
    fun b hb => Layout.sortedBefore_of_le hlt.le (hback b hb)]
  exact ⟨_, rfl⟩

theorem prepare_of_not_displaces (h : ∀ a, ¬e.Displaces height a) : ∃ more,
    (p.deployment.pairLayout height).prepare e.attributes =
      ⟨p.deployment.contractKey, e.pair.contract⟩ :: more := by
  by_cases hsorted : (p.deployment.pairLayout height).sorted
  · have hlt := contractKey_lt hsorted
    have hrest : ∀ b ∈ e.rest, p.deployment.contractKey ≤ b.key := fun b hb =>
      not_lt.1 fun hb' => (exists_displaces hsorted ⟨b, hb, hb'⟩).elim h
    have hfirst : ∀ b ∈ ⟨actionKey, e.action⟩ :: e.rest,
        sortedBefore ⟨p.deployment.contractKey, e.pair.contract⟩ b :=
      List.forall_mem_cons.2 ⟨Layout.sortedBefore_of_le hlt.le hlt.le,
        fun b hb => Layout.sortedBefore_of_le hlt.le (hrest b hb)⟩
    exact ⟨_, (prepare_attributes hsorted).trans (sortBy_cons_of_le hfirst)⟩
  · exact ⟨_, if_neg hsorted⟩

/-- **The place of the contract decides how an event is refused.** -/
theorem accept_of_prepare {more : List Attribute}
    (h : (p.deployment.pairLayout height).prepare e.attributes = a :: more) :
    (registry.get? a.value = none →
      (p.pairReader height).accept registry e.attributes = .error (.unknownPair a.value)) ∧
    (registry.get? a.value ≠ none →
      RefusesShape ((p.pairReader height).accept registry e.attributes)) := by
  have hlen : (a :: more).length = e.attributes.length := by
    rw [← h]
    exact (Layout.prepare_perm _ _).length_eq
  obtain ⟨b, others, rfl⟩ : ∃ b others, more = b :: others :=
    List.exists_cons_of_length_pos (by simp only [attributes, List.length_cons] at hlen; omega)
  have hprepare : (p.pairReader height).layout.prepare e.attributes = a :: b :: others := h
  rw [PairReader.accept, hprepare]
  refine ⟨fun hnone => PairReader.acceptAction_of_unregistered hnone _ _, fun hsome => ?_⟩
  obtain ⟨pair, hpair⟩ := Option.ne_none_iff_exists'.1 hsome
  exact PairReader.refusesShape_acceptAction hpair _ _

/-- Only something else in the place of the contract makes the pair of an event unknown. -/
theorem accept_eq_unknownPair {contract : String} :
    (p.pairReader height).accept registry e.attributes = .error (.unknownPair contract) ↔
      ∃ a, e.Displaces height a ∧ registry.get? a.value = none ∧ a.value = contract := by
  constructor
  · intro h
    -- Without such an attribute the contract stands first, and its pair is registered.
    by_cases hdisplaced : ∃ a, e.Displaces height a
    · obtain ⟨a, ha⟩ := hdisplaced
      obtain ⟨more, hprepare⟩ := prepare_of_displaces ha
      obtain ⟨hunknown, hshape⟩ := accept_of_prepare hprepare
      cases hpair : registry.get? a.value with
      | none =>
        rw [hunknown hpair] at h
        cases h
        exact ⟨a, ha, hpair, rfl⟩
      | some pair => exact nomatch hshape (by rw [hpair]; nofun) _ h
    · obtain ⟨more, hprepare⟩ := prepare_of_not_displaces (not_exists.1 hdisplaced)
      have hregistered : registry.get? e.pair.contract ≠ none := by
        rw [e.registered]
        nofun
      exact nomatch (accept_of_prepare hprepare).2 hregistered _ h
  · rintro ⟨a, ha, hnone, rfl⟩
    obtain ⟨more, hprepare⟩ := prepare_of_displaces ha
    exact (accept_of_prepare hprepare).1 hnone

/-- Otherwise an event that is refused is refused over its shape. -/
theorem refusesShape_accept (h : ∀ a, e.Displaces height a → registry.get? a.value ≠ none) :
    RefusesShape ((p.pairReader height).accept registry e.attributes) := by
  by_cases hdisplaced : ∃ a, e.Displaces height a
  · obtain ⟨a, ha⟩ := hdisplaced
    obtain ⟨more, hprepare⟩ := prepare_of_displaces ha
    exact (accept_of_prepare hprepare).2 (h a ha)
  · obtain ⟨more, hprepare⟩ := prepare_of_not_displaces (not_exists.1 hdisplaced)
    exact (accept_of_prepare hprepare).2 (by rw [e.registered]; nofun)

theorem exists_of_mem_findIn {entries : List Entry} {m : List Attribute}
    (h : m ∈ (p.pairRule registry.contracts).findIn entries) :
    ∃ e : PairEvent p registry, e.attributes = m := by
  obtain ⟨entry, -, -, hm⟩ := Rule.mem_findIn.1 h
  exact exists_of_mem_find hm

end PairEvent

/-- **An unknown pair is reported only for an attribute that takes the place of the contract.**
Everything that the rule of the registered pairs finds opens with the contract of one of them.
Reading it reports an unknown pair exactly if some event among it, before which all are read, has an
attribute that sorting puts before its contract, and the value of this attribute is not registered.
Without a key that comes before that of the contract this does not happen. An event that is not in
shape is refused over its shape, unless sorting moves its contract or its action from the front. -/
theorem Profile.pairActions_unknownPair (p : Profile) (height : Int) (registry : Registry)
    (tx : RawTx) (entries : List Entry) :
    (∀ m ∈ (p.pairRule registry.contracts).findIn entries,
      ∃ e : PairEvent p registry, e.attributes = m) ∧
    (∀ contract, p.pairActions height registry tx entries = .error (.unknownPair contract) ↔
      ∃ (e : PairEvent p registry) (before after : List (List Attribute)) (a : Attribute),
        (p.pairRule registry.contracts).findIn entries = before ++ e.attributes :: after ∧
        (∀ m ∈ before, ∃ r, (p.pairReader height).read registry m = .ok r) ∧
        e.Displaces height a ∧ registry.get? a.value = none ∧ a.value = contract) ∧
    (((p.deployment.pairLayout height).sorted →
        ∀ entry ∈ entries, ∀ a ∈ entry.attributes, p.deployment.contractKey ≤ a.key) →
      ∀ contract, p.pairActions height registry tx entries ≠ .error (.unknownPair contract)) ∧
    ∀ e : PairEvent p registry, ¬e.IsInShape height e.action → e.KeepsFront height →
      (∀ a, e.Displaces height a → registry.get? a.value ≠ none) →
      ∃ cause, (p.pairReader height).read registry e.attributes = .error cause ∧
        cause.category = .structuralMismatch := by
  have hiff (contract : String) :
      p.pairActions height registry tx entries = .error (.unknownPair contract) ↔
        ∃ (e : PairEvent p registry) (before after : List (List Attribute)) (a : Attribute),
          (p.pairRule registry.contracts).findIn entries = before ++ e.attributes :: after ∧
          (∀ m ∈ before, ∃ r, (p.pairReader height).read registry m = .ok r) ∧
          e.Displaces height a ∧ registry.get? a.value = none ∧ a.value = contract := by
    simp only [pairActions, mapM_eq_error, bind_eq_ok, bind_eq_error, pure_eq_ok]
    constructor
    · rintro ⟨before, m, after, hsplit, hbefore, herror⟩
      obtain ⟨e, rfl⟩ : ∃ e : PairEvent p registry, e.attributes = m :=
        PairEvent.exists_of_mem_findIn (hsplit ▸ List.mem_append_right _ List.mem_cons_self)
      -- Stamping the record does not fail, so it is the reading.
      have hread := herror.resolve_right (by
        rintro ⟨_, _, hpure⟩
        cases hpure)
      obtain ⟨a, ha⟩ := PairEvent.accept_eq_unknownPair.1 (read_eq_unknownPair.1 hread)
      refine ⟨e, before, after, a, hsplit, fun m hm => ?_, ha⟩
      obtain ⟨-, r, hr, -⟩ := hbefore m hm
      exact ⟨r, hr⟩
    · rintro ⟨e, before, after, a, hsplit, hbefore, ha⟩
      refine ⟨before, _, after, hsplit, fun m hm => ?_, .inl ?_⟩
      · obtain ⟨r, hr⟩ := hbefore m hm
        exact ⟨_, r, hr, rfl⟩
      · exact read_eq_unknownPair.2 (PairEvent.accept_eq_unknownPair.2 ⟨a, ha⟩)
  refine ⟨fun m hm => PairEvent.exists_of_mem_findIn hm, hiff, fun hkeys contract h => ?_,
    fun e hshape hkeeps hregistered => ?_⟩
  · -- The attribute that takes the place has a key that comes before that of the contract.
    obtain ⟨e, before, after, a, hsplit, -, ⟨hsorted, hlt, front, back, hrest, -⟩, -⟩ :=
      (hiff contract).1 h
    have hfound : e.attributes ∈ (p.pairRule registry.contracts).findIn entries :=
      hsplit ▸ List.mem_append_right _ List.mem_cons_self
    have ha : a ∈ e.attributes := by
      rw [PairEvent.attributes, hrest]
      simp
    obtain ⟨entry, hentry, hmem⟩ := Rule.mem_attributes_of_mem_findIn hfound ha
    exact absurd (hkeys hsorted entry hentry a hmem) hlt.not_ge
  · cases haccept : (p.pairReader height).accept registry e.attributes with
    | ok accepted =>
      obtain ⟨-, -, hshape', -⟩ := e.accept_eq_ok_iff.1 haccept
      rw [PairEvent.opening_of_isInShape hkeeps hshape'] at hshape'
      exact absurd hshape' hshape
    | error cause =>
      refine ⟨cause, ?_, PairEvent.refusesShape_accept hregistered cause haccept⟩
      rw [PairReader.read, haccept]
      rfl

/-! A swap that lacks its fields, without and with an attribute in the place of its contract. -/

def emptySwap : PairEvent testnetProfile testnetRegistry :=
  { indexedSwap with rest := [], whole := nofun }

theorem emptySwap_refused :
    (∀ contract, testnetProfile.pairActions 100 testnetRegistry { hash := "A1" }
      [{ kind := "wasm", attributes := emptySwap.attributes }] ≠ .error (.unknownPair contract)) ∧
    ∃ cause, (testnetProfile.pairReader 100).read testnetRegistry emptySwap.attributes =
      .error cause ∧
      cause.category = .structuralMismatch := by
  obtain ⟨-, -, hnever, hrefused⟩ :=
    testnetProfile.pairActions_unknownPair 100 testnetRegistry { hash := "A1" }
    [{ kind := "wasm", attributes := emptySwap.attributes }]
  refine ⟨hnever (by decide), hrefused emptySwap (fun h => ?_) (fun _ _ => nofun) fun a ha => ?_⟩
  · obtain ⟨required, hrequired, hhas⟩ := h.complete
    have hmem : "ask_asset" ∈ emptySwap.attributes.map (·.key) :=
      hhas _ (Option.some.inj hrequired ▸ List.mem_cons_self)
    exact absurd hmem (by decide)
  · obtain ⟨front, back, hsplit, -⟩ := ha.first
    simp [emptySwap] at hsplit

def displacedSwap : PairEvent testnetProfile testnetRegistry :=
  { indexedSwap with rest := [⟨"A", "foo"⟩], whole := List.forall_mem_singleton.2 (by decide) }

/-- **A pair that is registered can be reported as unknown**: the value of an attribute that sorting
puts before the contract is looked up for it. -/
theorem displacedSwap_unknown :
    testnetRegistry.get? displacedSwap.pair.contract = some testnetPair ∧
      testnetProfile.pairActions 100 testnetRegistry { hash := "A1" }
      [{ kind := "wasm", attributes := displacedSwap.attributes }] =
        .error (.unknownPair "foo") := by
  decide

end PoolLedger
