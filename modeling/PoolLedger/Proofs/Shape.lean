import PoolLedger.Profile
import PoolLedger.Proofs.Arrange
import PoolLedger.Proofs.Outcome

/-!
# When a sub-event is in good shape

Each check of the shape of a sub-event lets pass exactly what it is meant to let pass
(`checkShape_eq_ok`, `Fields.read_eq_ok_iff`, `checkKeys_eq_ok`), and what it refuses is filed as a
structural mismatch. The order of the attributes does not matter.

For the transfers of tokens the checks come to one condition on the attributes, the same for all
deployments up to the number of attributes that the chain adds (`Profile.IsTokenTransfer`,
`Profile.exists_fields_iff`).
-/

namespace PoolLedger

theorem lookup_eq_some_iff {β : Type} {table : List (String × β)} (h : (table.map (·.1)).Nodup)
    {key : String} {v : β} : table.lookup key = some v ↔ (key, v) ∈ table := by
  induction table with
  | nil => simp
  | cons entry rest ih =>
    obtain ⟨k, w⟩ := entry
    rw [List.map_cons, List.nodup_cons] at h
    by_cases hkey : key = k
    · subst hkey
      have hrest : (key, v) ∉ rest := fun hmem => h.1 (List.mem_map.2 ⟨_, hmem, rfl⟩)
      simp [hrest, eq_comm]
    · have hbeq : (key == k) = false := by simpa using hkey
      simp [List.lookup_cons, hbeq, ih h.2, hkey]

/-! ## The single checks -/

theorem checkShape_eq_ok {kind : SubEvent} {action : String} {expected : Nat} {added : Int}
    {attrs : List Attribute} {u : Unit} :
    checkShape kind action expected added attrs = .ok u ↔
      (attrs.length : Int) = expected + added ∧ ∀ a ∈ attrs, a.value ≠ "" := by
  unfold checkShape
  split
  · rename_i hlen
    split
    · rename_i a ha
      have hempty : a.value = "" := by simpa using List.find?_some ha
      simp only [reduceCtorEq, false_iff, not_and, not_forall, not_not]
      exact fun _ => ⟨a, List.mem_of_find?_eq_some ha, hempty⟩
    · rename_i hnone
      simp only [true_iff]
      exact ⟨hlen, by simpa using hnone⟩
  · rename_i hlen
    simp [hlen]

namespace Fields

theorem repeatedKey?_eq_none {seen : List String} {attrs : List Attribute} :
    repeatedKey? seen attrs = none ↔
      (attrs.map (·.key)).Nodup ∧ ∀ a ∈ attrs, a.key ∉ seen := by
  induction attrs generalizing seen with
  | nil => simp [repeatedKey?]
  | cons a rest ih =>
    by_cases hseen : a.key ∈ seen
    · simp [repeatedKey?, hseen]
    · simp only [repeatedKey?, List.contains_iff_mem, hseen, if_false, ih, List.map_cons,
        List.nodup_cons, List.mem_map, List.mem_cons]
      grind

theorem read_eq_ok_iff {kind : SubEvent} {action : String} {attrs : List Attribute}
    {fields : Fields} :
    Fields.read kind action attrs = .ok fields ↔
      (attrs.map (·.key)).Nodup ∧ fields = attrs.map fun a => (a.key, a.value) := by
  rw [Fields.read, mapError_eq_ok, ofAttributes]
  split
  · rename_i key hkey
    have hrepeated : ¬(attrs.map (·.key)).Nodup := fun hdistinct => by
      rw [repeatedKey?_eq_none.2 ⟨hdistinct, fun _ _ => List.not_mem_nil⟩] at hkey
      cases hkey
    simp [hrepeated]
  · rename_i hnone
    have hdistinct := (repeatedKey?_eq_none.1 hnone).1
    simp [hdistinct, eq_comm]

theorem get?_eq_some_iff {attrs : List Attribute} (h : (attrs.map (·.key)).Nodup) {key v : String} :
    Fields.get? (attrs.map fun a => (a.key, a.value)) key = some v ↔ ⟨key, v⟩ ∈ attrs := by
  have hkeys : ((attrs.map fun a => (a.key, a.value)).map (·.1)).Nodup := by
    rwa [List.map_map]
  rw [get?, lookup_eq_some_iff hkeys, List.mem_map]
  constructor
  · rintro ⟨a, ha, heq⟩
    cases heq
    exact ha
  · exact fun hmem => ⟨_, hmem, rfl⟩

theorem value_of_mem {attrs : List Attribute} (h : (attrs.map (·.key)).Nodup) {key v : String}
    (hmem : ⟨key, v⟩ ∈ attrs) :
    Fields.value (attrs.map fun a => (a.key, a.value)) key = .ok v := by
  rw [value, (get?_eq_some_iff h).2 hmem]

theorem exists_value {attrs : List Attribute} (h : (attrs.map (·.key)).Nodup) {key : String}
    (hkey : key ∈ attrs.map (·.key)) :
    ∃ v, Fields.value (attrs.map fun a => (a.key, a.value)) key = .ok v ∧ ⟨key, v⟩ ∈ attrs := by
  obtain ⟨a, ha, rfl⟩ := List.mem_map.1 hkey
  exact ⟨a.value, value_of_mem h ha, ha⟩

theorem has_iff {attrs : List Attribute} {key : String} :
    Fields.has (attrs.map fun a => (a.key, a.value)) key ↔ key ∈ attrs.map (·.key) := by
  simp [has, keys]

end Fields

theorem checkKeys_eq_ok {action : String} {required : List String} {fields : Fields} {u : Unit} :
    checkKeys action required fields = .ok u ↔ ∀ key ∈ required, fields.has key := by
  unfold checkKeys
  split
  · rename_i key hkey
    have hmissing : ¬fields.has key := by simpa using List.find?_some hkey
    simp only [reduceCtorEq, false_iff, not_forall]
    exact ⟨key, List.mem_of_find?_eq_some hkey, hmissing⟩
  · rename_i hnone
    simp only [true_iff]
    simpa using hnone

/-! ## What the checks refuse -/

/-- A step that refuses nothing but a bad shape. -/
def RefusesShape {α : Type} (x : Except ReadError α) : Prop :=
  ∀ e, x = .error e → e.category = .structuralMismatch

theorem RefusesShape.bind {α β : Type} {x : Except ReadError α} {k : α → Except ReadError β}
    (hx : RefusesShape x) (hk : ∀ a, x = .ok a → RefusesShape (k a)) : RefusesShape (x >>= k) :=
  FailsOnly.bind hx hk

theorem refusesShape_checkShape (kind : SubEvent) (action : String) (expected : Nat) (added : Int)
    (attrs : List Attribute) : RefusesShape (checkShape kind action expected added attrs) := by
  intro e he
  unfold checkShape at he
  split at he
  · split at he
    · cases he
      rfl
    · cases he
  · cases he
    rfl

theorem refusesShape_read (kind : SubEvent) (action : String) (attrs : List Attribute) :
    RefusesShape (Fields.read kind action attrs) := by
  intro e he
  obtain ⟨repeated, -, rfl⟩ := mapError_eq_error.1 he
  rfl

theorem refusesShape_checkKeys (action : String) (required : List String) (fields : Fields) :
    RefusesShape (checkKeys action required fields) := by
  intro e he
  unfold checkKeys at he
  split at he
  · cases he
    rfl
  · cases he

/-- Chains add one attribute to an event, if any. -/
theorem Deployment.added_eq (d : Deployment) (height : Int) :
    d.added height = 0 ∨ d.added height = 1 := by
  unfold added
  split
  · exact .inr rfl
  · exact .inl rfl

/-! ## Transfers of tokens -/

theorem Layout.prepare_perm (l : Layout) (attrs : List Attribute) :
    (l.prepare attrs).Perm attrs := by
  unfold prepare
  split
  · exact sortSegments_perm _ _
  · exact .refl _

theorem TokenReader.fields_eq_ok {reader : TokenReader} {attrs : List Attribute} {fields : Fields} :
    reader.fields attrs = .ok fields ↔
      ((reader.layout.prepare attrs).map (·.key)).Nodup ∧
        fields = (reader.layout.prepare attrs).map (fun a => (a.key, a.value)) ∧
        ∃ required n, reader.layout.required? ((fields.get? actionKey).getD "") = some required ∧
          reader.layout.expectedLength ((fields.get? actionKey).getD "") fields.keys = .ok n ∧
          ((reader.layout.prepare attrs).length : Int) = n + reader.added ∧
          (∀ a ∈ reader.layout.prepare attrs, a.value ≠ "") ∧ ∀ key ∈ required, fields.has key := by
  simp only [TokenReader.fields, bind_eq_ok, Fields.read_eq_ok_iff]
  constructor
  · rintro ⟨found, ⟨hdistinct, rfl⟩, h⟩
    split at h
    · cases h
    · rename_i required hrequired
      simp only [bind_eq_ok, pure_eq_ok, checkShape_eq_ok, checkKeys_eq_ok] at h
      obtain ⟨n, hn, -, ⟨hlen, hvalued⟩, -, hkeys, rfl⟩ := h
      exact ⟨hdistinct, rfl, required, n, hrequired, hn, hlen, hvalued, hkeys⟩
  · rintro ⟨hdistinct, rfl, required, n, hrequired, hn, hlen, hvalued, hkeys⟩
    refine ⟨_, ⟨hdistinct, rfl⟩, ?_⟩
    simp only [hrequired, bind_eq_ok, pure_eq_ok, checkShape_eq_ok, checkKeys_eq_ok]
    exact ⟨n, hn, ⟨⟩, ⟨hlen, hvalued⟩, ⟨⟩, hkeys, trivial⟩

theorem TokenReader.refusesShape_fields (reader : TokenReader) (attrs : List Attribute) :
    RefusesShape (reader.fields attrs) := by
  refine (refusesShape_read _ _ _).bind ?_
  intro fields _
  dsimp only
  split
  · intro e he
    cases he
    rfl
  · rename_i required hrequired
    refine RefusesShape.bind ?_ fun n _ => (refusesShape_checkShape _ _ _ _ _).bind fun _ _ =>
      (refusesShape_checkKeys _ _ _).bind fun _ _ => nofun
    intro e he
    rw [Layout.expectedLength, hrequired] at he
    cases he

namespace Profile

/-- The shape that the transfers of tokens have: no key occurs twice, every attribute has a value,
and besides the contract and the action there are the fields of the action and as many more
attributes as the chain adds. -/
structure IsTokenTransfer (p : Profile) (height : Int) (attrs : List Attribute) : Prop where
  distinct : (attrs.map (·.key)).Nodup
  valued : ∀ a ∈ attrs, a.value ≠ ""
  complete : ∃ action required, (action, required) ∈ Layout.transferFields ∧
    ⟨actionKey, action⟩ ∈ attrs ∧ (∀ key ∈ required, key ∈ attrs.map (·.key)) ∧
    (attrs.length : Int) = 2 + required.length + p.deployment.added height

theorem tokenLayout_fields (d : Deployment) :
    d.tokenLayout.fields = Layout.transferFields ∧ d.tokenLayout.optional = [] := by
  cases d <;> exact ⟨rfl, rfl⟩

theorem contractKey_tokenLayout (d : Deployment) : d.tokenLayout.contractKey = d.contractKey := by
  cases d <;> rfl

variable {p : Profile} {height : Int} {attrs : List Attribute}

theorem tokenLayout_required?_eq_some {d : Deployment} {action : String} {required : List String} :
    d.tokenLayout.required? action = some required ↔
      (action, required) ∈ Layout.transferFields := by
  rw [Layout.required?, (tokenLayout_fields d).1]
  exact lookup_eq_some_iff (by decide)

theorem tokenLayout_expectedLength {d : Deployment} {action : String} {required : List String}
    (h : (action, required) ∈ Layout.transferFields) (present : List String) :
    d.tokenLayout.expectedLength action present = .ok (2 + required.length) := by
  rw [Layout.expectedLength, tokenLayout_required?_eq_some.2 h]
  simp [Layout.optionalOf, (tokenLayout_fields d).2]

theorem mem_transferFields_ne {action : String} {required : List String}
    (h : (action, required) ∈ Layout.transferFields) : action ≠ "" := by
  rintro rfl
  simp [Layout.transferFields, Action.transfer, Action.transferFrom] at h

/-- **A sub-event is read as the transfer of a token exactly when it has the shape of one.** -/
theorem exists_fields_iff :
    (∃ fields, (p.tokenReader height).fields attrs = .ok fields) ↔
      p.IsTokenTransfer height attrs := by
  have hperm : ((p.tokenReader height).layout.prepare attrs).Perm attrs := Layout.prepare_perm _ _
  have hkeys := hperm.map (·.key)
  constructor
  · rintro ⟨fields, h⟩
    obtain ⟨hdistinct, rfl, required, n, hrequired, hn, hlen, hvalued, hhas⟩ :=
      TokenReader.fields_eq_ok.1 h
    have hlisted := tokenLayout_required?_eq_some.1 hrequired
    obtain rfl := Except.ok.inj ((tokenLayout_expectedLength hlisted _).symm.trans hn)
    refine ⟨hkeys.nodup_iff.1 hdistinct, fun a ha => hvalued a (hperm.mem_iff.2 ha), ?_⟩
    -- An action of the layout is not empty, so it is the value of an attribute.
    cases haction : Fields.get? (((p.tokenReader height).layout.prepare attrs).map
        fun a => (a.key, a.value)) actionKey with
    | none =>
      rw [haction] at hlisted
      exact absurd rfl (mem_transferFields_ne hlisted)
    | some action =>
      rw [haction] at hlisted
      have hmem := (Fields.get?_eq_some_iff hdistinct).1 haction
      refine ⟨action, required, hlisted, hperm.mem_iff.1 hmem, fun key hkey => ?_, ?_⟩
      · exact hkeys.mem_iff.1 (Fields.has_iff.1 (hhas key hkey))
      · rw [← hperm.length_eq, hlen, Int.natCast_add]
        rfl
  · rintro ⟨hdistinct, hvalued, action, required, hlisted, haction, hhas, hlen⟩
    have hdistinct' := hkeys.nodup_iff.2 hdistinct
    have haction' := (Fields.get?_eq_some_iff hdistinct').2 (hperm.mem_iff.2 haction)
    refine ⟨_, TokenReader.fields_eq_ok.2 ⟨hdistinct', rfl, required, 2 + required.length, ?_⟩⟩
    rw [haction', Option.getD_some]
    refine ⟨tokenLayout_required?_eq_some.2 hlisted, tokenLayout_expectedLength hlisted _, ?_,
      fun a ha => hvalued a (hperm.mem_iff.1 ha),
      fun key hkey => Fields.has_iff.2 (hkeys.mem_iff.2 (hhas key hkey))⟩
    rw [hperm.length_eq, hlen, Int.natCast_add]
    rfl

end Profile

end PoolLedger
