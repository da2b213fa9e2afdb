import PoolLedger.Node.Transaction
import PoolLedger.Proofs.Outcome
import PoolLedger.Proofs.Scan

/-!
# Rules on flattened events

Flattening joins the attributes of all events of one type and forgets where an event ends
(`attributesOf_flatten`). A rule can find the ends again by its boundary, if

* every event *opens* with the boundary key (`Rule.Opens`), and
* no item but the first fits an attribute of that key (`Rule.OpensFirst`).

Then neither a fit nor what a match takes in behind it reaches into the next event, so scanning
joined attributes is scanning the parts (`scan_append`), and a rule finds in flattened events what
it finds in the events one by one (`findIn_flatten`). The rules of pair actions and of token
transfers are of this kind unless they look for the contract under the key of the action
(`findIn_of_read_events`).
-/

namespace PoolLedger

/-! ## What flattening keeps -/

/-- The attributes of the events of one type, event by event. -/
def attributesOf (kind : String) (events : List Entry) : List Attribute :=
  (events.filter (·.kind == kind)).flatMap (·.attributes)

theorem attributesOf_cons (kind : String) (e : Entry) (rest : List Entry) :
    attributesOf kind (e :: rest) =
      (if e.kind = kind then e.attributes else []) ++ attributesOf kind rest := by
  by_cases h : e.kind = kind <;> simp [attributesOf, h]

theorem attributesOf_eq_nil {kind : String} {events : List Entry}
    (h : kind ∉ events.map (·.kind)) : attributesOf kind events = [] := by
  have hnone : events.filter (·.kind == kind) = [] := by
    refine List.filter_eq_nil_iff.2 ?_
    intro e he hkind
    exact h (List.mem_map.2 ⟨e, he, by simpa using hkind⟩)
  rw [attributesOf, hnone, List.flatMap_nil]

theorem mem_kinds_join (event : Entry) (entries : List Entry) (kind : String) :
    kind ∈ (event.join entries).map (·.kind) ↔
      kind = event.kind ∨ kind ∈ entries.map (·.kind) := by
  induction entries with
  | nil => simp [Entry.join]
  | cons e rest ih =>
    by_cases h : e.kind = event.kind
    · simp [Entry.join, h]
    · simp only [Entry.join, if_neg h, List.map_cons, List.mem_cons, ih]
      tauto

theorem nodup_kinds_join (event : Entry) {entries : List Entry}
    (h : (entries.map (·.kind)).Nodup) : ((event.join entries).map (·.kind)).Nodup := by
  induction entries with
  | nil => simp [Entry.join]
  | cons e rest ih =>
    by_cases hkind : e.kind = event.kind
    · rw [Entry.join, if_pos hkind]
      exact h
    · rw [List.map_cons, List.nodup_cons] at h
      simp only [Entry.join, if_neg hkind, List.map_cons, List.nodup_cons]
      refine ⟨fun hmem => ?_, ih h.2⟩
      exact ((mem_kinds_join event rest e.kind).1 hmem).elim hkind h.1

theorem attributesOf_join (kind : String) (event : Entry) {entries : List Entry}
    (h : (entries.map (·.kind)).Nodup) :
    attributesOf kind (event.join entries) =
      attributesOf kind entries ++ if event.kind = kind then event.attributes else [] := by
  induction entries with
  | nil =>
    rw [Entry.join, attributesOf_cons]
    simp [attributesOf]
  | cons e rest ih =>
    rw [List.map_cons, List.nodup_cons] at h
    by_cases hkind : e.kind = event.kind
    · -- The type does not occur again, so the new attributes come to stand last.
      have hrest : e.kind = kind → attributesOf kind rest = [] := fun he =>
        attributesOf_eq_nil (he ▸ h.1)
      by_cases he : e.kind = kind
      · simp [Entry.join, attributesOf_cons, ← hkind, he, hrest he]
      · simp [Entry.join, attributesOf_cons, ← hkind, he]
    · rw [Entry.join, if_neg hkind, attributesOf_cons, attributesOf_cons, ih h.2, List.append_assoc]

/-- **Flattening loses no attribute and keeps their order within a type; a type occurs once.** -/
theorem attributesOf_flatten (kind : String) (events : List Entry) :
    attributesOf kind (flatten events) = attributesOf kind events ∧
      ((flatten events).map (·.kind)).Nodup := by
  have hfold (entries : List Entry) (h : (entries.map (·.kind)).Nodup) :
      attributesOf kind (events.foldl (fun es e => e.join es) entries) =
        attributesOf kind entries ++ attributesOf kind events ∧
      ((events.foldl (fun es e => e.join es) entries).map (·.kind)).Nodup := by
    induction events generalizing entries with
    | nil => simpa [attributesOf] using h
    | cons e rest ih =>
      obtain ⟨hattrs, hnodup⟩ := ih (e.join entries) (nodup_kinds_join e h)
      rw [attributesOf_join kind e h, List.append_assoc, ← attributesOf_cons] at hattrs
      exact ⟨hattrs, hnodup⟩
  exact hfold [] List.nodup_nil

namespace Rule

/-! ## Scanning joined attributes -/

/-- The attributes open with the boundary of a rule, if there are any. -/
def Opens (r : Rule) (attrs : List Attribute) : Prop :=
  ∀ a ∈ attrs.head?, r.bounds a

/-- Only the first item of a rule can fit an attribute that opens a sub-event. -/
def OpensFirst (r : Rule) : Prop :=
  ∀ i ∈ r.items.tail, ∀ a, r.bounds a → i.accepts a = false

variable {r : Rule} {more : List Attribute}

/-- Items that no opening attribute fits do not fit across the start of a sub-event. -/
theorem fits_append {items : List RuleItem}
    (hitems : ∀ i ∈ items, ∀ a, r.bounds a → i.accepts a = false) (hmore : r.Opens more)
    (attrs : List Attribute) :
    fits items (attrs ++ more) = fits items attrs := by
  induction items generalizing attrs with
  | nil => simp [fits]
  | cons i items ih =>
    cases attrs with
    | nil =>
      cases more with
      | nil => rfl
      | cons b more =>
        have hb : i.accepts b = false := hitems i List.mem_cons_self b (hmore b rfl)
        simp [fits, hb]
    | cons a attrs =>
      simp only [List.cons_append, fits]
      rw [ih fun j hj => hitems j (List.mem_cons_of_mem _ hj)]

theorem fits_cons_append (hr : r.OpensFirst) (hmore : r.Opens more) (a : Attribute)
    (rest : List Attribute) : fits r.items (a :: rest ++ more) = fits r.items (a :: rest) := by
  cases hitems : r.items with
  | nil => simp [fits]
  | cons i items =>
    have htail : ∀ j ∈ items, ∀ b, r.bounds b → j.accepts b = false := by
      intro j hj
      exact hr j (by simpa [hitems] using hj)
    simp only [List.cons_append, fits, fits_append htail hmore]

/-- What a match takes in behind its items ends where the next sub-event opens. -/
theorem takeWhile_bounds_append (hmore : r.Opens more) (attrs : List Attribute) :
    (attrs ++ more).takeWhile (fun a => !r.bounds a) = attrs.takeWhile fun a => !r.bounds a := by
  have hnone : more.takeWhile (fun a => !r.bounds a) = [] := by
    cases more with
    | nil => rfl
    | cons b more => simp [hmore b rfl]
  rw [List.takeWhile_append, hnone]
  split
  · rename_i hall
    rw [List.append_nil]
    exact ((List.takeWhile_prefix _).eq_of_length hall).symm
  · rfl

theorem extent_append {attrs : List Attribute} (hlen : r.items.length ≤ attrs.length)
    (hmore : r.Opens more) : r.extent (attrs ++ more) = r.extent attrs := by
  unfold extent
  split
  · rfl
  · rfl
  · dsimp only
    rw [List.drop_append_of_le_length hlen, takeWhile_bounds_append hmore]

/-- **Scanning joined attributes is scanning the parts, if the second part opens a sub-event.** -/
theorem scan_append (hr : r.OpensFirst) (hmore : r.Opens more) {attrs : List Attribute} {skip : Nat}
    (hskip : skip ≤ attrs.length) :
    r.scan skip (attrs ++ more) = r.scan skip attrs ++ r.scan 0 more := by
  induction attrs generalizing skip with
  | nil =>
    obtain rfl := Nat.le_zero.1 hskip
    rfl
  | cons a rest ih =>
    cases skip with
    | succ skip => exact ih (Nat.le_of_succ_le_succ hskip)
    | zero =>
      have hfits := fits_cons_append hr hmore a rest
      rw [List.cons_append] at hfits ⊢
      rw [scan, scan, hfits]
      by_cases h : fits r.items (a :: rest)
      · have hlen := length_le_of_fits h
        -- A match ends within the first part, since the second opens with a boundary.
        have hextent : r.extent (a :: (rest ++ more)) = r.extent (a :: rest) :=
          extent_append hlen hmore
        have hle : r.extent (a :: rest) ≤ (a :: rest).length := extent_le_length hlen
        have hrest : r.extent (a :: rest) - 1 ≤ rest.length := by
          rw [List.length_cons] at hle
          omega
        have htake : (a :: (rest ++ more)).take (r.extent (a :: rest)) =
            (a :: rest).take (r.extent (a :: rest)) := by
          rw [← List.cons_append, List.take_append_of_le_length hle]
        rw [if_pos h, if_pos h, hextent]
        dsimp only
        rw [htake, ih hrest, List.cons_append]
      · rw [if_neg h, if_neg h]
        exact ih (Nat.zero_le _)

theorem Opens.append {attrs : List Attribute} (h : r.Opens attrs) (hmore : r.Opens more) :
    r.Opens (attrs ++ more) := by
  cases attrs with
  | nil => exact hmore
  | cons a attrs => exact h

theorem opens_flatten {parts : List (List Attribute)} (h : ∀ attrs ∈ parts, r.Opens attrs) :
    r.Opens parts.flatten := by
  induction parts with
  | nil => exact nofun
  | cons attrs parts ih =>
    have hparts : r.Opens parts.flatten := ih fun a ha => h a (List.mem_cons_of_mem _ ha)
    exact (h attrs List.mem_cons_self).append hparts

theorem find_flatten (hr : r.OpensFirst) {parts : List (List Attribute)}
    (h : ∀ attrs ∈ parts, r.Opens attrs) : r.find parts.flatten = parts.flatMap r.find := by
  induction parts with
  | nil => rfl
  | cons attrs parts ih =>
    have hparts : ∀ a ∈ parts, r.Opens a := fun a ha => h a (List.mem_cons_of_mem _ ha)
    have hscan := scan_append hr (opens_flatten hparts) (Nat.zero_le attrs.length)
    rw [List.flatten_cons, List.flatMap_cons, ← ih hparts]
    exact hscan

/-! ## Entries of one type -/

/-- Where a type occurs in one entry at most, a rule finds what it finds in the joined
attributes. -/
theorem findIn_eq_find (r : Rule) {entries : List Entry} (h : (entries.map (·.kind)).Nodup) :
    r.findIn entries = r.find (attributesOf r.kind entries) := by
  induction entries with
  | nil => rfl
  | cons e rest ih =>
    rw [List.map_cons, List.nodup_cons] at h
    rw [attributesOf_cons]
    by_cases he : e.kind = r.kind
    · have hrest : rest.filter (·.kind == r.kind) = [] := by
        refine List.filter_eq_nil_iff.2 ?_
        intro e' he' hkind
        exact h.1 (List.mem_map.2
          ⟨e', he', (by simpa using hkind : e'.kind = r.kind).trans he.symm⟩)
      simp [findIn, attributesOf, he, hrest]
    · have hcons : r.findIn (e :: rest) = r.findIn rest := by simp [findIn, he]
      rw [hcons, ih h.2, if_neg he, List.nil_append]

/-- **A rule finds in flattened events what it finds in the events one by one**, if each event of
its type opens with its boundary and only its first item can fit there. -/
theorem findIn_flatten (hr : r.OpensFirst) {events : List Entry}
    (h : ∀ e ∈ events, e.kind = r.kind → r.Opens e.attributes) :
    r.findIn (flatten events) = r.findIn events := by
  obtain ⟨hattrs, hnodup⟩ := attributesOf_flatten r.kind events
  have hparts : ∀ attrs ∈ (events.filter (·.kind == r.kind)).map (·.attributes), r.Opens attrs := by
    intro attrs hmem
    obtain ⟨e, he, rfl⟩ := List.mem_map.1 hmem
    obtain ⟨hmem, hkind⟩ := List.mem_filter.1 he
    exact h e hmem (by simpa using hkind)
  rw [findIn_eq_find r hnodup, hattrs, attributesOf, List.flatMap_def, find_flatten hr hparts,
    List.flatMap_map]
  rfl

/-! ## The rules of pair actions and of token transfers -/

/-- The contract opens a sub-event, and the action that comes next has another key. -/
theorem opensFirst_of_items {first : RuleItem} {filter : Filter} {key : String}
    (hitems : r.items = [first, { key := actionKey, filter }]) (hboundary : r.boundary = some key)
    (hne : key ≠ "") (hkey : key ≠ actionKey) : r.OpensFirst := by
  intro i hi a ha
  rw [hitems] at hi
  obtain rfl := List.mem_singleton.1 hi
  have haction : a.key ≠ actionKey := (bounds_iff hboundary hne a).1 ha ▸ hkey
  simp [RuleItem.accepts, haction]

end Rule

/-! ## Events as nodes deliver them -/

/-- The event that a node delivers as a JSON value. -/
def eventOfJson (v : Json) : Except NodeError Entry := do
  eventOfParts (← eventParts v)

theorem mapM_eventOfJson_eq_ok {values : List Json} {events : List Entry} :
    values.mapM eventOfJson = .ok events ↔
      ∃ parts, values.mapM eventParts = .ok parts ∧ parts.mapM eventOfParts = .ok events :=
  mapM_bind_eq_ok

theorem entriesOfEvents_eq_ok {values : List Json} {entries : List Entry} :
    entriesOfEvents values = .ok entries ↔
      ∃ events, values.mapM eventOfJson = .ok events ∧ flatten events = entries := by
  simp only [entriesOfEvents, bind_eq_ok, pure_eq_ok, mapM_eventOfJson_eq_ok]
  constructor
  · rintro ⟨parts, hparts, events, hevents, rfl⟩
    exact ⟨events, ⟨parts, hparts, hevents⟩, rfl⟩
  · rintro ⟨events, ⟨parts, hparts, hevents⟩, rfl⟩
    exact ⟨parts, hparts, events, hevents, rfl⟩

/-- An attribute as nodes write it. -/
def Attribute.toJson (a : Attribute) : Json :=
  .obj [("key", .str a.key), ("value", .str a.value)]

/-- An event as nodes write it. -/
def Entry.toJson (e : Entry) : Json :=
  .obj [("type", .str e.kind), ("attributes", .arr (e.attributes.map Attribute.toJson))]

theorem Json.string_ofString (s : String) : (Json.str s).string = .ok s := by
  simp [Json.string]

/-- An empty text counts as absent, and what is absent is read as empty. -/
theorem Json.getD_filter_isTruthy (s : String) :
    ((some (Json.str s)).filter Json.isTruthy).getD (.str "") = .str s := by
  by_cases h : s = ""
  · subst h
    rfl
  · have htruthy : (Json.str s).isTruthy = true := by
      simpa [Json.isTruthy, Text.isEmpty, Text.ofString] using h
    rw [Option.filter_some, if_pos htruthy, Option.getD_some]

theorem Attribute.ofJson_toJson (a : Attribute) : Attribute.ofJson a.toJson = .ok a := by
  have hvalue : (((Members.present? [("key", .str a.key), ("value", .str a.value)] "value").getD
      (.str "")).string) = .ok a.value := by
    show (((some (Json.str a.value)).filter Json.isTruthy).getD (.str "")).string = _
    rw [Json.getD_filter_isTruthy, Json.string_ofString]
  refine bind_eq_ok.2 ⟨_, rfl, bind_eq_ok.2 ⟨a.key, ?_, bind_eq_ok.2 ⟨a.value, hvalue, rfl⟩⟩⟩
  exact Json.string_ofString a.key

theorem eventOfJson_toJson (e : Entry) : eventOfJson e.toJson = .ok e := by
  have hitems : Json.elementsOf [("type", .str e.kind),
      ("attributes", .arr (e.attributes.map Attribute.toJson))] "attributes" =
        .ok (e.attributes.map Attribute.toJson) := by
    cases e.attributes <;> rfl
  have hattributes : (e.attributes.map Attribute.toJson).mapM Attribute.ofJson =
      .ok e.attributes := by
    rw [mapM_eq_ok, List.forall₂_map_left_iff]
    exact List.forall₂_same.2 fun a _ => a.ofJson_toJson
  refine bind_eq_ok.2 ⟨(.str e.kind, e.attributes), ?_, ?_⟩
  · exact bind_eq_ok.2 ⟨_, rfl, bind_eq_ok.2 ⟨_, hitems, bind_eq_ok.2 ⟨_, hattributes, rfl⟩⟩⟩
  · exact bind_eq_ok.2 ⟨e.kind, Json.string_ofString e.kind, rfl⟩

theorem mapM_eventOfJson_toJson (events : List Entry) :
    (events.map Entry.toJson).mapM eventOfJson = .ok events := by
  rw [mapM_eq_ok, List.forall₂_map_left_iff]
  exact List.forall₂_same.2 fun e _ => eventOfJson_toJson e

/-- **Flattening is invisible to the rules of pair actions and of token transfers.** If each event
of the type opens with the key of the contract, and this is not the key of the action, then these
rules find in what is read from a node what they find in its events one by one. -/
theorem findIn_of_read_events {values : List Json} {events : List Entry} {r : Rule}
    {kind key : String}
    (hr : r = .tokenTransfer kind key ∨ ∃ pairs, r = .pairAction pairs kind key)
    (hchecked : r.checked = .ok r) (hkey : key ≠ actionKey)
    (hread : values.mapM eventOfJson = .ok events)
    (hopens : ∀ e ∈ events, e.kind = kind → ∀ a ∈ e.attributes.head?, a.key = key) :
    entriesOfEvents values = .ok (flatten events) ∧
      r.findIn (flatten events) =
        (events.filter (·.kind == kind)).flatMap fun e => r.find e.attributes := by
  refine ⟨entriesOfEvents_eq_ok.2 ⟨events, hread, rfl⟩, ?_⟩
  obtain ⟨hkind, hboundary, first, filter, hitems, hfirst⟩ : r.kind = kind ∧ r.boundary = some key ∧
      ∃ first filter, r.items = [first, { key := actionKey, filter }] ∧ first.key = key := by
    rcases hr with rfl | ⟨pairs, rfl⟩
    · exact ⟨rfl, rfl, _, _, rfl, rfl⟩
    · exact ⟨rfl, rfl, _, _, rfl, rfl⟩
  have hne : key ≠ "" := by
    rintro rfl
    simp [Rule.checked, Rule.keys, hitems, hfirst] at hchecked
  have hbounds : ∀ e ∈ events, e.kind = r.kind → ∀ a ∈ e.attributes.head?, r.bounds a :=
    fun e he hek a ha => (Rule.bounds_iff hboundary hne a).2 (hopens e he (hek.trans hkind) a ha)
  rw [Rule.findIn_flatten (Rule.opensFirst_of_items hitems hboundary hne hkey) hbounds, Rule.findIn,
    hkind]

/-- Two swaps of which the second is cut short, among events of other types. -/
def interleavedEvents : List Entry :=
  [{ kind := "message", attributes := [⟨"sender", "terra1user"⟩] },
    { kind := "wasm",
      attributes := [⟨"_contract_address", "terra1pair"⟩, ⟨"action", "swap"⟩,
        ⟨"offer_asset", "uluna"⟩, ⟨"_contract_address", "terra1pair"⟩] },
    { kind := "transfer", attributes := [⟨"action", "swap"⟩] },
    { kind := "wasm" },
    { kind := "wasm",
      attributes := [⟨"_contract_address", "terra1pair"⟩, ⟨"action", "withdraw_liquidity"⟩] }]

theorem findIn_interleavedEvents :
    (Rule.pairAction ["terra1pair"] "wasm" contractKey).findIn (flatten interleavedEvents) =
      [[⟨"_contract_address", "terra1pair"⟩, ⟨"action", "swap"⟩, ⟨"offer_asset", "uluna"⟩],
        [⟨"_contract_address", "terra1pair"⟩, ⟨"action", "withdraw_liquidity"⟩]] := by
  have h := findIn_of_read_events
    (.inr ⟨["terra1pair"], rfl⟩ :
      Rule.pairAction ["terra1pair"] "wasm" contractKey = .tokenTransfer "wasm" contractKey ∨ _)
    (by decide) (by decide) (mapM_eventOfJson_toJson interleavedEvents) (by decide)
  rw [h.2]
  decide

/-- Two events of which neither is a sub-event of a pair. -/
def halvedEvents : List Entry :=
  [{ kind := "wasm", attributes := [⟨"action", "terra1pair"⟩] },
    { kind := "wasm", attributes := [⟨"action", "swap"⟩] }]

/-- **If the contract is looked for under the key of the action, a rule can find something that is
in no event**: the contract in one and the action in the next. -/
theorem found_across_events :
    let r := Rule.pairAction ["terra1pair"] "wasm" actionKey
    r.checked = .ok r ∧ (halvedEvents.map Entry.toJson).mapM eventOfJson = .ok halvedEvents ∧
      (∀ e ∈ halvedEvents, e.kind = "wasm" → ∀ a ∈ e.attributes.head?, a.key = actionKey) ∧
      r.findIn (flatten halvedEvents) = [[⟨"action", "terra1pair"⟩, ⟨"action", "swap"⟩]] ∧
      ((halvedEvents.filter (·.kind == "wasm")).flatMap fun e => r.find e.attributes) = [] := by
  refine ⟨by decide, mapM_eventOfJson_toJson halvedEvents, by decide, by decide, by decide⟩

end PoolLedger
