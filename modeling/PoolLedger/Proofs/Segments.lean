import PoolLedger.Proofs.SubEvents

/-!
# Segments

The key that names the contract cuts the attributes of an entry into segments: only the first
attribute of a segment may have the key, and it does in all segments but the first (`AreSegments`).
The rules of pair actions and of token transfers find the segments that fit
(`Rule.find_eq_filter_segments`). A rule that names a contract and has no boundary finds the front
parts of them (`Rule.find_eq_fronts`).
-/

namespace PoolLedger

/-- Only the first attribute of a part may have the key, and it does in all parts but the first. -/
structure AreSegments (key : String) (parts : List (List Attribute)) : Prop where
  behind : ∀ part ∈ parts, ∀ a ∈ part.tail, a.key ≠ key
  front : ∀ part ∈ parts.tail, ∀ a ∈ part.head?, a.key = key

/-- What each element of a chain asks of the next one holds of all behind the first. -/
theorem forall_mem_tail_of_isChain {α : Type} {P : α → Prop} {l : List α}
    (h : l.IsChain fun _ b => P b) :
    ∀ b ∈ l.tail, P b := by
  induction l with
  | nil => exact nofun
  | cons a l ih =>
    cases l with
    | nil => exact nofun
    | cons b l =>
      obtain ⟨hb, hrest⟩ := List.isChain_cons_cons.1 h
      exact List.forall_mem_cons.2 ⟨hb, ih hrest⟩

theorem areSegments_segments (key : String) (attrs : List Attribute) :
    AreSegments key (segments key attrs) where
  behind part hpart := forall_mem_tail_of_isChain <|
    (List.isChain_of_mem_splitBy hpart).imp fun _ b hb => by simpa using hb
  front := forall_mem_tail_of_isChain <|
    (List.isChain_getLast_head_splitBy _ attrs).imp fun part next h a ha => by
      obtain ⟨-, hne, hopens⟩ := h
      rw [List.head?_eq_some_head hne] at ha
      obtain rfl := Option.some.inj ha
      simpa using hopens

theorem flatten_segments (key : String) (attrs : List Attribute) :
    (segments key attrs).flatten = attrs :=
  List.flatten_splitBy _ attrs

namespace Rule

variable {r : Rule} {key : String}

theorem IsOfContracts.opensFirst (hr : r.IsOfContracts key) : r.OpensFirst := by
  obtain ⟨first, filter, hitems⟩ := hr.items
  exact opensFirst_of_items hitems hr.boundary hr.key_ne hr.key_ne_action

/-- In joined parts of which only the first attributes can name a contract, the parts that fit are
found. -/
theorem find_flatten_of_areSegments (hr : r.IsOfContracts key) {parts : List (List Attribute)}
    (h : AreSegments key parts) : r.find parts.flatten = parts.filter (fits r.items) := by
  have hparts : parts.flatMap r.find = parts.filter (fits r.items) := by
    have hbehind := h.behind
    clear h
    induction parts with
    | nil => rfl
    | cons part parts ih =>
      obtain ⟨hpart, hrest⟩ := List.forall_mem_cons.1 hbehind
      rw [List.flatMap_cons, ih hrest, find_of_tail hr hpart, List.filter_cons]
      split <;> rfl
  cases parts with
  | nil => rfl
  | cons part parts =>
    have hopens : ∀ attrs ∈ parts, r.Opens attrs := fun attrs hattrs a ha =>
      (bounds_iff hr.boundary hr.key_ne a).2 (h.front attrs hattrs a ha)
    rw [← hparts, List.flatten_cons, List.flatMap_cons, ← find_flatten hr.opensFirst hopens]
    exact scan_append hr.opensFirst (opens_flatten hopens) (Nat.zero_le _)

/-- **The segments that fit are found, and nothing else.** -/
theorem find_eq_filter_segments (hr : r.IsOfContracts key) (attrs : List Attribute) :
    r.find attrs = (segments key attrs).filter (fits r.items) := by
  rw [← find_flatten_of_areSegments hr (areSegments_segments key attrs), flatten_segments]

/-- What is found names a contract in front only. -/
theorem key_ne_of_mem_find (hr : r.IsOfContracts key) {attrs m : List Attribute}
    (h : m ∈ r.find attrs) :
    ∀ a ∈ m.tail, a.key ≠ key := by
  rw [find_eq_filter_segments hr] at h
  exact (areSegments_segments key attrs).behind m (List.mem_of_mem_filter h)

theorem key_ne_of_mem_findIn (hr : r.IsOfContracts key) {entries : List Entry} {m : List Attribute}
    (h : m ∈ r.findIn entries) : ∀ a ∈ m.tail, a.key ≠ key := by
  obtain ⟨e, -, -, hm⟩ := mem_findIn.1 h
  exact key_ne_of_mem_find hr hm

/-! ## Rules without a boundary -/

/-- A rule without a boundary whose first item names a contract, and no other one does. -/
structure IsHeadedBy (r : Rule) (key : String) : Prop where
  boundary : r.boundary = none
  key_ne : key ≠ ""
  items : ∃ first others, r.items = first :: others ∧ first.key = key ∧ ∀ i ∈ others, i.key ≠ key

theorem accepts_eq_false_of_key_ne {i : RuleItem} {a : Attribute} (h : a.key ≠ i.key) :
    i.accepts a = false := by
  simp [RuleItem.accepts, h]

/-- Where the next sub-event opens with a contract, the items do not fit across its start. -/
theorem IsHeadedBy.fits_append (hr : r.IsHeadedBy key) {more : List Attribute}
    (hmore : ∀ a ∈ more.head?, a.key = key) (a : Attribute) (rest : List Attribute) :
    fits r.items (a :: rest ++ more) = fits r.items (a :: rest) := by
  -- The rule with the contract for a boundary has the same items.
  let bounded : Rule := { r with boundary := some key }
  have hbounds (b : Attribute) : bounded.bounds b ↔ b.key = key := bounds_iff rfl hr.key_ne b
  have hopens : bounded.Opens more := by
    intro b hb
    exact (hbounds b).2 (hmore b hb)
  refine fits_cons_append (r := bounded) ?_ hopens a rest
  intro i hi b hb
  obtain ⟨first, others, hitems, -, hothers⟩ := hr.items
  have hi : i ∈ others := by simpa [bounded, hitems] using hi
  apply accepts_eq_false_of_key_ne
  rw [(hbounds b).1 hb]
  exact (hothers i hi).symm

/-- In a part that names a contract in front only, the items fit at the front or nowhere. -/
theorem IsHeadedBy.find_append (hr : r.IsHeadedBy key) {part more : List Attribute}
    (hpart : ∀ a ∈ part.tail, a.key ≠ key) (hmore : ∀ a ∈ more.head?, a.key = key) :
    r.find (part ++ more) =
      (if fits r.items part then [part.take r.items.length] else []) ++ r.find more := by
  obtain ⟨first, others, hitems, hkey, -⟩ := hr.items
  -- Without the key of the contract nothing fits, whatever is in between.
  have hskip {attrs : List Attribute} (h : ∀ a ∈ attrs, a.key ≠ key) : r.find (attrs ++ more) =
      r.find more := by
    apply find_append_of_first hitems
    intro a ha
    apply accepts_eq_false_of_key_ne
    rw [hkey]
    exact h a ha
  cases part with
  | nil => rw [hitems]; rfl
  | cons a rest =>
    have hfits := hr.fits_append hmore a rest
    by_cases h : fits r.items (a :: rest)
    · have hlen := length_le_of_fits h
      have hdrop : ∀ b ∈ (a :: rest).drop r.items.length, b.key ≠ key := by
        intro b hb
        rw [hitems] at hb
        exact hpart b (List.mem_of_mem_drop hb)
      rw [if_pos h, List.singleton_append, ← hskip hdrop]
      conv_lhs => rw [← List.take_append_drop r.items.length (a :: rest), List.append_assoc]
      apply find_append_of_fits hr.boundary (List.length_take_of_le hlen)
      rw [← List.append_assoc, List.take_append_drop, hfits]
      exact h
    · rw [if_neg h, List.nil_append, List.cons_append,
        find_of_not_fits (by rw [← List.cons_append, hfits]; exact h)]
      exact hskip hpart

theorem key_of_mem_head?_flatten {parts : List (List Attribute)}
    (h : ∀ part ∈ parts, ∀ a ∈ part.head?, a.key = key) :
    ∀ a ∈ parts.flatten.head?, a.key = key := by
  induction parts with
  | nil => exact nofun
  | cons part parts ih =>
    obtain ⟨hpart, hparts⟩ := List.forall_mem_cons.1 h
    cases part with
    | nil => exact ih hparts
    | cons a rest => exact hpart

/-- **The front parts of the segments that fit are found, and nothing else.** -/
theorem find_eq_fronts (hr : r.IsHeadedBy key) (attrs : List Attribute) :
    r.find attrs = ((segments key attrs).filter (fits r.items)).map (·.take r.items.length) := by
  have hjoined (parts : List (List Attribute)) (h : AreSegments key parts) :
      r.find parts.flatten = (parts.filter (fits r.items)).map (·.take r.items.length) := by
    induction parts with
    | nil => rfl
    | cons part parts ih =>
      have hrest : AreSegments key parts := by
        refine ⟨fun part hmem => h.behind part (List.mem_cons_of_mem _ hmem), fun part hmem => ?_⟩
        exact h.front part (List.mem_of_mem_tail hmem)
      have hmore : ∀ a ∈ parts.flatten.head?, a.key = key := key_of_mem_head?_flatten h.front
      rw [List.flatten_cons, hr.find_append (h.behind part List.mem_cons_self) hmore, ih hrest,
        List.filter_cons]
      split <;> rfl
  rw [← hjoined _ (areSegments_segments key attrs), flatten_segments]

end Rule

end PoolLedger
