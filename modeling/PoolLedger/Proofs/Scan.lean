import Mathlib.Data.List.Basic
import PoolLedger.Event.Scan

/-!
# What a rule finds

The attributes that a rule finds fit its items one by one, and without a boundary there are as
many of them as items (`mem_find`). In several entries a rule finds what it finds in one of
its type (`mem_findIn`).
-/

namespace PoolLedger.Rule

theorem length_le_of_fits {items : List RuleItem} {attrs : List Attribute} (h : fits items attrs) :
    items.length ≤ attrs.length := by
  induction items generalizing attrs with
  | nil => exact Nat.zero_le _
  | cons i items ih =>
    cases attrs with
    | nil => cases h
    | cons a attrs =>
      simp only [fits, Bool.and_eq_true] at h
      simpa using ih h.2

theorem fits_take {items : List RuleItem} {attrs : List Attribute} (h : fits items attrs) {n : Nat}
    (hn : items.length ≤ n) : fits items (attrs.take n) := by
  induction items generalizing attrs n with
  | nil => rfl
  | cons i items ih =>
    cases attrs with
    | nil => cases h
    | cons a attrs =>
      obtain ⟨n, rfl⟩ : ∃ k, n = k + 1 := ⟨n - 1, by simp only [List.length_cons] at hn; omega⟩
      simp only [fits, Bool.and_eq_true, List.take_succ_cons] at h ⊢
      exact ⟨h.1, ih h.2 (by simpa using hn)⟩

theorem length_le_extent (r : Rule) (attrs : List Attribute) : r.items.length ≤ r.extent attrs := by
  unfold extent
  split <;> simp

theorem extent_of_boundary_none {r : Rule} (h : r.boundary = none) (attrs : List Attribute) :
    r.extent attrs = r.items.length := by
  simp [extent, h]

theorem extent_le_length {r : Rule} {attrs : List Attribute}
    (hlen : r.items.length ≤ attrs.length) :
    r.extent attrs ≤ attrs.length := by
  unfold extent
  split
  · exact hlen
  · exact hlen
  · have htake := (List.takeWhile_prefix (fun a => !r.bounds a)
      (l := attrs.drop r.items.length)).length_le
    rw [List.length_drop] at htake
    dsimp only
    omega

theorem bounds_iff {r : Rule} {key : String} (h : r.boundary = some key) (hne : key ≠ "")
    (a : Attribute) :
    r.bounds a ↔ a.key = key := by
  unfold bounds
  rw [h]
  split
  · simp_all
  · simp_all
  · simp_all

theorem mem_scan {r : Rule} {skip : Nat} {attrs m : List Attribute} (h : m ∈ r.scan skip attrs) :
    fits r.items m ∧ (r.boundary = none → m.length = r.items.length) := by
  induction attrs generalizing skip with
  | nil => cases skip <;> cases h
  | cons a rest ih =>
    cases skip with
    | succ skip => exact ih h
    | zero =>
      rw [scan] at h
      split at h
      · rename_i hfits
        rcases List.mem_cons.1 h with rfl | h
        · refine ⟨fits_take hfits (r.length_le_extent _), ?_⟩
          intro hb
          rw [extent_of_boundary_none hb, List.length_take]
          exact Nat.min_eq_left (length_le_of_fits hfits)
        · exact ih h
      · exact ih h

theorem mem_find {r : Rule} {attrs m : List Attribute} (h : m ∈ r.find attrs) :
    fits r.items m ∧ (r.boundary = none → m.length = r.items.length) :=
  mem_scan h

theorem sublist_of_mem_scan {r : Rule} {skip : Nat} {attrs m : List Attribute}
    (h : m ∈ r.scan skip attrs) : m.Sublist attrs := by
  induction attrs generalizing skip with
  | nil => cases skip <;> cases h
  | cons a rest ih =>
    cases skip with
    | succ skip => exact (ih h).cons a
    | zero =>
      rw [scan] at h
      split at h
      · rcases List.mem_cons.1 h with rfl | h
        · exact List.take_sublist _ _
        · exact (ih h).cons a
      · exact (ih h).cons a

theorem sublist_of_mem_find {r : Rule} {attrs m : List Attribute} (h : m ∈ r.find attrs) :
    m.Sublist attrs :=
  sublist_of_mem_scan h

/-- Where items fit as many attributes as there are items, the keys are those of the items. -/
theorem keys_of_fits {items : List RuleItem} {attrs : List Attribute} (h : fits items attrs)
    (hlen : attrs.length = items.length) : attrs.map (·.key) = items.map (·.key) := by
  induction items generalizing attrs with
  | nil => rw [List.eq_nil_of_length_eq_zero hlen, List.map_nil, List.map_nil]
  | cons i items ih =>
    cases attrs with
    | nil => cases h
    | cons a attrs =>
      simp only [fits, RuleItem.accepts, Bool.and_eq_true, beq_iff_eq] at h
      rw [List.map_cons, List.map_cons, h.1.1, ih h.2 (Nat.succ.inj hlen)]

theorem mem_findIn {r : Rule} {entries : List Entry} {m : List Attribute} :
    m ∈ r.findIn entries ↔ ∃ e ∈ entries, e.kind = r.kind ∧ m ∈ r.find e.attributes := by
  simp only [findIn, List.mem_flatMap, List.mem_filter, beq_iff_eq, and_assoc]

theorem fits_of_mem_findIn {r : Rule} {entries : List Entry} {m : List Attribute}
    (h : m ∈ r.findIn entries) :
    fits r.items m ∧ (r.boundary = none → m.length = r.items.length) := by
  obtain ⟨e, -, -, hm⟩ := mem_findIn.1 h
  exact mem_find hm

theorem findIn_cons (r : Rule) (e : Entry) (entries : List Entry) :
    r.findIn (e :: entries) = r.findIn [e] ++ r.findIn entries := by
  by_cases h : e.kind = r.kind <;> simp [findIn, h]

theorem mem_attributes_of_mem_findIn {r : Rule} {entries : List Entry} {m : List Attribute}
    (h : m ∈ r.findIn entries) {a : Attribute} (ha : a ∈ m) : ∃ e ∈ entries, a ∈ e.attributes := by
  obtain ⟨e, he, -, hm⟩ := mem_findIn.1 h
  exact ⟨e, he, (sublist_of_mem_find hm).subset ha⟩

theorem findIn_eq_nil {r : Rule} {first : RuleItem} {items : List RuleItem}
    (hitems : r.items = first :: items) {entries : List Entry}
    (h : ∀ e ∈ entries, ∀ a ∈ e.attributes, first.accepts a = false) : r.findIn entries = [] := by
  refine List.eq_nil_iff_forall_not_mem.2 ?_
  intro m hm
  have hfits := (fits_of_mem_findIn hm).1
  rw [hitems] at hfits
  cases m with
  | nil => cases hfits
  | cons a rest =>
    obtain ⟨e, he, ha⟩ := mem_attributes_of_mem_findIn hm List.mem_cons_self
    simp [fits, h e he a ha] at hfits

end PoolLedger.Rule
