import Mathlib.Data.List.Pairwise
import PoolLedger.Proofs.Scan

/-!
# Where a rule finds its matches

A match of a rule is a *span* of the list: it starts where the items fit one by one (`Rule.FitsAt`)
and ends behind them, or, with a boundary, where the next sub-event opens (`Rule.EndsAt`).

**The spans** (`Rule.IsScan`). They are in order and disjoint, and no place at which the items fit
is outside all of them. This leaves no choice (`IsScan.unique`): a fit that comes before the next
span would have to be inside a span.

**The scan.** `Rule.find` gives the attributes of these spans (`find_spans`). It is proved along the
equations of `find`: at the front of the list there is either a match, and the scan goes on behind
it, or none, and it goes on with the next attribute.

**Segments.** With a boundary no two matches start in the same segment, whatever the items are:
between the starts of two matches there is the attribute at which the first one ends.
-/

namespace PoolLedger

/-- The places of a list from `start` up to, but not including, `stop`. -/
structure Span where
  start : Nat
  stop : Nat
deriving DecidableEq, Repr

/-- The attributes at the places of a span. -/
def Span.cut (s : Span) (attrs : List Attribute) : List Attribute :=
  (attrs.drop s.start).take (s.stop - s.start)

namespace Rule

/-- The key that opens the next sub-event, if there is one; the empty key opens none. -/
def boundaryKey? (r : Rule) : Option String :=
  r.boundary.filter (· ≠ "")

/-- The items of a rule fit the attributes from a place on, one by one. -/
def FitsAt (r : Rule) (attrs : List Attribute) (i : Nat) : Prop :=
  ∀ k item, r.items[k]? = some item → ∃ a, attrs[i + k]? = some a ∧ item.accepts a

/-- A match that starts at a place ends behind its items, or, with a boundary, at the first
attribute behind them that has the key, or else at the end of the list. -/
def EndsAt (r : Rule) (attrs : List Attribute) (start stop : Nat) : Prop :=
  match r.boundaryKey? with
  | none => stop = start + r.items.length
  | some key =>
    start + r.items.length ≤ stop ∧ stop ≤ attrs.length ∧
      (∀ i a, start + r.items.length ≤ i → i < stop → attrs[i]? = some a → a.key ≠ key) ∧
      (stop = attrs.length ∨ ∃ a, attrs[stop]? = some a ∧ a.key = key)

/-- The spans of all matches of a rule from a place on, from left to right. -/
structure IsScan (r : Rule) (attrs : List Attribute) (cursor : Nat) (spans : List Span) : Prop where
  fits : ∀ s ∈ spans, r.FitsAt attrs s.start
  ends : ∀ s ∈ spans, r.EndsAt attrs s.start s.stop
  proper : ∀ s ∈ spans, s.start < s.stop
  later : ∀ s ∈ spans, cursor ≤ s.start
  ordered : spans.Pairwise fun s t => s.stop ≤ t.start
  complete : ∀ i, cursor ≤ i → r.FitsAt attrs i → ∃ s ∈ spans, s.start ≤ i ∧ i < s.stop

/-- The number of sub-events that have opened at a place or before it, which tells in which
segment the place is. -/
def segment (key : String) (attrs : List Attribute) (i : Nat) : Nat :=
  (attrs.take (i + 1)).countP (·.key = key)

variable {r : Rule} {attrs : List Attribute}

/-! ## Fits -/

theorem fits_iff {items : List RuleItem} : fits items attrs ↔
    ∀ (k : Nat) (item : RuleItem), items[k]? = some item →
      ∃ a, attrs[k]? = some a ∧ item.accepts a := by
  induction items generalizing attrs with
  | nil => simp [fits]
  | cons first items ih =>
    cases attrs with
    | nil => simpa [fits] using ⟨0, first, rfl⟩
    | cons a attrs =>
      rw [fits, Bool.and_eq_true, ih]
      constructor
      · rintro ⟨ha, hrest⟩ k item hk
        cases k with
        | zero => exact ⟨a, rfl, Option.some.inj hk ▸ ha⟩
        | succ k => exact hrest k item hk
      · intro h
        obtain ⟨_, hfirst, ha⟩ := h 0 first rfl
        exact ⟨Option.some.inj hfirst ▸ ha, fun k item hk => h (k + 1) item hk⟩

theorem fitsAt_iff {i : Nat} : r.FitsAt attrs i ↔ fits r.items (attrs.drop i) := by
  simp only [fits_iff, List.getElem?_drop, FitsAt]

theorem length_items_pos (r : Rule) : 0 < r.items.length :=
  List.length_pos_of_ne_nil r.items_ne

theorem FitsAt.le_length {i : Nat} (h : r.FitsAt attrs i) : i + r.items.length ≤ attrs.length := by
  have hlen := length_le_of_fits (fitsAt_iff.1 h)
  have hpos := r.length_items_pos
  rw [List.length_drop] at hlen
  omega

/-! ## Ends -/

theorem boundaryKey?_eq_none :
    r.boundaryKey? = none ↔ r.boundary = none ∨ r.boundary = some "" := by
  cases h : r.boundary <;> simp [boundaryKey?, h]

theorem boundaryKey?_eq_some {key : String} :
    r.boundaryKey? = some key ↔ r.boundary = some key ∧ key ≠ "" := by
  simp [boundaryKey?, Option.filter_eq_some_iff]

theorem extent_of_boundaryKey?_none (h : r.boundaryKey? = none) (attrs : List Attribute) :
    r.extent attrs = r.items.length := by
  rcases boundaryKey?_eq_none.1 h with h | h <;> simp [extent, h]

theorem extent_of_boundaryKey?_some {key : String} (h : r.boundaryKey? = some key)
    (attrs : List Attribute) : r.extent attrs = r.items.length +
      ((attrs.drop r.items.length).takeWhile fun a => a.key ≠ key).length := by
  obtain ⟨hboundary, hne⟩ := boundaryKey?_eq_some.1 h
  have hbounds : ∀ a : Attribute, (!r.bounds a) = decide (a.key ≠ key) := by
    intro a
    rw [Bool.eq_iff_iff, Bool.not_eq_true', ← Bool.not_eq_true, bounds_iff hboundary hne]
    simp
  unfold extent
  simp only [hbounds]
  split <;> simp_all

theorem length_takeWhile {α : Type} (q : α → Bool) (l : List α) :
    (∀ k a, k < (l.takeWhile q).length → l[k]? = some a → q a) ∧
      ((l.takeWhile q).length = l.length ∨
        ∃ a, l[(l.takeWhile q).length]? = some a ∧ q a = false) := by
  induction l with
  | nil => exact ⟨nofun, .inl rfl⟩
  | cons b l ih =>
    cases hb : q b with
    | false => exact ⟨by simp [hb], .inr ⟨b, by simp [hb], hb⟩⟩
    | true =>
      rw [List.takeWhile_cons_of_pos hb, List.length_cons, List.length_cons]
      refine ⟨fun k a hk ha => ?_, ih.2.imp (congrArg (· + 1)) id⟩
      cases k with
      | zero => exact Option.some.inj ha ▸ hb
      | succ k => exact ih.1 k a (Nat.lt_of_succ_lt_succ hk) ha

/-- What a match takes in ends where a match ends. -/
theorem endsAt_extent {start : Nat} (h : r.FitsAt attrs start) :
    r.EndsAt attrs start (start + r.extent (attrs.drop start)) := by
  have hlen := extent_le_length (length_le_of_fits (fitsAt_iff.1 h))
  have hfits := h.le_length
  rw [List.length_drop] at hlen
  unfold EndsAt
  split
  · rename_i hkey
    rw [extent_of_boundaryKey?_none hkey]
  · rename_i key hkey
    -- The boundary is looked for behind the items only.
    obtain ⟨hbefore, hat⟩ := length_takeWhile (fun a : Attribute => decide (a.key ≠ key))
      (attrs.drop (start + r.items.length))
    rw [extent_of_boundaryKey?_some hkey, List.drop_drop] at hlen ⊢
    generalize ((attrs.drop (start + r.items.length)).takeWhile fun a => a.key ≠ key).length =
      more at *
    rw [← Nat.add_assoc]
    simp only [List.getElem?_drop, List.length_drop, decide_eq_true_eq, decide_eq_false_iff_not,
      not_not] at hbefore hat
    refine ⟨Nat.le_add_right _ _, by omega, ?_, hat.imp_left fun hmore => by omega⟩
    intro i a hi hlt ha
    obtain ⟨k, rfl⟩ := Nat.exists_eq_add_of_le hi
    exact hbefore k a (by omega) ha

/-- Where a match ends is decided by where it starts. -/
theorem EndsAt.unique {start stop stop' : Nat} (h : r.EndsAt attrs start stop)
    (h' : r.EndsAt attrs start stop') : stop = stop' := by
  unfold EndsAt at h h'
  cases hkey : r.boundaryKey? with
  | none =>
    rw [hkey] at h h'
    exact h.trans h'.symm
  | some key =>
    rw [hkey] at h h'
    obtain ⟨hle, hlen, hbefore, hat⟩ := h
    obtain ⟨hle', hlen', hbefore', hat'⟩ := h'
    -- The smaller end has the key, or is the end of the list.
    rcases Nat.lt_trichotomy stop stop' with hlt | heq | hlt
    · rcases hat with rfl | ⟨a, ha, hopens⟩
      · omega
      · exact absurd hopens (hbefore' stop a hle hlt ha)
    · exact heq
    · rcases hat' with rfl | ⟨a, ha, hopens⟩
      · omega
      · exact absurd hopens (hbefore stop' a hle' hlt ha)

theorem EndsAt.length_le {start stop : Nat} (h : r.EndsAt attrs start stop) :
    start + r.items.length ≤ stop := by
  unfold EndsAt at h
  split at h
  · exact Nat.le_of_eq h.symm
  · exact h.1

/-! ## The equations of the scan -/

theorem scan_eq_find_drop (skip : Nat) : r.scan skip attrs = r.find (attrs.drop skip) := by
  induction attrs generalizing skip with
  | nil => cases skip <;> rfl
  | cons a rest ih =>
    cases skip with
    | zero => rfl
    | succ skip => exact ih skip

theorem find_of_fits (h : fits r.items attrs) :
    r.find attrs = attrs.take (r.extent attrs) :: r.find (attrs.drop (r.extent attrs)) := by
  have hpos : 0 < r.extent attrs := Nat.lt_of_lt_of_le r.length_items_pos (r.length_le_extent attrs)
  cases attrs with
  | nil => exact absurd (length_le_of_fits h) (Nat.not_le_of_lt r.length_items_pos)
  | cons a rest =>
    rw [find, scan, if_pos h]
    dsimp only
    rw [scan_eq_find_drop, ← List.drop_succ_cons (a := a), Nat.sub_add_cancel hpos]

theorem find_of_not_fits (h : ¬fits r.items attrs) : r.find attrs = r.find (attrs.drop 1) := by
  cases attrs with
  | nil => rfl
  | cons a rest =>
    rw [find, scan, if_neg h]
    rfl

/-! ## The spans of a scan -/

theorem IsScan.nil {cursor : Nat} (h : attrs.length ≤ cursor) : r.IsScan attrs cursor [] where
  fits := nofun
  ends := nofun
  proper := nofun
  later := nofun
  ordered := .nil
  complete i hi hfits := by
    have hlen := hfits.le_length
    have hpos := r.length_items_pos
    omega

theorem IsScan.skip {cursor : Nat} {spans : List Span} (h : r.IsScan attrs (cursor + 1) spans)
    (hnot : ¬r.FitsAt attrs cursor) : r.IsScan attrs cursor spans where
  fits := h.fits
  ends := h.ends
  proper := h.proper
  later s hs := Nat.le_of_succ_le (h.later s hs)
  ordered := h.ordered
  complete i hi hfits := by
    have hne : cursor ≠ i := fun heq => hnot (heq ▸ hfits)
    exact h.complete i (by omega) hfits

theorem IsScan.cons {cursor stop : Nat} {spans : List Span} (h : r.IsScan attrs stop spans)
    (hfits : r.FitsAt attrs cursor) (hends : r.EndsAt attrs cursor stop) :
    r.IsScan attrs cursor ({ start := cursor, stop } :: spans) := by
  have hlt : cursor < stop :=
    Nat.lt_of_lt_of_le (Nat.lt_add_of_pos_right r.length_items_pos) hends.length_le
  refine ⟨?_, ?_, ?_, ?_, ?_, ?_⟩
  · exact List.forall_mem_cons.2 ⟨hfits, h.fits⟩
  · exact List.forall_mem_cons.2 ⟨hends, h.ends⟩
  · exact List.forall_mem_cons.2 ⟨hlt, h.proper⟩
  · exact List.forall_mem_cons.2
      ⟨Nat.le_refl _, fun s hs => Nat.le_trans (Nat.le_of_lt hlt) (h.later s hs)⟩
  · exact .cons h.later h.ordered
  · intro i hi hfit
    by_cases hin : i < stop
    · exact ⟨_, List.mem_cons_self, hi, hin⟩
    · obtain ⟨s, hs, hcovers⟩ := h.complete i (by omega) hfit
      exact ⟨s, List.mem_cons_of_mem _ hs, hcovers⟩

theorem IsScan.tail {cursor : Nat} {s : Span} {spans : List Span}
    (h : r.IsScan attrs cursor (s :: spans)) : r.IsScan attrs s.stop spans := by
  obtain ⟨hbefore, hordered⟩ := List.pairwise_cons.1 h.ordered
  refine ⟨?_, ?_, ?_, hbefore, hordered, ?_⟩
  · exact fun t ht => h.fits t (List.mem_cons_of_mem _ ht)
  · exact fun t ht => h.ends t (List.mem_cons_of_mem _ ht)
  · exact fun t ht => h.proper t (List.mem_cons_of_mem _ ht)
  · intro i hi hfit
    have hstart := h.later s List.mem_cons_self
    have hproper := h.proper s List.mem_cons_self
    obtain ⟨t, ht, hcovers⟩ := h.complete i (by omega) hfit
    rcases List.mem_cons.1 ht with rfl | ht
    · omega
    · exact ⟨t, ht, hcovers⟩

/-- The first span starts no later than any place at which the items fit. -/
theorem IsScan.head_le {cursor i : Nat} {s : Span} {spans : List Span}
    (h : r.IsScan attrs cursor (s :: spans)) (hi : cursor ≤ i) (hfits : r.FitsAt attrs i) :
    s.start ≤ i := by
  obtain ⟨t, ht, hle, -⟩ := h.complete i hi hfits
  rcases List.mem_cons.1 ht with rfl | ht
  · exact hle
  · have hbefore := (List.pairwise_cons.1 h.ordered).1 t ht
    have hproper := h.proper s List.mem_cons_self
    omega

/-- **The conditions on the spans leave no choice.** -/
theorem IsScan.unique {cursor : Nat} {spans spans' : List Span} (h : r.IsScan attrs cursor spans)
    (h' : r.IsScan attrs cursor spans') : spans = spans' := by
  induction spans generalizing cursor spans' with
  | nil =>
    cases spans' with
    | nil => rfl
    | cons t rest' =>
      obtain ⟨_, hmem, -⟩ := h.complete t.start (h'.later t List.mem_cons_self)
        (h'.fits t List.mem_cons_self)
      cases hmem
  | cons s rest ih =>
    have hs := h.fits s List.mem_cons_self
    have hlater := h.later s List.mem_cons_self
    cases spans' with
    | nil =>
      obtain ⟨_, hmem, -⟩ := h'.complete s.start hlater hs
      cases hmem
    | cons t rest' =>
      -- Each of the two is the first fit at or behind the cursor.
      have hstart : s.start = t.start := Nat.le_antisymm
        (h.head_le (h'.later t List.mem_cons_self) (h'.fits t List.mem_cons_self))
        (h'.head_le hlater hs)
      have hstop : s.stop = t.stop := (h.ends s List.mem_cons_self).unique
        (hstart ▸ h'.ends t List.mem_cons_self)
      have hst : s = t := by
        cases s
        cases t
        simp_all
      subst hst
      rw [ih h.tail h'.tail]

/-- From any place on, a rule finds the attributes of the spans of its matches. -/
theorem exists_isScan (r : Rule) (attrs : List Attribute) (cursor : Nat) :
    ∃ spans, r.IsScan attrs cursor spans ∧
      r.find (attrs.drop cursor) = spans.map (·.cut attrs) := by
  by_cases hend : attrs.length ≤ cursor
  · refine ⟨[], .nil hend, ?_⟩
    rw [List.drop_eq_nil_of_le hend]
    rfl
  by_cases hfits : r.FitsAt attrs cursor
  · have hpos := Nat.lt_of_lt_of_le r.length_items_pos (r.length_le_extent (attrs.drop cursor))
    obtain ⟨spans, hscan, hfind⟩ := exists_isScan r attrs (cursor + r.extent (attrs.drop cursor))
    refine ⟨_, hscan.cons hfits (endsAt_extent hfits), ?_⟩
    rw [find_of_fits (fitsAt_iff.1 hfits), List.drop_drop, hfind, List.map_cons, Span.cut,
      Nat.add_sub_cancel_left]
  · obtain ⟨spans, hscan, hfind⟩ := exists_isScan r attrs (cursor + 1)
    refine ⟨spans, hscan.skip hfits, ?_⟩
    rw [find_of_not_fits (mt fitsAt_iff.2 hfits), List.drop_drop, hfind]
termination_by attrs.length - cursor

/-! ## Segments -/

theorem segment_lt {key : String} {i j k : Nat} {a : Attribute} (hij : i < j) (hjk : j ≤ k)
    (ha : attrs[j]? = some a) (hkey : a.key = key) : segment key attrs i < segment key attrs k := by
  have hup : segment key attrs i ≤ (attrs.take j).countP (·.key = key) :=
    (List.take_sublist_take_left hij).countP_le
  have hthis : segment key attrs j = (attrs.take j).countP (·.key = key) + 1 := by
    rw [segment, List.take_add_one, ha, List.countP_append]
    simp [hkey]
  have hdown : segment key attrs j ≤ segment key attrs k :=
    (List.take_sublist_take_left (Nat.succ_le_succ hjk)).countP_le
  omega

/-- The attribute at which a match ends opens a segment, if there is one. -/
theorem IsScan.segment_lt {cursor : Nat} {spans : List Span} (h : r.IsScan attrs cursor spans)
    {key : String} (hkey : r.boundaryKey? = some key) {s t : Span} (hs : s ∈ spans) (ht : t ∈ spans)
    (hst : s.stop ≤ t.start) : segment key attrs s.start < segment key attrs t.start := by
  have hends := h.ends s hs
  rw [EndsAt, hkey] at hends
  obtain ⟨-, -, -, hend | ⟨a, ha, hopens⟩⟩ := hends
  · have hlen := (h.fits t ht).le_length
    have hpos := r.length_items_pos
    omega
  · exact Rule.segment_lt (h.proper s hs) hst ha hopens

/-- **At most one match starts in each segment.** -/
theorem IsScan.eq_of_segment_eq {cursor : Nat} {spans : List Span} (h : r.IsScan attrs cursor spans)
    {key : String} (hkey : r.boundaryKey? = some key) {s t : Span} (hs : s ∈ spans) (ht : t ∈ spans)
    (hsame : segment key attrs s.start = segment key attrs t.start) : s = t := by
  by_contra hne
  have hapart : spans.Pairwise fun s t => s.stop ≤ t.start ∨ t.stop ≤ s.start :=
    h.ordered.imp .inl
  have : Std.Symm fun s t : Span => s.stop ≤ t.start ∨ t.stop ≤ s.start := ⟨fun _ _ => Or.symm⟩
  rcases hapart.forall hs ht hne with hst | hts
  · exact absurd hsame (Nat.ne_of_lt (h.segment_lt hkey hs ht hst))
  · exact absurd hsame.symm (Nat.ne_of_lt (h.segment_lt hkey ht hs hts))

/-- **A rule finds the attributes of the spans of its matches, and nothing else.** The spans are the
only ones that are in order and disjoint, start where the items fit, end where a match ends, and
leave no fit out. With a boundary, at most one of them starts in each segment. -/
theorem find_spans (r : Rule) (attrs : List Attribute) :
    ∃ spans, r.IsScan attrs 0 spans ∧ r.find attrs = spans.map (·.cut attrs) ∧
      (∀ spans', r.IsScan attrs 0 spans' → spans' = spans) ∧
      ∀ key, r.boundaryKey? = some key → ∀ s ∈ spans, ∀ t ∈ spans,
        segment key attrs s.start = segment key attrs t.start → s = t := by
  obtain ⟨spans, hscan, hfind⟩ := exists_isScan r attrs 0
  exact ⟨spans, hscan, hfind, fun spans' h => h.unique hscan,
    fun key hkey s hs t ht => hscan.eq_of_segment_eq hkey hs ht⟩

end Rule

end PoolLedger
