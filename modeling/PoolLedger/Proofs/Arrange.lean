import Mathlib.Data.List.Nodup
import Mathlib.Data.List.SplitBy
import PoolLedger.Event.Arrange

/-!
# Attributes put in order

Whatever the order into which attributes are put, none is lost and none comes up twice: `arrange`
gives a permutation of the attributes with one of the keys (`arrange_perm`), `sortSegments` one of
all attributes (`sortSegments_perm`).

If each of several events has every key once, `arrange` puts each of them into the order of the
keys and leaves them apart (`arrange_append`, `arrangeChunk_of_perm`). A single segment is
sorted as it stands (`sortSegments_of_single`), and what may stand before everything else stays
in front (`sortBy_cons_of_le`).

Sorting a segment forgets the order in which it was logged (`sortBy_sortedBefore_of_perm`), as long
as no key occurs twice. The keys come to stand in the same order in any case
(`map_key_sortBy_of_perm`).
-/

namespace PoolLedger

theorem arrangeChunks_perm (keys : List String) (fuel : Nat) (attrs : List Attribute) :
    (arrangeChunks keys fuel attrs).Perm attrs := by
  induction fuel generalizing attrs with
  | zero => exact .refl _
  | succ fuel ih =>
    rw [arrangeChunks]
    split
    · have hchunk : (arrangeChunk keys (attrs.take keys.length)).Perm (attrs.take keys.length) :=
        sortBy_perm _ _
      have hboth := hchunk.append (ih (attrs.drop keys.length))
      rwa [List.take_append_drop] at hboth
    · exact .refl _

theorem arrange_perm (keys : List String) (attrs : List Attribute) :
    (arrange keys attrs).Perm (attrs.filter fun a => keys.contains a.key) :=
  arrangeChunks_perm keys _ _

theorem sortSegments_perm (splitter : String) (attrs : List Attribute) :
    (sortSegments splitter attrs).Perm attrs := by
  have hsorted : (sortSegments splitter attrs).Perm (segments splitter attrs).flatten := by
    rw [sortSegments, List.flatMap_def]
    induction segments splitter attrs with
    | nil => exact .refl _
    | cons segment rest ih => exact (sortBy_perm _ segment).append ih
  rwa [segments, List.flatten_splitBy] at hsorted

/-! ## Sorted lists -/

section

variable {α : Type} {le : α → α → Bool} {a : α} {l : List α}

theorem sortBy_cons_of_le (h : ∀ b ∈ l, le a b) : sortBy le (a :: l) = a :: sortBy le l := by
  show insertBy le a (sortBy le l) = _
  cases hl : sortBy le l with
  | nil => rfl
  | cons b rest =>
    have hb : le a b := h b ((sortBy_perm le l).mem_iff.1 (hl ▸ List.mem_cons_self))
    rw [insertBy, if_pos hb]

/-- The first of those that may stand before everything else comes first. -/
theorem sortBy_append_cons_of_le {front back : List α} (hfront : ∀ b ∈ front, ¬le b a)
    (hback : ∀ b ∈ back, le a b) :
    sortBy le (front ++ a :: back) = a :: sortBy le (front ++ back) := by
  induction front with
  | nil => exact sortBy_cons_of_le hback
  | cons b front ih =>
    obtain ⟨hb, hfront⟩ := List.forall_mem_cons.1 hfront
    show insertBy le b (sortBy le (front ++ a :: back)) = _
    rw [ih hfront, insertBy, if_neg hb]
    rfl

theorem pairwise_insertBy (htotal : ∀ a b, le a b ∨ le b a)
    (htrans : ∀ a b c, le a b → le b c → le a c) (h : l.Pairwise fun a b => le a b) :
    (insertBy le a l).Pairwise fun a b => le a b := by
  induction l with
  | nil => exact List.pairwise_singleton _ a
  | cons b rest ih =>
    rw [List.pairwise_cons] at h
    rw [insertBy]
    split
    · rename_i hab
      refine .cons (fun c hc => ?_) (.cons h.1 h.2)
      rcases List.mem_cons.1 hc with rfl | hc
      · exact hab
      · exact htrans _ _ _ hab (h.1 c hc)
    · rename_i hab
      have hba : le b a := (htotal b a).resolve_right hab
      refine .cons (fun c hc => ?_) (ih h.2)
      rcases List.mem_cons.1 ((insertBy_perm le a rest).mem_iff.1 hc) with rfl | hc
      · exact hba
      · exact h.1 c hc

theorem pairwise_sortBy (htotal : ∀ a b, le a b ∨ le b a)
    (htrans : ∀ a b c, le a b → le b c → le a c) (l : List α) :
    (sortBy le l).Pairwise fun a b => le a b := by
  induction l with
  | nil => exact .nil
  | cons a l ih => exact pairwise_insertBy htotal htrans ih

end

/-! ## Chunks with every key once -/

theorem pairwise_arrangeChunk (keys : List String) (chunk : List Attribute) :
    (arrangeChunk keys chunk).Pairwise fun a b => lastPlace keys a.key ≤ lastPlace keys b.key := by
  have hsorted : (arrangeChunk keys chunk).Pairwise fun a b =>
      decide (lastPlace keys a.key ≤ lastPlace keys b.key) = true := by
    refine pairwise_sortBy (fun a b => ?_) (fun a b c hab hbc => ?_) chunk
    · simpa using Nat.le_total _ _
    · exact decide_eq_true (Nat.le_trans (of_decide_eq_true hab) (of_decide_eq_true hbc))
  exact hsorted.imp of_decide_eq_true

/-- The order of the keys is the only one into which a chunk with different keys is put. -/
theorem arrangeChunk_of_perm {keys : List String} {chunk ordered : List Attribute}
    (h : chunk.Perm ordered)
    (hordered : ordered.Pairwise fun a b => lastPlace keys a.key < lastPlace keys b.key) :
    arrangeChunk keys chunk = ordered := by
  have hperm : (arrangeChunk keys chunk).Perm ordered := (sortBy_perm _ chunk).trans h
  have hdistinct : (ordered.map fun a => lastPlace keys a.key).Nodup :=
    List.pairwise_map.2 (hordered.imp Nat.ne_of_lt)
  refine hperm.eq_of_pairwise (fun a b ha hb hab hba => ?_) (pairwise_arrangeChunk keys chunk)
    (hordered.imp Nat.le_of_lt)
  exact List.inj_on_of_nodup_map hdistinct (hperm.mem_iff.1 ha) hb (Nat.le_antisymm hab hba)

section

variable {keys : List String} {attrs : List Attribute}

theorem arrangeChunks_of_le_length (h : keys.length ≤ attrs.length) (fuel : Nat) :
    arrangeChunks keys (fuel + 1) attrs =
      arrangeChunk keys (attrs.take keys.length) ++
        arrangeChunks keys fuel (attrs.drop keys.length) :=
  if_pos h

theorem arrangeChunks_of_lt_length (h : attrs.length < keys.length) (fuel : Nat) :
    arrangeChunks keys fuel attrs = attrs := by
  cases fuel with
  | zero => rfl
  | succ fuel => exact if_neg (Nat.not_le_of_lt h)

/-- More fuel than attributes is of no use. -/
theorem arrangeChunks_succ (hkeys : keys ≠ []) {fuel : Nat} (h : attrs.length ≤ fuel) :
    arrangeChunks keys (fuel + 1) attrs = arrangeChunks keys fuel attrs := by
  have hpos : 0 < keys.length := List.length_pos_of_ne_nil hkeys
  induction fuel generalizing attrs with
  | zero =>
    have hlt : attrs.length < keys.length := by omega
    rw [arrangeChunks_of_lt_length hlt, arrangeChunks_of_lt_length hlt]
  | succ fuel ih =>
    by_cases hle : keys.length ≤ attrs.length
    · rw [arrangeChunks_of_le_length hle, arrangeChunks_of_le_length hle,
        ih (by rw [List.length_drop]; omega)]
    · rw [arrangeChunks_of_lt_length (Nat.lt_of_not_le hle),
        arrangeChunks_of_lt_length (Nat.lt_of_not_le hle)]

theorem arrangeChunks_of_le (hkeys : keys ≠ []) {fuel : Nat} (h : attrs.length ≤ fuel) :
    arrangeChunks keys fuel attrs = arrangeChunks keys attrs.length attrs := by
  induction fuel, h using Nat.le_induction with
  | base => rfl
  | succ fuel hle ih => rw [arrangeChunks_succ hkeys hle, ih]

/-- An event with every key once is a chunk of its own. -/
theorem arrange_append (hkeys : keys ≠ []) (more : List Attribute)
    (hlen : (attrs.filter fun a => keys.contains a.key).length = keys.length) :
    arrange keys (attrs ++ more) =
      arrangeChunk keys (attrs.filter fun a => keys.contains a.key) ++ arrange keys more := by
  have hpos : 0 < keys.length := List.length_pos_of_ne_nil hkeys
  unfold arrange
  dsimp only
  generalize hkept : attrs.filter (fun a => keys.contains a.key) = kept at hlen
  rw [List.filter_append, hkept, List.length_append, hlen]
  obtain ⟨fuel, hfuel⟩ : ∃ fuel, keys.length + (more.filter fun a => keys.contains a.key).length =
      fuel + 1 := ⟨_, (Nat.sub_add_cancel (by omega)).symm⟩
  have hle : keys.length ≤ (kept ++ more.filter fun a => keys.contains a.key).length := by
    rw [List.length_append, hlen]
    exact Nat.le_add_right _ _
  rw [hfuel, arrangeChunks_of_le_length hle, List.take_left' hlen, List.drop_left' hlen,
    arrangeChunks_of_le hkeys (by omega)]

/-! ## Single segments -/

/-- Attributes of which only the first opens a segment are sorted as they stand. -/
theorem sortSegments_of_single {splitter : String} {a : Attribute}
    (h : ∀ b ∈ attrs, b.key ≠ splitter) :
    sortSegments splitter (a :: attrs) = sortBy sortedBefore (a :: attrs) := by
  have hchain : (a :: attrs).IsChain fun _ b => (b.key != splitter) = true := by
    refine List.Pairwise.isChain (.cons (fun b hb => by simpa using h b hb) ?_)
    exact List.pairwise_of_forall_mem_list fun _ _ b hb => by simpa using h b hb
  rw [sortSegments, segments, List.splitBy_of_isChain (List.cons_ne_nil _ _) hchain]
  exact List.flatMap_singleton ..

end

/-! ## The order of a sorted segment -/

theorem sortedBefore_iff {a b : Attribute} :
    sortedBefore a b ↔ b.key = indexKey ∨ a.key ≠ indexKey ∧ a.key ≤ b.key := by
  unfold sortedBefore
  split <;> simp_all

theorem sortedBefore_total (a b : Attribute) : sortedBefore a b ∨ sortedBefore b a := by
  rw [sortedBefore_iff, sortedBefore_iff]
  have htotal := String.le_total a.key b.key
  tauto

theorem sortedBefore_trans (a b c : Attribute) (hab : sortedBefore a b) (hbc : sortedBefore b c) :
    sortedBefore a c := by
  rw [sortedBefore_iff] at *
  rcases hbc with hc | ⟨hb, hbc⟩
  · exact .inl hc
  · rcases hab with hb' | ⟨ha, hab⟩
    · exact absurd hb' hb
    · exact .inr ⟨ha, String.le_trans hab hbc⟩

theorem key_eq_of_sortedBefore {a b : Attribute} (hab : sortedBefore a b) (hba : sortedBefore b a) :
    a.key = b.key := by
  rw [sortedBefore_iff] at *
  rcases hab with hb | ⟨ha, hab⟩
  · rcases hba with ha | ⟨hb', -⟩
    · exact ha.trans hb.symm
    · exact absurd hb hb'
  · rcases hba with ha' | ⟨-, hba⟩
    · exact absurd ha' ha
    · exact String.le_antisymm hab hba

theorem pairwise_sortBy_sortedBefore (attrs : List Attribute) :
    (sortBy sortedBefore attrs).Pairwise fun a b => sortedBefore a b :=
  pairwise_sortBy sortedBefore_total sortedBefore_trans attrs

section

variable {attrs attrs' : List Attribute} (h : attrs.Perm attrs')

include h

theorem sortBy_perm_sortBy (le : Attribute → Attribute → Bool) :
    (sortBy le attrs).Perm (sortBy le attrs') :=
  (sortBy_perm le attrs).trans (h.trans (sortBy_perm le attrs').symm)

/-- Whatever the order of some attributes, their keys are sorted into the same one. -/
theorem map_key_sortBy_of_perm :
    (sortBy sortedBefore attrs).map (·.key) = (sortBy sortedBefore attrs').map (·.key) := by
  have hsorted (l : List Attribute) : ((sortBy sortedBefore l).map (·.key)).Pairwise
      fun k k' => sortedBefore ⟨k, ""⟩ ⟨k', ""⟩ :=
    List.pairwise_map.2 (pairwise_sortBy_sortedBefore l)
  refine ((sortBy_perm_sortBy h _).map _).eq_of_pairwise (fun k k' _ _ hkk' hk'k => ?_)
    (hsorted attrs) (hsorted attrs')
  exact key_eq_of_sortedBefore hkk' hk'k

/-- **Sorting forgets the order of attributes with different keys.** -/
theorem sortBy_sortedBefore_of_perm (hdistinct : (attrs.map (·.key)).Nodup) :
    sortBy sortedBefore attrs = sortBy sortedBefore attrs' := by
  refine (sortBy_perm_sortBy h _).eq_of_pairwise (fun a b ha hb hab hba => ?_)
    (pairwise_sortBy_sortedBefore attrs) (pairwise_sortBy_sortedBefore attrs')
  have ha := (sortBy_perm _ attrs).mem_iff.1 ha
  have hb := h.mem_iff.2 ((sortBy_perm _ attrs').mem_iff.1 hb)
  exact List.inj_on_of_nodup_map hdistinct ha hb (key_eq_of_sortedBefore hab hba)

end

end PoolLedger
