import PoolLedger.Proofs.SubEvents
import PoolLedger.Proofs.Unrelated

/-!
# Bank transfers logged in any order

Some chains log the attributes of the bank transfers of a transaction one transfer after
another, in one entry, but those of each transfer in any order and with other attributes
between them. `Profile.prepare` keeps the attributes with the keys of a transfer and puts each
chunk of three in order.

No transfer is lost (`Profile.findIn_prepare_chunks`): if every chunk has each key once, the rule
finds the chunks, each in the order of the keys, and what is left over at the end is not taken for
one. Entries of which this is not true are put in order too, and once in order they stay as they
are (`arrange_arrange`).
-/

namespace PoolLedger

variable {keys : List String} {attrs : List Attribute}

/-! ## The order of one chunk -/

theorem pairwise_lastPlace (hkeys : keys.Nodup) :
    keys.Pairwise fun k k' => lastPlace keys k < lastPlace keys k' := by
  have hplace (i : Nat) (hi : i < keys.length) : lastPlace keys keys[i] = i + 1 := by
    have hback : keys.length - 1 - i < keys.reverse.length := by
      rw [List.length_reverse]
      omega
    have hsame : keys.reverse[keys.length - 1 - i] = keys[i] := by
      rw [List.getElem_reverse]
      congr 1
      omega
    rw [lastPlace, ← hsame, (List.nodup_reverse.2 hkeys).idxOf_getElem]
    omega
  refine List.pairwise_iff_getElem.2 fun i j hi hj hij => ?_
  rw [hplace i hi, hplace j hj]
  omega

theorem map_key_arrangeChunk (hkeys : keys.Nodup) {chunk : List Attribute}
    (h : (chunk.map (·.key)).Perm keys) : (arrangeChunk keys chunk).map (·.key) = keys := by
  have hplaces := pairwise_lastPlace hkeys
  have hdistinct : (keys.map (lastPlace keys)).Nodup :=
    List.pairwise_map.2 (hplaces.imp Nat.ne_of_lt)
  have hperm : ((arrangeChunk keys chunk).map (·.key)).Perm keys :=
    ((sortBy_perm _ chunk).map _).trans h
  have hsorted : ((arrangeChunk keys chunk).map (·.key)).Pairwise
      fun k k' => lastPlace keys k ≤ lastPlace keys k' :=
    List.pairwise_map.2 (pairwise_arrangeChunk keys chunk)
  refine hperm.eq_of_pairwise (fun k k' hk hk' hle hge => ?_) hsorted (hplaces.imp Nat.le_of_lt)
  exact List.inj_on_of_nodup_map hdistinct (hperm.mem_iff.1 hk) hk' (Nat.le_antisymm hle hge)

/-! ## All chunks of an entry -/

theorem filter_contains_eq_self (h : ∀ a ∈ attrs, a.key ∈ keys) :
    attrs.filter (fun a => keys.contains a.key) = attrs :=
  List.filter_eq_self.2 fun a ha => List.contains_iff_mem.2 (h a ha)

theorem arrange_filter (keys : List String) (attrs : List Attribute) :
    arrange keys (attrs.filter fun a => keys.contains a.key) = arrange keys attrs := by
  unfold arrange
  rw [filter_contains_eq_self (by simp)]

/-- **Each chunk is put in order by itself**, and the attributes that make no chunk stay at the
end. -/
theorem arrange_chunks {chunks : List (List Attribute)} {rest : List Attribute}
    (hkept : attrs.filter (fun a => keys.contains a.key) = chunks.flatten ++ rest)
    (hchunks : ∀ chunk ∈ chunks, (chunk.map (·.key)).Perm keys)
    (hrest : rest.length < keys.length) :
    arrange keys attrs = (chunks.map (arrangeChunk keys)).flatten ++ rest := by
  have hkeys : keys ≠ [] := List.ne_nil_of_length_pos (Nat.zero_lt_of_lt hrest)
  have hmem : ∀ a ∈ rest, a.key ∈ keys := fun a ha => by
    have ha' : a ∈ attrs.filter fun a => keys.contains a.key := hkept ▸ List.mem_append_right _ ha
    exact List.contains_iff_mem.1 (List.mem_filter.1 ha').2
  rw [← arrange_filter, hkept]
  clear hkept
  induction chunks with
  | nil =>
    rw [List.flatten_nil, List.nil_append, arrange, filter_contains_eq_self hmem,
      arrangeChunks_of_lt_length hrest]
    rfl
  | cons chunk chunks ih =>
    obtain ⟨hchunk, hchunks⟩ := List.forall_mem_cons.1 hchunks
    have hself : chunk.filter (fun a => keys.contains a.key) = chunk :=
      filter_contains_eq_self fun a ha => hchunk.mem_iff.1 (List.mem_map_of_mem ha)
    have hlen : (chunk.filter fun a => keys.contains a.key).length = keys.length := by
      rw [hself, ← hchunk.length_eq, List.length_map]
    rw [List.flatten_cons, List.append_assoc, arrange_append hkeys _ hlen, hself, ih hchunks,
      List.map_cons, List.flatten_cons, List.append_assoc]

/-! ## What is in order stays as it is -/

theorem sortBy_of_pairwise {α : Type} {le : α → α → Bool} {l : List α}
    (h : l.Pairwise fun a b => le a b) :
    sortBy le l = l := by
  induction h with
  | nil => rfl
  | cons hfirst _ ih => rw [sortBy_cons_of_le hfirst, ih]

theorem arrangeChunk_arrangeChunk (keys : List String) (chunk : List Attribute) :
    arrangeChunk keys (arrangeChunk keys chunk) = arrangeChunk keys chunk :=
  sortBy_of_pairwise ((pairwise_arrangeChunk keys chunk).imp decide_eq_true)

theorem arrangeChunks_arrangeChunks (keys : List String) (fuel : Nat) (attrs : List Attribute) :
    arrangeChunks keys fuel (arrangeChunks keys fuel attrs) = arrangeChunks keys fuel attrs := by
  induction fuel generalizing attrs with
  | zero => rfl
  | succ fuel ih =>
    by_cases hle : keys.length ≤ attrs.length
    · have hlen : (arrangeChunk keys (attrs.take keys.length)).length = keys.length := by
        rw [arrangeChunk, (sortBy_perm _ _).length_eq, List.length_take_of_le hle]
      rw [arrangeChunks_of_le_length hle, arrangeChunks_of_le_length (by simp [hlen]),
        List.take_left' hlen, List.drop_left' hlen, arrangeChunk_arrangeChunk, ih]
    · rw [arrangeChunks_of_lt_length (Nat.lt_of_not_le hle),
        arrangeChunks_of_lt_length (Nat.lt_of_not_le hle)]

/-- **What is in order stays as it is.** -/
theorem arrange_arrange (keys : List String) (attrs : List Attribute) :
    arrange keys (arrange keys attrs) = arrange keys attrs := by
  have hperm := arrange_perm keys attrs
  have hself : (arrange keys attrs).filter (fun a => keys.contains a.key) = arrange keys attrs :=
    filter_contains_eq_self fun a ha =>
      List.contains_iff_mem.1 (List.mem_filter.1 (hperm.mem_iff.1 ha)).2
  calc arrange keys (arrange keys attrs)
      = arrangeChunks keys (arrange keys attrs).length (arrange keys attrs) := by
        conv_lhs => rw [arrange, hself]
    _ = arrange keys attrs := by
        rw [hperm.length_eq]
        exact arrangeChunks_arrangeChunks keys _ _

/-! ## What is found -/

namespace Rule

theorem fits_of_keys (h : attrs.map (·.key) = keys) (more : List Attribute) :
    fits (keys.map fun key => { key }) (attrs ++ more) := by
  subst h
  induction attrs with
  | nil => rfl
  | cons a attrs ih =>
    simp only [List.map_cons, List.cons_append, fits, RuleItem.accepts, Filter.accepts,
      beq_self_eq_true, Bool.and_self, Bool.true_and]
    exact ih

theorem find_eq_nil_of_length_lt {r : Rule} (h : attrs.length < r.items.length) :
    r.find attrs = [] := by
  refine List.eq_nil_iff_forall_not_mem.2 fun m hm => ?_
  have hle := (length_le_of_fits (mem_find hm).1).trans (sublist_of_mem_find hm).length_le
  omega

/-- The parts with the keys of a rule of bank transfers are found one after another. -/
theorem find_bankTransfer_flatten {parts : List (List Attribute)} {rest : List Attribute}
    (hparts : ∀ part ∈ parts, part.map (·.key) = keys) (hrest : rest.length < keys.length)
    (hkeys : keys ≠ []) :
    (bankTransfer keys hkeys).find (parts.flatten ++ rest) = parts := by
  have hitems : (bankTransfer keys hkeys).items.length = keys.length := List.length_map _
  induction parts with
  | nil => exact find_eq_nil_of_length_lt (hitems ▸ hrest)
  | cons part parts ih =>
    obtain ⟨hpart, hparts⟩ := List.forall_mem_cons.1 hparts
    have hlen : part.length = (bankTransfer keys hkeys).items.length := by
      rw [hitems, ← hpart, List.length_map]
    rw [List.flatten_cons, List.append_assoc,
      find_append_of_fits rfl hlen (fits_of_keys hpart (parts.flatten ++ rest)), ih hparts]

end Rule

namespace Profile

variable {p : Profile}

theorem prepare_of_kind (h : p.deployment.transferOrder? = some keys) {e : Entry}
    (hkind : e.kind = EventType.transfer.name) :
    p.prepare e = { e with attributes := arrange keys e.attributes } := by
  rw [prepare, h]
  exact if_pos hkind

/-- **Every bank transfer is found where the chain logs attributes in any order.** If the attributes
of an entry that have one of the three keys are chunks with each key once, and fewer than three
others at the end, the matches are the chunks, each in the order of the keys. Whatever the
attributes of the entry, those with one of the keys are kept, none is lost or comes up twice, and an
entry in order stays as it is. -/
theorem findIn_prepare_chunks (h : p.deployment.transferOrder? = some keys) {e : Entry}
    (hkind : e.kind = EventType.transfer.name) :
    (∀ chunks rest, e.attributes.filter (fun a => sortedTransferKeys.contains a.key) =
      chunks.flatten ++ rest →
      (∀ chunk ∈ chunks, (chunk.map (·.key)).Perm sortedTransferKeys) → rest.length < 3 →
      List.Forall₂ (fun chunk m => m.Perm chunk ∧ m.map (·.key) = sortedTransferKeys) chunks
        (p.bankRule.findIn [p.prepare e])) ∧
    (p.prepare e).kind = e.kind ∧
    (p.prepare e).attributes.Perm (e.attributes.filter fun a => sortedTransferKeys.contains a.key) ∧
    p.prepare (p.prepare e) = p.prepare e := by
  obtain rfl := transferOrder?_eq_some h
  have hprepare := prepare_of_kind h hkind
  refine ⟨fun chunks rest hkept hchunks hrest => ?_, kind_prepare e, ?_, ?_⟩
  · -- In order, a chunk is just what the rule wants.
    have hordered : ∀ part ∈ chunks.map (arrangeChunk sortedTransferKeys),
        part.map (·.key) = sortedTransferKeys := by
      simpa only [List.forall_mem_map] using fun chunk hchunk =>
        map_key_arrangeChunk (by decide) (hchunks chunk hchunk)
    have hrule : p.bankRule = .bankTransfer sortedTransferKeys := by rw [bankRule, h]
    have hfound : p.bankRule.findIn [p.prepare e] =
        chunks.map (arrangeChunk sortedTransferKeys) := by
      rw [Rule.findIn_singleton_of_kind (by rw [kind_prepare, bankRule_kind, hkind]), hprepare,
        arrange_chunks hkept hchunks hrest, hrule]
      exact Rule.find_bankTransfer_flatten hordered hrest _
    rw [hfound, List.forall₂_map_right_iff]
    refine List.forall₂_same.2 fun chunk hchunk => ⟨sortBy_perm _ chunk, ?_⟩
    exact hordered _ (List.mem_map_of_mem hchunk)
  · rw [hprepare]
    exact arrange_perm _ _
  · rw [prepare_of_kind h (by rwa [kind_prepare]), hprepare, arrange_arrange]

end Profile

/-! Two transfers in one entry, the first with an index between its attributes, and
the start of a third. -/

def indexedTransfers : Entry where
  kind := "transfer"
  attributes := [⟨"sender", "terra1user"⟩, ⟨"msg_index", "0"⟩, ⟨"amount", "5uluna"⟩,
    ⟨"recipient", "terra1pair"⟩, ⟨"msg_index", "1"⟩, ⟨"recipient", "terra1user"⟩,
    ⟨"sender", "terra1pair"⟩, ⟨"amount", "3uusd"⟩, ⟨"amount", "7uluna"⟩]

theorem findIn_indexedTransfers :
    phoenixProfile.deployment.transferOrder? = some sortedTransferKeys ∧
    List.Forall₂ (fun chunk m => m.Perm chunk ∧ m.map (·.key) = sortedTransferKeys)
      [[⟨"sender", "terra1user"⟩, ⟨"amount", "5uluna"⟩, ⟨"recipient", "terra1pair"⟩],
        [⟨"recipient", "terra1user"⟩, ⟨"sender", "terra1pair"⟩, ⟨"amount", "3uusd"⟩]]
      (phoenixProfile.bankRule.findIn [phoenixProfile.prepare indexedTransfers]) := by
  have horder : phoenixProfile.deployment.transferOrder? = some sortedTransferKeys := rfl
  obtain ⟨hfound, -⟩ := Profile.findIn_prepare_chunks horder (e := indexedTransfers) rfl
  exact ⟨horder, hfound _ [⟨"amount", "7uluna"⟩] (by decide) (by decide) (by decide)⟩

end PoolLedger
