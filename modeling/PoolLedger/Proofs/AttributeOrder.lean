import PoolLedger.Extraction
import PoolLedger.Proofs.Acceptance
import PoolLedger.Proofs.Segments

/-!
# The order of the attributes within a sub-event

Dezswap and Starfleit run on chains that log the attributes of a sub-event in any order, which is
why their layouts sort each sub-event by key before it is read. A list of attributes is *reordered*
if those of each segment that come behind the first two are put in another order (`Reordered`). This
makes no difference to the actions of pairs and the transfers of tokens that are read
(`Profile.read_reordered`).

* **The rules** find the segments that fit, and whether one fits depends on its first two
  attributes.
* **Sorting** forgets the order, unless a key occurs twice. Then the keys are in the same order
  still, and the sub-event is refused (`Layout.prepare_of_reorders`).
-/

namespace PoolLedger

/-! ## Reordered segments -/

/-- Two segments have the same two attributes in front, and behind them the same ones in any
order. -/
def Reorders (s s' : List Attribute) : Prop :=
  s.take 2 = s'.take 2 ∧ (s.drop 2).Perm (s'.drop 2)

instance (s s' : List Attribute) : Decidable (Reorders s s') :=
  inferInstanceAs (Decidable (_ ∧ _))

/-- The second list consists of the reordered segments of the first. -/
def Reordered (key : String) (attrs attrs' : List Attribute) : Prop :=
  ∃ parts, List.Forall₂ Reorders (segments key attrs) parts ∧ attrs' = parts.flatten

section

variable {s s' : List Attribute} (h : Reorders s s')

include h

theorem Reorders.perm : s.Perm s' := by
  rw [← List.take_append_drop 2 s, ← List.take_append_drop 2 s', h.1]
  exact h.2.append_left _

theorem Reorders.head?_eq : s.head? = s'.head? := by
  have hhead (l : List Attribute) : (l.take 2).head? = l.head? := by cases l <;> rfl
  rw [← hhead s, h.1, hhead]

theorem Reorders.tail_perm : s.tail.Perm s'.tail := by
  have hhead := h.head?_eq
  have hperm := h.perm
  cases s with
  | nil => exact hperm.nil_eq ▸ .refl _
  | cons a s =>
    cases s' with
    | nil => cases hhead
    | cons b s' =>
      obtain rfl := Option.some.inj hhead
      exact hperm.cons_inv

end

theorem AreSegments.of_forall₂ {key : String} {parts parts' : List (List Attribute)}
    (h : AreSegments key parts) (hparts : List.Forall₂ Reorders parts parts') :
    AreSegments key parts' where
  behind part' hpart' a ha := by
    obtain ⟨part, hpart, hreorders⟩ := exists_of_mem_forall₂ hparts hpart'
    exact h.behind part hpart a (hreorders.tail_perm.mem_iff.2 ha)
  front := by
    cases hparts with
    | nil => exact nofun
    | cons _ hrest =>
      intro part' hpart' a ha
      obtain ⟨part, hpart, hreorders⟩ := exists_of_mem_forall₂ hrest hpart'
      exact h.front part hpart a (hreorders.head?_eq ▸ ha)

/-! ## What the rules find -/

namespace Rule

variable {r : Rule} {key : String}

theorem fits_take_length (items : List RuleItem) (attrs : List Attribute) :
    fits items (attrs.take items.length) = fits items attrs := by
  induction items generalizing attrs with
  | nil => simp [fits]
  | cons i items ih =>
    cases attrs with
    | nil => rfl
    | cons a attrs => simp only [List.length_cons, List.take_succ_cons, fits, ih]

/-- Whether a segment fits depends on its first two attributes. -/
theorem fits_of_reorders (hr : r.IsOfContracts key) {s s' : List Attribute} (h : Reorders s s') :
    fits r.items s = fits r.items s' := by
  obtain ⟨first, filter, hitems⟩ := hr.items
  rw [← fits_take_length r.items s, ← fits_take_length r.items s', hitems]
  exact congrArg (fits _) h.1

/-- What is found in reordered attributes is what was found, reordered. -/
theorem find_reordered (hr : r.IsOfContracts key) {attrs attrs' : List Attribute}
    (h : Reordered key attrs attrs') : List.Forall₂ Reorders (r.find attrs) (r.find attrs') := by
  obtain ⟨parts, hparts, rfl⟩ := h
  rw [find_eq_filter_segments hr,
    find_flatten_of_areSegments hr ((areSegments_segments key attrs).of_forall₂ hparts)]
  refine List.rel_filter (fun s s' hs => ?_) hparts
  show fits r.items s ↔ fits r.items s'
  rw [fits_of_reorders hr hs]

theorem findIn_reordered (hr : r.IsOfContracts key) {entries entries' : List Entry}

    (h : List.Forall₂ (fun e e' => e.kind = e'.kind ∧ Reordered key e.attributes e'.attributes)
      entries entries') :
    List.Forall₂ Reorders (r.findIn entries) (r.findIn entries') := by
  induction h with
  | nil => exact .nil
  | @cons e e' _ _ hee' _ ih =>
    rw [findIn_cons r e, findIn_cons r e']
    refine List.rel_append ?_ ih
    by_cases hkind : e.kind = r.kind
    · have hkind' : e'.kind = r.kind := hee'.1 ▸ hkind
      simpa [findIn, hkind, hkind'] using find_reordered hr hee'.2
    · have hkind' : e'.kind ≠ r.kind := hee'.1 ▸ hkind
      simp [findIn, hkind, hkind']

end Rule

/-! ## What is read -/

theorem Fields.repeatedKey?_congr {seen : List String} {attrs attrs' : List Attribute}
    (h : attrs.map (·.key) = attrs'.map (·.key)) :
    repeatedKey? seen attrs = repeatedKey? seen attrs' := by
  induction attrs generalizing seen attrs' with
  | nil => rw [List.map_eq_nil_iff.1 h.symm]
  | cons a attrs ih =>
    cases attrs' with
    | nil => cases h
    | cons b attrs' =>
      obtain ⟨hkey, hrest⟩ := List.cons.inj h
      simp only [repeatedKey?, hkey, ih hrest]

section

variable {l : Layout} {s s' : List Attribute} (hl : l.sorted)
  (htail : ∀ a ∈ s.tail, a.key ≠ l.contractKey)

include hl htail

theorem Layout.prepare_of_sorted : l.prepare s = sortBy sortedBefore s := by
  rw [prepare, if_pos hl]
  cases s with
  | nil => rfl
  | cons a rest => exact sortSegments_of_single htail

variable (h : Reorders s s')

include h

/-- **Sorting forgets the order of a sub-event**, up to the values of keys that occur twice. -/
theorem Layout.prepare_of_reorders : (l.prepare s).map (·.key) = (l.prepare s').map (·.key) ∧
    ((s.map (·.key)).Nodup → l.prepare s = l.prepare s') := by
  have htail' : ∀ a ∈ s'.tail, a.key ≠ l.contractKey :=
    fun a ha => htail a (h.tail_perm.mem_iff.2 ha)
  rw [prepare_of_sorted hl htail, prepare_of_sorted hl htail']
  exact ⟨map_key_sortBy_of_perm h.perm, sortBy_sortedBefore_of_perm h.perm⟩

end

theorem PairReader.read_of_reorders (reader : PairReader) {registry : Registry}
    {s s' : List Attribute} (hl : reader.layout.sorted)
    (htail : ∀ a ∈ s.tail, a.key ≠ reader.layout.contractKey) (h : Reorders s s') (r : Record) :
    reader.read registry s = .ok r ↔ reader.read registry s' = .ok r := by
  have haccept : (s.map (·.key)).Nodup → reader.accept registry s = reader.accept registry s' := by
    intro hdistinct
    unfold accept
    rw [(Layout.prepare_of_reorders hl htail h).2 hdistinct]
  simp only [read, bind_eq_ok]
  constructor
  · rintro ⟨accepted, haccepted, hr⟩
    rw [haccept (nodup_of_accept haccepted)] at haccepted
    exact ⟨accepted, haccepted, hr⟩
  · rintro ⟨accepted, haccepted, hr⟩
    rw [← haccept ((h.perm.map _).nodup_iff.2 (nodup_of_accept haccepted))] at haccepted
    exact ⟨accepted, haccepted, hr⟩

theorem TokenReader.fields_of_reorders {reader : TokenReader} {s s' : List Attribute}
    (hl : reader.layout.sorted) (htail : ∀ a ∈ s.tail, a.key ≠ reader.layout.contractKey)
    (h : Reorders s s') : reader.fields s = reader.fields s' := by
  obtain ⟨hkeys, heq⟩ := Layout.prepare_of_reorders hl htail h
  unfold fields
  by_cases hdistinct : (s.map (·.key)).Nodup
  · rw [heq hdistinct]
  · -- Either is refused for the same key.
    obtain ⟨key, hkey⟩ : ∃ key, Fields.repeatedKey? [] (reader.layout.prepare s) = some key := by
      refine Option.ne_none_iff_exists'.1 fun hnone => hdistinct ?_
      exact ((reader.layout.prepare_perm s).map _).nodup_iff.1
        (Fields.repeatedKey?_eq_none.1 hnone).1
    have hkey' : Fields.repeatedKey? [] (reader.layout.prepare s') = some key := by
      rw [← Fields.repeatedKey?_congr hkeys, hkey]
    simp only [Fields.read, Fields.ofAttributes, hkey, hkey']
    rfl

theorem TokenReader.read_of_reorders (reader : TokenReader) {s s' : List Attribute}
    (hl : reader.layout.sorted) (htail : ∀ a ∈ s.tail, a.key ≠ reader.layout.contractKey)
    (h : Reorders s s') (registry : Registry) :
    reader.read registry s = reader.read registry s' := by
  unfold read
  rw [fields_of_reorders hl htail h]

/-! ## Whole entries -/

theorem Deployment.sorted_of_protocol {d : Deployment}
    (h : d.protocol = .dezswap ∨ d.protocol = .starfleit) (height : Int) :
    (d.pairLayout height).sorted ∧ d.tokenLayout.sorted := by
  cases d with
  | dezswap network | starfleit network =>
    simp only [pairLayout]
    split <;> exact ⟨rfl, rfl⟩
  | phoenix | columbusFour | columbusFive => rcases h with h | h <;> cases h

namespace Profile

variable {p : Profile} {entries entries' : List Entry}

/-- **On sorted chains the order of the attributes does not matter.** From entries whose segments
are those of others with the attributes behind the first two in another order, the same actions of
pairs and the same transfers of tokens are read, or none because a sub-event is refused. -/
theorem read_reordered (hp : p.deployment.protocol = .dezswap ∨ p.deployment.protocol = .starfleit)
    (h : List.Forall₂ (fun e e' => e.kind = e'.kind ∧
      Reordered p.deployment.contractKey e.attributes e'.attributes) entries entries')
    (height : Int) (registry : Registry) (tx : RawTx) :
    (∀ records, p.pairActions height registry tx entries = .ok records ↔
      p.pairActions height registry tx entries' = .ok records) ∧
    p.tokenTransfers height registry tx entries = p.tokenTransfers height registry tx entries' := by
  obtain ⟨hpair, htoken⟩ := Deployment.sorted_of_protocol hp height
  have hactions := isOfContracts_pairRule p registry.contracts
  have htokens := isOfContracts_tokenRule p
  constructor
  · have hmatches := (List.forall₂_and_left _ _).2
      ⟨fun m => Rule.key_ne_of_mem_findIn hactions, Rule.findIn_reordered hactions h⟩
    refine mapM_eq_ok_congr (hmatches.imp fun m m' hm r => ?_)
    rw [← p.deployment.contractKey_pairLayout height] at hm
    simp only [bind_eq_ok, PairReader.read_of_reorders (p.pairReader height) hpair hm.1 hm.2]
  · have hmatches := (List.forall₂_and_left _ _).2
      ⟨fun m => Rule.key_ne_of_mem_findIn htokens, Rule.findIn_reordered htokens h⟩
    have hread := mapM_congr_of_forall₂ (hmatches.imp fun m m' hm => by
      rw [← contractKey_tokenLayout p.deployment] at hm
      exact TokenReader.read_of_reorders (p.tokenReader height) htoken hm.1 hm.2 registry)
    rw [tokenTransfers, hread]
    rfl

end Profile

/-- A swap and the pull of its token, behind something else that was logged. -/
def swapParts : List (List Attribute) :=
  [[⟨"code_id", "7"⟩, ⟨"_from", "1"⟩, ⟨"_to", "2"⟩],
    [⟨"_contract_address", "xpla1token"⟩, ⟨"action", "transfer"⟩, ⟨"from", "xpla1user"⟩,
      ⟨"to", "xpla1pair"⟩, ⟨"amount", "5"⟩, ⟨"msg_index", "0"⟩],
    indexedSwap.attributes]

def swapEntry : Entry where
  kind := "wasm"
  attributes := swapParts.flatten

/-- The same with the attributes behind the first two of each segment turned round. -/
def turnedEntry : Entry where
  kind := "wasm"
  attributes := (swapParts.map fun part => part.take 2 ++ (part.drop 2).reverse).flatten

theorem read_turnedEntry :
    Reordered contractKey swapEntry.attributes turnedEntry.attributes ∧
    (∃ records, testnetProfile.pairActions 10187000 testnetRegistry { hash := "A1" } [turnedEntry] =
        .ok records ∧
      records.map (·.legs) = [{ first := ⟨"xpla1token", "-950"⟩, second := ⟨"axpla", "1000"⟩ }]) ∧
    ∃ records, testnetProfile.tokenTransfers 10187000 testnetRegistry { hash := "A1" }
      [turnedEntry] [] =
        (.ok records, []) ∧
      records.map (·.legs) = [{ first := ⟨"xpla1token", "5"⟩, second := ⟨"axpla", ""⟩ }] := by
  have hreordered : Reordered contractKey swapEntry.attributes turnedEntry.attributes :=
    ⟨swapParts.map fun part => part.take 2 ++ (part.drop 2).reverse, by decide, rfl⟩
  have hentries : List.Forall₂ (fun e e' => e.kind = e'.kind ∧
      Reordered testnetProfile.deployment.contractKey e.attributes e'.attributes) [swapEntry]
        [turnedEntry] :=
    .cons ⟨rfl, hreordered⟩ .nil
  obtain ⟨hactions, htokens⟩ :=
    Profile.read_reordered (.inl rfl) hentries 10187000 testnetRegistry { hash := "A1" }
  refine ⟨hreordered, ?_, ?_⟩
  · have hlegs : (testnetProfile.pairActions 10187000 testnetRegistry { hash := "A1" }
        [swapEntry]).map
        (·.map (·.legs)) = .ok
        [{ first := ⟨"xpla1token", "-950"⟩, second := ⟨"axpla", "1000"⟩ }] := by
      decide +kernel
    obtain ⟨records, hrecords, hlegs⟩ := map_eq_ok.1 hlegs
    exact ⟨records, (hactions records).1 hrecords, hlegs⟩
  · rw [← htokens]
    exact ⟨_, rfl, by decide +kernel⟩

end PoolLedger
