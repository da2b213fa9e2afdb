import Mathlib.Data.List.TakeWhile
import PoolLedger.Proofs.Arrange
import PoolLedger.Proofs.Flattening
import PoolLedger.Proofs.Interleaving
import PoolLedger.Proofs.Spans

/-!
# Entries that hold given sub-events

A transaction logs its sub-events one by one, and how they are spread over entries is up to the
chain: one entry for each, or all those of one type in one (`Holds`). What a rule finds in such
entries is known from what it finds in the sub-events (`Holds.perm_flatMap`).

* A contract event opens with its contract and its action (`IsContractEvent`). The rules of pair
  actions and of token transfers find it whole or not at all (`Rule.find_contractEvent`).
* A bank transfer has three attributes in an order that depends on the chain, and possibly more
  (`Profile.IsBankTransfer`). The rule finds the three, in the order of its keys
  (`Profile.find_bankTransfer`).

What is found in all entries together is what is found in one after another
(`Profile.gives_allFindings`).
-/

namespace PoolLedger

/-! ## Lists of which one is read to the other -/

section

variable {α β : Type} {R : α → β → Prop}

theorem exists_of_mem_forall₂ {l : List α} {l' : List β} (h : List.Forall₂ R l l') {b : β}
    (hb : b ∈ l') :
    ∃ a ∈ l, R a b := by
  induction h with
  | nil => cases hb
  | cons hab _ ih =>
    rcases List.mem_cons.1 hb with rfl | hb
    · exact ⟨_, List.mem_cons_self, hab⟩
    · obtain ⟨a, ha, hR⟩ := ih hb
      exact ⟨a, List.mem_cons_of_mem _ ha, hR⟩

theorem forall₂_append_left {l₁ l₂ : List α} {l : List β}
    (h : List.Forall₂ R (l₁ ++ l₂) l) :
    ∃ m₁ m₂, l = m₁ ++ m₂ ∧ List.Forall₂ R l₁ m₁ ∧ List.Forall₂ R l₂ m₂ := by
  induction l₁ generalizing l with
  | nil => exact ⟨[], l, rfl, .nil, h⟩
  | cons a l₁ ih =>
    obtain ⟨b, l', hb, hrest, rfl⟩ := List.forall₂_cons_left_iff.1 h
    obtain ⟨m₁, m₂, rfl, h₁, h₂⟩ := ih hrest
    exact ⟨b :: m₁, m₂, rfl, .cons hb h₁, h₂⟩

end

/-! ## Entries that hold sub-events -/

/-- The entries of a type hold the sub-events, each once, in any order, and one or more or none
of them in one entry. -/
def Holds (kind : String) (entries : List Entry) (parts : List (List Attribute)) : Prop :=
  ∃ logged : List (List (List Attribute)),
    (entriesOfKind kind entries).map (·.attributes) = logged.map List.flatten ∧
    logged.flatten.Perm parts

section

variable {kind : String} {entries : List Entry} {parts : List (List Attribute)}

theorem Holds.exists_part (h : Holds kind entries parts) {e : Entry} (he : e ∈ entries)
    (hkind : e.kind = kind) {a : Attribute} (ha : a ∈ e.attributes) : ∃ part ∈ parts, a ∈ part := by
  obtain ⟨logged, hlogged, hperm⟩ := h
  have hmem : e.attributes ∈ (entriesOfKind kind entries).map (·.attributes) :=
    List.mem_map_of_mem (List.mem_filter.2 ⟨he, beq_iff_eq.2 hkind⟩)
  rw [hlogged] at hmem
  obtain ⟨pieces, hpieces, heq⟩ := List.mem_map.1 hmem
  rw [← heq] at ha
  obtain ⟨part, hpart, ha⟩ := List.mem_flatten.1 ha
  exact ⟨part, hperm.mem_iff.1 (List.mem_flatten.2 ⟨pieces, hpieces, hpart⟩), ha⟩

/-- **What is found in entries is what is found in the sub-events that they hold**, up to the order,
if what is found in joined sub-events is what is found in them one by one. -/
theorem Holds.perm_flatMap {β : Type} (h : Holds kind entries parts)
    (search : List Attribute → List β)
    (hjoined : ∀ pieces, pieces ⊆ parts → search pieces.flatten = pieces.flatMap search) :
    ((entriesOfKind kind entries).flatMap fun e => search e.attributes).Perm
      (parts.flatMap search) := by
  obtain ⟨logged, hlogged, hperm⟩ := h
  have hsubset : ∀ pieces ∈ logged, pieces ⊆ parts := fun pieces hpieces part hpart =>
    hperm.mem_iff.1 (List.mem_flatten.2 ⟨pieces, hpieces, hpart⟩)
  have hfound : (entriesOfKind kind entries).flatMap (fun e => search e.attributes) =
      logged.flatten.flatMap search := by
    calc (entriesOfKind kind entries).flatMap (fun e => search e.attributes)
        = ((entriesOfKind kind entries).map (·.attributes)).flatMap search := by
          rw [List.flatMap_map]
      _ = logged.flatMap fun pieces => search pieces.flatten := by rw [hlogged, List.flatMap_map]
      _ = logged.flatMap fun pieces => pieces.flatMap search :=
        List.flatMap_congr fun pieces hpieces => hjoined pieces (hsubset pieces hpieces)
      _ = logged.flatten.flatMap search := by
        simp only [List.flatMap_def, List.map_flatten, List.flatten_flatten, List.map_map,
          Function.comp_def]
  rw [hfound]
  exact hperm.flatMap_right search

end

namespace Rule

variable {r : Rule} {attrs more : List Attribute}

theorem exists_accepts_of_fits {items : List RuleItem} (h : fits items attrs) {i : RuleItem}
    (hi : i ∈ items) : ∃ a ∈ attrs, i.accepts a := by
  obtain ⟨k, hk⟩ := List.mem_iff_getElem?.1 hi
  obtain ⟨a, ha, haccepts⟩ := fits_iff.1 h k i hk
  exact ⟨a, List.mem_of_getElem? ha, haccepts⟩

theorem find_eq_nil {i : RuleItem} (hi : i ∈ r.items) (h : ∀ a ∈ attrs, i.accepts a = false) :
    r.find attrs = [] := by
  refine List.eq_nil_iff_forall_not_mem.2 fun m hm => ?_
  obtain ⟨a, ha, haccepts⟩ := exists_accepts_of_fits (mem_find hm).1 hi
  rw [h a ((sublist_of_mem_find hm).subset ha)] at haccepts
  cases haccepts

theorem findIn_eq_nil_of_holds {i : RuleItem} (hi : i ∈ r.items) {entries : List Entry}
    {parts : List (List Attribute)} (hholds : Holds r.kind entries parts)
    (h : ∀ part ∈ parts, ∀ a ∈ part, i.accepts a = false) : r.findIn entries = [] := by
  refine List.flatMap_eq_nil_iff.2 fun e he => find_eq_nil hi fun a ha => ?_
  obtain ⟨hmem, hkind⟩ := List.mem_filter.1 he
  obtain ⟨part, hpart, ha⟩ := hholds.exists_part hmem (beq_iff_eq.1 hkind) ha
  exact h part hpart a ha

/-- Attributes that the first item does not fit are passed over. -/
theorem find_append_of_first {i : RuleItem} {items : List RuleItem} (hitems : r.items = i :: items)
    (h : ∀ a ∈ attrs, i.accepts a = false) : r.find (attrs ++ more) = r.find more := by
  induction attrs with
  | nil => rfl
  | cons a attrs ih =>
    have hnot : ¬fits r.items (a :: (attrs ++ more)) := by
      simp [hitems, fits, h a List.mem_cons_self]
    rw [List.cons_append, find_of_not_fits hnot]
    exact ih fun b hb => h b (List.mem_cons_of_mem _ hb)

/-- Without a boundary a match takes in as many attributes as there are items. -/
theorem find_append_of_fits (hboundary : r.boundary = none) (hlen : attrs.length = r.items.length)
    (h : fits r.items (attrs ++ more)) : r.find (attrs ++ more) = attrs :: r.find more := by
  rw [find_of_fits h, extent_of_boundary_none hboundary, List.take_left' hlen, List.drop_left' hlen]

end Rule

/-! ## Contract events -/

/-- A sub-event that opens with a contract under the given key, followed by an action. The key
does not occur again. -/
def IsContractEvent (key contract action : String) (attrs : List Attribute) : Prop :=
  ∃ rest, attrs = ⟨key, contract⟩ :: ⟨actionKey, action⟩ :: rest ∧ ∀ a ∈ rest, a.key ≠ key

/-- What fits such a sub-event depends on its contract and its action. -/
theorem IsContractEvent.fits_iff {key contract action : String} {attrs : List Attribute}
    (h : IsContractEvent key contract action attrs) {first filter : Filter} :
    Rule.fits [{ key, filter := first }, { key := actionKey, filter }] attrs ↔
      first.accepts contract ∧ filter.accepts action := by
  obtain ⟨rest, rfl, -⟩ := h
  simp [Rule.fits, RuleItem.accepts]

namespace Rule

variable {r : Rule} {key : String}

/-- A rule with a contract and an action as its items, which takes in the whole contract event. -/
structure IsOfContracts (r : Rule) (key : String) : Prop where
  items : ∃ first filter, r.items = [{ key, filter := first }, { key := actionKey, filter }]
  boundary : r.boundary = some key
  key_ne : key ≠ ""
  key_ne_action : key ≠ actionKey

/-- Attributes of which only the first can name a contract are found whole or not at all. -/
theorem find_of_tail (hr : r.IsOfContracts key) {attrs : List Attribute}
    (h : ∀ a ∈ attrs.tail, a.key ≠ key) :
    r.find attrs = if fits r.items attrs then [attrs] else [] := by
  obtain ⟨first, filter, hitems⟩ := hr.items
  split
  · rename_i hfits
    have hlen : 2 ≤ attrs.length := by
      have hle := length_le_of_fits hfits
      rwa [hitems] at hle
    -- No boundary follows, so the match extends to the end.
    have hbehind : ∀ a ∈ attrs.drop 2, a.key ≠ key := fun a ha =>
      h a (List.mem_of_mem_drop (by rwa [List.drop_tail] : a ∈ attrs.tail.drop 1))
    have hall : (attrs.drop 2).takeWhile (fun a => a.key ≠ key) = attrs.drop 2 :=
      List.takeWhile_eq_self_iff.2 (by simpa using hbehind)
    have hkey : r.boundaryKey? = some key := boundaryKey?_eq_some.2 ⟨hr.boundary, hr.key_ne⟩
    have hextent : r.extent attrs = attrs.length := by
      rw [extent_of_boundaryKey?_some hkey, hitems]
      show 2 + ((attrs.drop 2).takeWhile fun a => a.key ≠ key).length = attrs.length
      rw [hall, List.length_drop]
      omega
    rw [find_of_fits hfits, hextent, List.take_length, List.drop_length]
    rfl
  · rename_i hfits
    have hnone : ∀ a ∈ attrs.drop 1, RuleItem.accepts { key, filter := first } a = false := by
      intro a ha
      have hne : a.key ≠ key := h a (by rwa [List.drop_one] at ha)
      simp [RuleItem.accepts, hne]
    rw [find_of_not_fits hfits]
    exact find_eq_nil (hitems ▸ List.mem_cons_self) hnone

/-- **A contract event is found whole or not at all**, depending on its contract and its action. -/
theorem find_contractEvent (hr : r.IsOfContracts key) {contract action : String}
    {attrs : List Attribute} (h : IsContractEvent key contract action attrs) :
    r.find attrs = if fits r.items attrs then [attrs] else [] := by
  obtain ⟨rest, rfl, hrest⟩ := h
  refine find_of_tail hr fun a ha => ?_
  rcases List.mem_cons.1 ha with rfl | ha
  · exact hr.key_ne_action.symm
  · exact hrest a ha

/-- Such a rule finds those of the contract events in some entries that fit. -/
theorem findIn_contractEvents (hr : r.IsOfContracts key) {entries : List Entry}
    {parts : List (List Attribute)} (h : Holds r.kind entries parts)
    (hparts : ∀ part ∈ parts, ∃ contract action, IsContractEvent key contract action part) :
    (r.findIn entries).Perm (parts.filter (fits r.items)) := by
  have hopens : ∀ part ∈ parts, r.Opens part := by
    intro part hpart a ha
    obtain ⟨contract, action, rest, rfl, -⟩ := hparts part hpart
    obtain rfl := Option.some.inj ha
    exact (bounds_iff hr.boundary hr.key_ne _).2 rfl
  obtain ⟨first, filter, hitems⟩ := hr.items
  have hfirst : r.OpensFirst := opensFirst_of_items hitems hr.boundary hr.key_ne hr.key_ne_action
  have hfound := h.perm_flatMap r.find fun pieces hpieces =>
    find_flatten hfirst fun part hpart => hopens part (hpieces hpart)
  have hfilter : parts.flatMap r.find = parts.filter (fits r.items) := by
    clear h hopens hfound
    induction parts with
    | nil => rfl
    | cons part parts ih =>
      obtain ⟨contract, action, hpart⟩ := hparts part List.mem_cons_self
      rw [List.flatMap_cons, ih fun p hp => hparts p (List.mem_cons_of_mem _ hp),
        find_contractEvent hr hpart, List.filter_cons]
      split <;> rfl
  rw [← hfilter]
  exact hfound

end Rule

namespace Profile

variable {p : Profile}

theorem contractKey_ne (d : Deployment) : d.contractKey ≠ "" ∧ d.contractKey ≠ actionKey := by
  unfold Deployment.contractKey
  split <;> decide

theorem isOfContracts_pairRule (p : Profile) (pairs : List String) :
    (p.pairRule pairs).IsOfContracts p.deployment.contractKey where
  items := ⟨_, _, rfl⟩
  boundary := rfl
  key_ne := (contractKey_ne p.deployment).1
  key_ne_action := (contractKey_ne p.deployment).2

theorem isOfContracts_tokenRule (p : Profile) :
    p.tokenRule.IsOfContracts p.deployment.contractKey where
  items := ⟨_, _, rfl⟩
  boundary := rfl
  key_ne := (contractKey_ne p.deployment).1
  key_ne_action := (contractKey_ne p.deployment).2

end Profile

/-! ## Bank transfers -/

/-- Coins that the chain moves, as the chain writes them. -/
structure BankTransfer where
  sender : String
  recipient : String
  coins : String

/-- The attributes of a bank transfer in the order in which most chains log them. -/
def BankTransfer.attributes (t : BankTransfer) : List Attribute :=
  [⟨"recipient", t.recipient⟩, ⟨"sender", t.sender⟩, ⟨"amount", t.coins⟩]

def BankTransfer.sortedAttributes (t : BankTransfer) : List Attribute :=
  [⟨"amount", t.coins⟩, ⟨"recipient", t.recipient⟩, ⟨"sender", t.sender⟩]

theorem BankTransfer.sortedAttributes_perm (t : BankTransfer) :
    t.sortedAttributes.Perm t.attributes := by
  show ([⟨"amount", t.coins⟩] ++ [_, _] : List Attribute).Perm ([_, _] ++ [⟨"amount", t.coins⟩])
  exact List.perm_append_comm

namespace Profile

variable {p : Profile} {t : BankTransfer} {part : List Attribute}

/-- A sub-event that tells of a bank transfer. Where the chain logs the attributes in
any order they are in any order, elsewhere they come first and in theirs. Attributes of
other keys do not matter. -/
def IsBankTransfer (p : Profile) (t : BankTransfer) (attrs : List Attribute) : Prop :=
  match p.deployment.transferOrder? with
  | some keys => (attrs.filter fun a => keys.contains a.key).Perm t.attributes
  | none => ∃ more, attrs = t.attributes ++ more ∧ ∀ a ∈ more, a.key ∉ transferKeys

/-- The attributes of a bank transfer in the order in which they are read. -/
def readAttributes (p : Profile) (t : BankTransfer) : List Attribute :=
  match p.deployment.transferOrder? with
  | some _ => t.sortedAttributes
  | none => t.attributes

theorem readAttributes_perm (p : Profile) (t : BankTransfer) :
    (p.readAttributes t).Perm t.attributes := by
  unfold readAttributes
  split
  · exact t.sortedAttributes_perm
  · exact .refl _

/-- Some attributes of bank transfers in the order in which they are read. -/
def prepared (p : Profile) (attrs : List Attribute) : List Attribute :=
  match p.deployment.transferOrder? with
  | some keys => arrange keys attrs
  | none => attrs

theorem transferOrder?_eq_some {d : Deployment} {keys : List String}
    (h : d.transferOrder? = some keys) :
    keys = sortedTransferKeys := by
  cases d with
  | phoenix | columbusFive => exact (Option.some.inj h).symm
  | _ => cases h

theorem attributes_prepare {e : Entry} (h : e.kind = EventType.transfer.name) :
    (p.prepare e).attributes = p.prepared e.attributes := by
  unfold prepare prepared
  cases p.deployment.transferOrder? with
  | none => rfl
  | some keys => simp only [if_pos h]

theorem findIn_prepare (p : Profile) (entries : List Entry) :
    p.bankRule.findIn (entries.map p.prepare) =
      (entriesOfKind EventType.transfer.name entries).flatMap fun e =>
        p.bankRule.find (p.prepared e.attributes) := by
  induction entries with
  | nil => rfl
  | cons e rest ih =>
    rw [List.map_cons, Rule.findIn_cons, ih]
    by_cases h : e.kind = EventType.transfer.name
    · rw [entriesOfKind_cons_eq h, List.flatMap_cons, ← attributes_prepare h]
      have hkind : (p.prepare e).kind = p.bankRule.kind := by rw [kind_prepare, bankRule_kind, h]
      simp [Rule.findIn, hkind]
    · have hkind : (p.prepare e).kind ≠ p.bankRule.kind := by rwa [kind_prepare, bankRule_kind]
      rw [entriesOfKind_cons_ne h, Rule.findIn_singleton_of_kind_ne hkind, List.nil_append]

/-- **A bank transfer is found in front of whatever comes after it.** -/
theorem find_bankTransfer (h : p.IsBankTransfer t part) (more : List Attribute) :
    p.bankRule.find (p.prepared (part ++ more)) =
      p.readAttributes t :: p.bankRule.find (p.prepared more) := by
  cases hkeys : p.deployment.transferOrder? with
  | some keys =>
    -- In any order: the first chunk is sorted by itself.
    obtain rfl := transferOrder?_eq_some hkeys
    have hrule : p.bankRule = .bankTransfer sortedTransferKeys := by rw [bankRule, hkeys]
    have hread : p.readAttributes t = t.sortedAttributes := by rw [readAttributes, hkeys]
    have hprepared (attrs : List Attribute) : p.prepared attrs =
        arrange sortedTransferKeys attrs := by
      rw [prepared, hkeys]
    have hperm : (part.filter fun a => sortedTransferKeys.contains a.key).Perm t.attributes := by
      rwa [IsBankTransfer, hkeys] at h
    have hplaces : t.sortedAttributes.Pairwise fun a b =>
        lastPlace sortedTransferKeys a.key < lastPlace sortedTransferKeys b.key := by
      simp only [BankTransfer.sortedAttributes, List.pairwise_cons, List.forall_mem_cons]
      decide
    have hsorted := arrangeChunk_of_perm (hperm.trans t.sortedAttributes_perm.symm) hplaces
    rw [hprepared, hprepared, hrule, hread, arrange_append (by decide) more hperm.length_eq,
      hsorted]
    exact Rule.find_append_of_fits rfl rfl rfl
  | none =>
    -- As logged: what follows up to the next recipient fits nothing.
    have hrule : p.bankRule = .bankTransfer transferKeys := by rw [bankRule, hkeys]
    have hread : p.readAttributes t = t.attributes := by rw [readAttributes, hkeys]
    have hprepared (attrs : List Attribute) : p.prepared attrs = attrs := by rw [prepared, hkeys]
    have hopens : ∃ more, part = t.attributes ++ more ∧ ∀ a ∈ more, a.key ∉ transferKeys := by
      rwa [IsBankTransfer, hkeys] at h
    obtain ⟨others, rfl, hothers⟩ := hopens
    rw [hprepared, hprepared, hrule, hread, List.append_assoc, Rule.find_append_of_fits rfl rfl rfl,
      Rule.find_append_of_first rfl fun a ha => ?_]
    have hne : a.key ≠ "recipient" := fun h => hothers a ha (h ▸ by decide)
    simp [RuleItem.accepts, hne]

/-- **The bank transfers in some entries are found**, each with its attributes in the order
in which they are read. -/
theorem findIn_bankTransfers {entries : List Entry} {transfers : List BankTransfer}
    {parts : List (List Attribute)} (h : Holds EventType.transfer.name entries parts)
    (hparts : List.Forall₂ p.IsBankTransfer transfers parts) :
    (p.bankRule.findIn (entries.map p.prepare)).Perm (transfers.map p.readAttributes) := by
  have hnone : p.bankRule.find (p.prepared []) = [] := by
    unfold prepared
    split <;> rfl
  have hone {t : BankTransfer} {part : List Attribute} (hpart : p.IsBankTransfer t part) :
      p.bankRule.find (p.prepared part) = [p.readAttributes t] := by
    have hfound := find_bankTransfer hpart []
    rwa [List.append_nil, hnone] at hfound
  -- An entry holds several transfers, one behind the other.
  have hjoined : ∀ pieces, pieces ⊆ parts → p.bankRule.find (p.prepared pieces.flatten) =
      pieces.flatMap fun part => p.bankRule.find (p.prepared part) := by
    intro pieces hpieces
    induction pieces with
    | nil => exact hnone
    | cons part pieces ih =>
      obtain ⟨hpart, hpieces⟩ := List.cons_subset.1 hpieces
      obtain ⟨t, -, ht⟩ := exists_of_mem_forall₂ hparts hpart
      rw [List.flatten_cons, find_bankTransfer ht, ih hpieces, List.flatMap_cons, hone ht,
        List.singleton_append]
  have hall : (parts.flatMap fun part => p.bankRule.find (p.prepared part)) =
      transfers.map p.readAttributes := by
    clear h hjoined
    induction hparts with
    | nil => rfl
    | cons hpart _ ih =>
      rw [List.flatMap_cons, hone hpart, ih, List.map_cons, List.singleton_append]
  rw [findIn_prepare, ← hall]
  exact h.perm_flatMap (fun attrs => p.bankRule.find (p.prepared attrs)) hjoined

end Profile

/-! ## What is found in all entries -/

section

variable {α β ι : Type} {a : α}

theorem Gives.lift {x : Except ReadError α} (h : x = .ok a) : Gives (liftM x) a [] := by
  subst h
  exact fun _ => rfl

theorem Gives.mapM {k : ι → Flagging β} {l : List ι} {bs : List β}
    (h : List.Forall₂ (fun i b => Gives (k i) b []) l bs) : Gives (l.mapM k) bs [] := by
  induction h with
  | nil =>
    rw [List.mapM_nil]
    exact .pure []
  | cons hb _ ih =>
    rw [List.mapM_cons]
    exact hb.bind (ih.bind (.pure _))

theorem gives_kept {read : ι → Flagging (Option Record)} {found : List ι} {records : List Record}
    (h : List.Forall₂ (fun i r => Gives (read i) (some r) []) found records) (tx : RawTx) :
    Gives (do let readings ← found.mapM read
              return (readings.filterMap id).map (·.stamped tx)) (records.map (·.stamped tx))
                [] := by
  have hread : Gives (found.mapM read) (records.map some) [] :=
    .mapM (List.forall₂_map_right_iff.2 h)
  have hkept : (records.map some).filterMap id = records := by simp [List.filterMap_map]
  refine hread.bind ?_
  rw [hkept]
  exact .pure _

end

namespace Profile

variable {p : Profile} {height : Int} {registry : Registry} {tx : RawTx}

/-- The records that the matches in some entries are read to, kind by kind: all transfers matter,
and no share token is minted to a pair. -/
structure Reads (p : Profile) (height : Int) (registry : Registry) (entries : List Entry)
    (actions tokens coins : List Record) : Prop where
  actions : List.Forall₂ (fun m r => (p.pairReader height).read registry m = .ok r)
    ((p.pairRule registry.contracts).findIn entries) actions
  minted : (Rule.firstProvide registry.contracts).findIn entries = []
  tokens : List.Forall₂ (fun m r => Gives ((p.tokenReader height).read registry m) (some r) [])
    (p.tokenRule.findIn entries) tokens
  coins : List.Forall₂ (fun m r => Gives (readBankTransfer 0 registry m) (some r) [])
    (p.bankRule.findIn (entries.map p.prepare)) coins

theorem Reads.gives_findings {e : Entry} {actions tokens coins : List Record}
    (h : p.Reads height registry [e] actions tokens coins) :
    Gives (p.findings height registry tx e) {
      actions := actions.map (·.stamped tx)
      tokenTransfers := tokens.map (·.stamped tx)
      bankTransfers := coins.map (·.stamped tx) } [] := by
  have hactions : p.pairActions height registry tx [e] = .ok (actions.map (·.stamped tx)) := by
    refine mapM_eq_ok.2 (List.forall₂_map_right_iff.2 (h.actions.imp fun m r hr => ?_))
    exact bind_eq_ok.2 ⟨r, hr, rfl⟩
  have hminted : p.minted registry tx e (actions.map (·.stamped tx)) = .ok [] :=
    minted_of_findIn_eq_nil (fun _ => h.minted) _
  unfold findings
  refine (Gives.lift hactions).bind ((Gives.lift hminted).bind ?_)
  rw [List.append_nil]
  exact (gives_kept h.tokens tx).bind ((gives_kept h.coins tx).bind (.pure _))

/-- **What is found in all entries is what their matches are read to**, kind by kind. -/
theorem Reads.gives_allFindings {entries : List Entry} {actions tokens coins : List Record}
    (h : p.Reads height registry entries actions tokens coins) :
    Gives (p.allFindings height registry tx entries) {
      actions := actions.map (·.stamped tx)
      tokenTransfers := tokens.map (·.stamped tx)
      bankTransfers := coins.map (·.stamped tx) } [] := by
  induction entries generalizing actions tokens coins with
  | nil =>
    obtain rfl := List.forall₂_nil_left_iff.1 h.actions
    obtain rfl := List.forall₂_nil_left_iff.1 h.tokens
    obtain rfl := List.forall₂_nil_left_iff.1 h.coins
    exact .pure _
  | cons e rest ih =>
    obtain ⟨hactions, hminted, htokens, hcoins⟩ := h
    rw [Rule.findIn_cons] at hactions htokens
    rw [List.map_cons, Rule.findIn_cons] at hcoins
    rw [Rule.findIn_cons, List.append_eq_nil_iff] at hminted
    obtain ⟨actions, actions', rfl, ha, ha'⟩ := forall₂_append_left hactions
    obtain ⟨tokens, tokens', rfl, ht, ht'⟩ := forall₂_append_left htokens
    obtain ⟨coins, coins', rfl, hc, hc'⟩ := forall₂_append_left hcoins
    simp only [List.map_append]
    have hhere : p.Reads height registry [e] actions tokens coins := ⟨ha, hminted.1, ht, hc⟩
    exact gives_allFindings_cons hhere.gives_findings (ih ⟨ha', hminted.2, ht', hc'⟩)

end Profile

end PoolLedger
