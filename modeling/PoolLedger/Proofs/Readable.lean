import PoolLedger.Proofs.Block
import PoolLedger.Proofs.Flow

/-!
# Amounts that are kept as they are written

Most amounts of a record have been computed, and what is computed can be read. The others
are kept as the event has them (`Origin.copied`): the share of a provision, of a first
provision or of a withdrawal, the provided assets of which no refund is taken off, and what
a transfer moves into a pool.

So the amounts of a record can be read exactly when those can (`Profile.Yields.isReadable_iff`).
-/

namespace PoolLedger

open Amount (IsReadable)

/-! ## Amounts of records -/

/-- Both legs have amounts of some sort. -/
def Legs.All (P : String → Prop) (l : Legs) : Prop :=
  P l.first.amount ∧ P l.second.amount

/-- Whether the amounts of both legs can be read. -/
def Legs.IsReadable (l : Legs) : Prop :=
  Amount.IsReadable l.first.amount ∧ Amount.IsReadable l.second.amount

/-- Whether the amounts of a record that count toward its pool can be read. -/
def Record.IsReadable (r : Record) : Prop :=
  r.legs.IsReadable ∧ Amount.IsReadable r.shareAmount

instance (r : Record) : Decidable r.IsReadable :=
  inferInstanceAs (Decidable ((_ ∧ _) ∧ _))

theorem isReadable_ofRecord (chain : String) (height : Int) (r : Record) :
    (RecordRow.ofRecord chain height r).IsReadable ↔ r.IsReadable := by
  rw [Record.IsReadable, Legs.IsReadable, and_assoc]
  rfl

theorem Legs.mem_orderBy (first : String) (l : Legs) (a : Asset) :
    a ∈ (l.orderBy first).toList ↔ a ∈ l.toList := by
  by_cases h : l.first.addr = first
  · simp [orderBy, h]
  · simp [orderBy, h, toList, or_comm]

theorem Legs.all_iff {P : String → Prop} {l : Legs} : l.All P ↔ ∀ a ∈ l.toList, P a.amount := by
  simp [All, toList]

theorem Legs.all_orderBy {P : String → Prop} {l : Legs} (first : String) :
    (l.orderBy first).All P ↔ l.All P := by
  simp only [all_iff, mem_orderBy]

theorem Legs.isReadable_iff (l : Legs) :
    l.IsReadable ↔ ∀ a ∈ l.toList, Amount.IsReadable a.amount :=
  all_iff

theorem Legs.isReadable_orderBy (first : String) (l : Legs) :
    (l.orderBy first).IsReadable ↔ l.IsReadable :=
  all_orderBy first

/-! ## Actions of pairs -/

/-- The assets that a provision lists. -/
def providedAssets (fields : Fields) : List Asset :=
  match (fields.get? "assets").map Asset.ofCoinPair with
  | some (.ok provided) => provided.toList
  | _ => []

/-- What a provision keeps as written when refunds are taken off some assets. -/
def copiedByProvide (refunds : Asset → Bool) (fields : Fields) : List String :=
  ((providedAssets fields).filter fun a => !refunds a).map (·.amount) ++
    (fields.get? "share").toList

theorem forall_copiedByProvide {refunds : Asset → Bool} {fields : Fields} :
    (∀ text ∈ copiedByProvide refunds fields, IsReadable text) ↔
      (∀ a ∈ providedAssets fields, refunds a = false → IsReadable a.amount) ∧
        ∀ text ∈ fields.get? "share", IsReadable text := by
  simp only [copiedByProvide, List.mem_append, or_imp, forall_and, List.forall_mem_map,
    List.mem_filter, Bool.not_eq_true', and_imp, Option.mem_toList, Option.mem_def]

namespace Strategy

variable {s : Strategy} {fields : Fields} {pair : Pair} {r : Record}

/-- The assets of which refunds are taken off. -/
def refunds (s : Strategy) (fields : Fields) : Asset → Bool :=
  match s with
  | plain | feeDeducting => fun _ => false
  | reconciling tokenPrefix => fun a => tokenPrefix.toList.isPrefixOf a.addr.toList
  | taxedReconciling tokenPrefix =>
    if fields.has "refund_assets" then fun a => tokenPrefix.toList.isPrefixOf a.addr.toList
    else fun _ => false

/-- The amounts that an action keeps as written. -/
def copied (s : Strategy) (action : String) (fields : Fields) : List String :=
  if action = Action.swap then []
  else if action = Action.provide then copiedByProvide (s.refunds fields) fields
  else (fields.get? "withdrawn_share").toList

theorem isReadable_plainSwap (h : plainSwap fields pair = .ok r) : r.IsReadable := by
  obtain ⟨offered, _, _, inflow, _, outflow, _, -, -, -, hin, -, hout, -, rfl⟩ := plainSwap_eq_ok h
  have hinflow := Amount.isReadable_of_write hin
  have houtflow := Amount.isReadable_of_negate hout
  refine ⟨?_, Amount.isReadable_empty⟩
  show (swapLegs pair _ inflow outflow).IsReadable
  unfold swapLegs
  split
  · exact ⟨houtflow, hinflow⟩
  · exact ⟨hinflow, houtflow⟩

theorem isReadable_swap (h : s.swap fields pair = .ok r) : r.IsReadable := by
  obtain h | ⟨plain, _, _, _, _, _, outflow, hplain, -, -, -, -, -, hout, rfl⟩ := exists_of_swap h
  · exact isReadable_plainSwap h
  · obtain ⟨⟨hfirst, hsecond⟩, hshare⟩ := isReadable_plainSwap hplain
    have houtflow := Amount.isReadable_of_write hout
    split
    · exact ⟨⟨houtflow, hsecond⟩, hshare⟩
    · exact ⟨⟨hfirst, houtflow⟩, hshare⟩

theorem isReadable_plainProvide (h : plainProvide fields pair = .ok r) :
    r.IsReadable ↔ ∀ text ∈ copiedByProvide (fun _ => false) fields, IsReadable text := by
  obtain ⟨text, provided, share, htext, hprovided, hshare, rfl⟩ := plainProvide_eq_ok h
  have hassets : providedAssets fields = provided.toList := by
    rw [providedAssets, htext, Option.map_some, hprovided]
  rw [Record.IsReadable, Legs.isReadable_orderBy, Legs.isReadable_iff, forall_copiedByProvide,
    hassets, hshare]
  simp

/-- A leg of which a refund is taken off is computed, and any other one stays as it is. -/
theorem isReadable_netLeg {tokenPrefix : String} {provided refunded leg : Asset}
    (h : netLeg tokenPrefix provided refunded = .ok leg) :
    IsReadable leg.amount ↔
      (tokenPrefix.toList.isPrefixOf provided.addr.toList = false →
        IsReadable provided.amount) := by
  obtain ⟨htoken, amount, hsub, rfl⟩ | ⟨htoken, rfl⟩ := exists_of_netLeg h
  · have hamount := Amount.isReadable_of_sub hsub
    exact iff_of_true hamount fun hnot => absurd (htoken.symm.trans hnot) nofun
  · exact ⟨fun hamount _ => hamount, fun hamount => hamount htoken⟩

theorem isReadable_refundedProvide {tokenPrefix : String}
    (h : refundedProvide tokenPrefix fields pair = .ok r) :
    r.IsReadable ↔ ∀ text ∈ copiedByProvide
      (fun a => tokenPrefix.toList.isPrefixOf a.addr.toList) fields, IsReadable text := by
  obtain ⟨text, provided, _, refunded, first, second, share, htext, hprovided, -, -, hfirst,
    hsecond, hshare, rfl⟩ := refundedProvide_eq_ok h
  have hassets : providedAssets fields = provided.toList := by
    rw [providedAssets, htext, Option.map_some, hprovided]
  have hlegs : (Legs.mk first second).IsReadable ↔ ∀ a ∈ provided.toList,
      tokenPrefix.toList.isPrefixOf a.addr.toList = false → IsReadable a.amount := by
    rw [Legs.IsReadable, isReadable_netLeg hfirst, isReadable_netLeg hsecond]
    simp only [← Legs.mem_orderBy pair.first provided]
    simp [Legs.toList]
  rw [Record.IsReadable, hlegs, forall_copiedByProvide, hassets, hshare]
  simp

theorem isReadable_provide (h : s.provide fields pair = .ok r) :
    r.IsReadable ↔ ∀ text ∈ copiedByProvide (s.refunds fields) fields, IsReadable text := by
  cases s with
  | plain => exact isReadable_plainProvide h
  | feeDeducting => exact isReadable_plainProvide h
  | reconciling tokenPrefix => exact isReadable_refundedProvide h
  | taxedReconciling tokenPrefix =>
    unfold provide at h
    unfold refunds
    dsimp only at h ⊢
    by_cases hrefund : fields.has "refund_assets"
    · rw [if_pos hrefund] at h ⊢
      exact isReadable_refundedProvide h
    · rw [if_neg hrefund] at h ⊢
      exact isReadable_plainProvide h

theorem isReadable_withdrawnAmount {amount withdrawn : String}
    (h : s.withdrawnAmount amount = .ok withdrawn) : IsReadable withdrawn := by
  cases s with
  | feeDeducting =>
    obtain ⟨_, -, h⟩ := bind_eq_ok.1 h
    obtain ⟨paid, -, h⟩ := bind_eq_ok.1 h
    exact Amount.isReadable_of_negate h
  | _ => exact Amount.isReadable_of_negate h

theorem isReadable_withdraw (h : s.withdraw fields pair = .ok r) :
    r.IsReadable ↔ ∀ text ∈ (fields.get? "withdrawn_share").toList, IsReadable text := by
  obtain ⟨text, legs, share, -, hlegs, hshare, rfl⟩ := withdraw_eq_ok h
  have hreadable : legs.IsReadable := by
    simp only [withdrawnLegs, bind_eq_ok, pure_eq_ok] at hlegs
    obtain ⟨_, -, first, hfirst, second, hsecond, rfl⟩ := hlegs
    rw [Legs.isReadable_orderBy]
    exact ⟨isReadable_withdrawnAmount hfirst, isReadable_withdrawnAmount hsecond⟩
  simp [Record.IsReadable, hreadable, hshare]

/-- **The amounts of an action can be read exactly when those can that are kept as written.** -/
theorem isReadable_handle {action : String} (h : s.handle action fields pair = .ok r) :
    r.IsReadable ↔ ∀ text ∈ s.copied action fields, IsReadable text := by
  unfold copied
  rcases (handle_eq_ok h).2 with ⟨rfl, hr, -⟩ | ⟨rfl, hr, -⟩ | ⟨rfl, hr, -⟩
  · rw [if_pos rfl]
    exact iff_of_true (isReadable_swap hr) nofun
  · rw [if_neg (by decide), if_pos rfl]
    exact isReadable_provide hr
  · rw [if_neg (by decide), if_neg (by decide)]
    exact isReadable_withdraw hr

end Strategy

/-! ## Transfers -/

/-- What moves out is computed, and what moves in stays as it is. -/
theorem Party.Leaves.isReadable_iff {party : Party} {moved? : Option String} {after : String}
    (h : party.Leaves moved? "" after) :
    IsReadable after ↔ (party.outflow = false → ∀ text ∈ moved?, IsReadable text) := by
  cases moved? with
  | none =>
    have hafter : after = "" := h
    rw [hafter]
    exact iff_of_true Amount.isReadable_empty fun _ => nofun
  | some amount =>
    have hsigned : party.signed amount = .ok after := h
    unfold signed at hsigned
    split at hsigned
    · rename_i hout
      exact iff_of_true (Amount.isReadable_of_negate hsigned) fun hin => by simp [hout] at hin
    · rename_i hin
      obtain rfl := Except.ok.inj hsigned
      simp [hin]

/-! ## Every origin -/

/-- The amounts that a record keeps as its origin has them. -/
def Origin.copied (p : Profile) (height : Int) : Origin → List String
  | creation _ => []
  | action accepted => (p.deployment.strategy height).copied accepted.action accepted.fields
  | firstProvide attrs => (Fields.get? (attrs.map fun a => (a.key, a.value)) "amount").toList
  | transfer party legs =>
    if party.outflow then []
    else (party.firstMoved? legs).toList ++ (party.secondMoved? legs).toList

variable {p : Profile} {height : Int} {registry : Registry} {tx : RawTx} {o : Origin} {r : Record}

/-- **The amounts of a record can be read exactly when those can that it keeps as written.** -/
theorem Profile.Yields.isReadable_iff (h : p.Yields height registry tx o r) :
    r.IsReadable ↔ ∀ text ∈ o.copied p height, IsReadable text := by
  cases h with
  | creation _ hread =>
    obtain ⟨_, _, _, _, rfl⟩ := readCreation_eq_ok hread
    -- Amounts that are not set count as zero.
    have hempty := Amount.isReadable_empty
    exact iff_of_true ⟨⟨hempty, hempty⟩, hempty⟩ nofun
  | @action _ _ r _ _ hhandle =>
    show r.IsReadable ↔ _
    exact Strategy.isReadable_handle hhandle
  | firstProvide _ hread =>
    obtain ⟨fields, _, _, amount, rfl, -, -, hamount, rfl⟩ := readFirstProvide_eq_ok hread
    have hempty := Amount.isReadable_empty
    rw [Origin.copied, hamount]
    constructor
    · rintro ⟨-, hshare⟩ text htext
      rw [List.mem_singleton.1 htext]
      exact hshare
    · exact fun hcopied => ⟨⟨hempty, hempty⟩, hcopied amount List.mem_cons_self⟩
  | @transfer _ _ party legs _ _ r _ _ hrecord =>
    obtain ⟨-, -, hshare, hfirst, hsecond⟩ := Party.record_eq_ok hrecord
    show r.IsReadable ↔ _
    rw [Record.IsReadable, Legs.IsReadable, hfirst.isReadable_iff, hsecond.isReadable_iff, hshare,
      and_iff_left Amount.isReadable_empty, Origin.copied]
    cases party.outflow <;> simp [or_imp, forall_and]

end PoolLedger
