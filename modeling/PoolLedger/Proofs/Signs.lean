import PoolLedger.Proofs.Acceptance
import PoolLedger.Proofs.AssetOrder
import PoolLedger.Proofs.Decimal
import PoolLedger.Proofs.Readable

/-!
# The signs of amounts

The amounts of a record are positive for what goes into a pool and negative for what goes out. The
signs are set in different places: a swap negates what it returns and adds the tax first, a
provision takes off what is refunded, a withdrawal negates what it pays out, possibly after a fee,
and a transfer out of the pair is negated. Each strategy keeps to the same signs
(`Strategy.swap_signs`, `Strategy.provide_signs`, `Strategy.withdraw_signs`), provided that the
amounts that the events tell have no sign of their own (`Profile.TellsUnsigned`) and that no
provision gets more back than it provides (`Profile.RefundsAtMost`).

An amount that is only copied may have more digits than can be read, so signs are those of the
integer that a text denotes whatever its length (`Amount.integer?`). An empty amount counts as
zero and has both signs.

`Profile.signs_of_extract` says which signs the records of a transaction have.
-/

namespace PoolLedger

/-! ## Amounts with a sign -/

namespace Amount

variable {text a b : String} {m n : Int}

/-- The integer that an amount denotes, whatever the number of its digits. -/
def integer? (text : String) : Option Int :=
  if text = "" then some 0
  else
    let (negative, digits) := Numeral.splitSign text.toList
    match digits.mapM Numeral.digit? with
    | none | some [] => none
    | some ds => some (Numeral.signed negative (Numeral.value ds))

/-- A text of decimal digits. -/
def IsUnsigned (text : String) : Prop :=
  text ≠ "" ∧ ∀ c ∈ text.toList, c.isDigit

def IsNonneg (text : String) : Prop :=
  ∃ n ∈ integer? text, 0 ≤ n

def IsNonpos (text : String) : Prop :=
  ∃ n ∈ integer? text, n ≤ 0

/-- An amount is not greater than another one. -/
def IsAtMost (a b : String) : Prop :=
  ∀ m ∈ integer? a, ∀ n ∈ integer? b, m ≤ n

-- Over the characters of the text, not over all there are.
instance (text : String) : Decidable (IsUnsigned text) :=
  @instDecidableAnd _ _ inferInstance (List.decidableBAll _ text.toList)

instance (text : String) : Decidable (IsNonneg text) :=
  inferInstanceAs (Decidable (∃ n ∈ integer? text, 0 ≤ n))

instance (text : String) : Decidable (IsNonpos text) :=
  inferInstanceAs (Decidable (∃ n ∈ integer? text, n ≤ 0))

instance (a b : String) : Decidable (IsAtMost a b) :=
  inferInstanceAs (Decidable (∀ m ∈ integer? a, ∀ n ∈ integer? b, m ≤ n))

theorem integer?_of_read (h : read text = .ok n) : integer? text = some n := by
  unfold read at h
  unfold integer?
  by_cases hempty : text = ""
  · rw [if_pos hempty] at h ⊢
    rw [Except.ok.inj h]
  · rw [if_neg hempty] at h ⊢
    dsimp only at h ⊢
    cases hds : (Numeral.splitSign text.toList).2.mapM Numeral.digit? with
    | none =>
      rw [hds] at h
      cases h
    | some ds =>
      rw [hds] at h
      cases ds with
      | nil => cases h
      | cons d ds =>
        -- A numeral that is too long is denoted as well, but not read.
        dsimp only at h ⊢
        rw [mapError_eq_ok, Numeral.read] at h
        split at h
        · cases h
        · rw [Except.ok.inj h]

theorem integer?_of_write (h : write n = .ok text) : integer? text = some n :=
  integer?_of_read (read_of_write h)

theorem isNonneg_empty : IsNonneg "" := ⟨0, rfl, le_rfl⟩

theorem isNonpos_empty : IsNonpos "" := ⟨0, rfl, le_rfl⟩

theorem IsUnsigned.isNonneg (h : IsUnsigned text) : IsNonneg text := by
  obtain ⟨hne, hdigits⟩ := h
  unfold IsNonneg integer?
  rw [if_neg hne, Numeral.splitSign_of_isDigit hdigits]
  dsimp only
  rw [Numeral.mapM_digit? hdigits]
  cases hchars : text.toList with
  | nil => exact absurd (String.toList_eq_nil_iff.1 hchars) hne
  | cons c cs => exact ⟨_, rfl, Int.natCast_nonneg _⟩

theorem nonneg_of_read (h : IsNonneg text) (hread : read text = .ok n) : 0 ≤ n := by
  obtain ⟨m, hm, hle⟩ := h
  rwa [Option.some.inj ((integer?_of_read hread).symm.trans hm)]

theorem isNonpos_of_write (hn : n ≤ 0) (h : write n = .ok text) : IsNonpos text :=
  ⟨n, integer?_of_write h, hn⟩

theorem isNonneg_of_write (hn : 0 ≤ n) (h : write n = .ok text) : IsNonneg text :=
  ⟨n, integer?_of_write h, hn⟩

theorem isNonpos_of_negate (ha : IsNonneg a) (h : negate a = .ok text) : IsNonpos text := by
  obtain ⟨n, hn, h⟩ := bind_eq_ok.1 h
  exact isNonpos_of_write (Int.neg_nonpos_of_nonneg (nonneg_of_read ha hn)) h

theorem isNonneg_of_sub (hba : IsAtMost b a) (h : sub a b = .ok text) : IsNonneg text := by
  obtain ⟨m, hm, h⟩ := bind_eq_ok.1 h
  obtain ⟨n, hn, h⟩ := bind_eq_ok.1 h
  exact isNonneg_of_write (Int.sub_nonneg.2 (hba n (integer?_of_read hn) m (integer?_of_read hm))) h

end Amount

open Amount (IsUnsigned IsNonneg IsNonpos IsAtMost)

namespace Legs

variable {P Q : String → Prop} {l : Legs}

/-- One leg goes in and the other one out. -/
def IsExchange (l : Legs) : Prop :=
  IsNonneg l.first.amount ∧ IsNonpos l.second.amount ∨
  IsNonpos l.first.amount ∧ IsNonneg l.second.amount

instance (P : String → Prop) [DecidablePred P] (l : Legs) : Decidable (l.All P) :=
  inferInstanceAs (Decidable (_ ∧ _))

theorem All.imp (h : l.All P) (hPQ : ∀ text, P text → Q text) : l.All Q :=
  ⟨hPQ _ h.1, hPQ _ h.2⟩

end Legs

/-! ## What events tell -/

namespace Fields

/-- The keys of the amounts of a swap. -/
def amountKeys : List String := ["offer_amount", "return_amount", "tax_amount"]

/-- The keys of the coins of a provision or a withdrawal. -/
def listKeys : List String := ["assets", "refund_assets"]

variable {fields : Fields}

/-- All amounts are unsigned. -/
structure AreUnsigned (fields : Fields) : Prop where
  amounts : ∀ key ∈ amountKeys, ∀ text ∈ fields.get? key, IsUnsigned text
  lists : ∀ key ∈ listKeys, ∀ listed ∈ listedCoins? (fields.get? key), listed.All IsUnsigned

/-- Of neither leg is more refunded than provided. -/
def RefundsAtMost (fields : Fields) (first : String) : Prop :=
  ∀ provided ∈ listedCoins? (fields.get? "assets"),
    ∀ refunded ∈ listedCoins? (fields.get? "refund_assets"),
      IsAtMost (refunded.orderBy first).first.amount (provided.orderBy first).first.amount ∧
      IsAtMost (refunded.orderBy first).second.amount (provided.orderBy first).second.amount

theorem AreUnsigned.isNonneg (h : fields.AreUnsigned) {key text : String} (hkey : key ∈ amountKeys)
    (hget : fields.get? key = some text) : IsNonneg text :=
  (h.amounts key hkey text hget).isNonneg

theorem AreUnsigned.listed (h : fields.AreUnsigned) {key text : String} {listed : Legs}
    (hkey : key ∈ listKeys) (hget : fields.get? key = some text)
    (hlisted : Asset.ofCoinPair text = .ok listed) : listed.All IsNonneg :=
  (h.lists key hkey listed (hget ▸ Strategy.listedCoins?_of_ofCoinPair hlisted)).imp fun _ =>
    IsUnsigned.isNonneg

end Fields

/-! ## The actions of a pair -/

namespace Strategy

variable {s : Strategy} {fields : Fields} {pair : Pair} {r : Record}

/-- What is offered goes in, and the other asset goes out. -/
theorem plainSwap_signs (hunsigned : fields.AreUnsigned) (h : plainSwap fields pair = .ok r) :
    ∃ offered, fields.get? "offer_asset" = some offered ∧
      if offered = pair.second then IsNonpos r.legs.first.amount ∧ IsNonneg r.legs.second.amount
      else IsNonneg r.legs.first.amount ∧ IsNonpos r.legs.second.amount := by
  obtain ⟨offered, offer, n, inflow, given, outflow, _, hoffered, hoffer, hn, hinflow, hgiven,
    houtflow, -, rfl⟩ := plainSwap_eq_ok h
  have hin : IsNonneg inflow :=
    Amount.isNonneg_of_write (Amount.nonneg_of_read (hunsigned.isNonneg (by decide) hoffer) hn)
      hinflow
  have hout : IsNonpos outflow :=
    Amount.isNonpos_of_negate (hunsigned.isNonneg (by decide) hgiven) houtflow
  refine ⟨offered, hoffered, ?_⟩
  by_cases hsecond : offered = pair.second
  · rw [if_pos hsecond]
    dsimp only
    rw [decide_eq_true hsecond]
    exact ⟨hout, hin⟩
  · rw [if_neg hsecond]
    dsimp only
    rw [decide_eq_false hsecond]
    exact ⟨hin, hout⟩

theorem swap_signs (hunsigned : fields.AreUnsigned) (h : s.swap fields pair = .ok r) :
    r.legs.IsExchange := by
  obtain h | ⟨plain, tax, offered, given, m, n, outflow, hswap, htax, hoffered, hgiven, hm, hn,
    hout, rfl⟩ :=
    exists_of_swap h
  · obtain ⟨_, -, hsigns⟩ := plainSwap_signs hunsigned h
    split at hsigns
    · exact .inr hsigns
    · exact .inl hsigns
  · obtain ⟨_, hoffered', hsigns⟩ := plainSwap_signs hunsigned hswap
    obtain rfl := Option.some.inj (hoffered'.symm.trans hoffered)
    -- The tax only replaces the leg that goes out already.
    have hreturned := Amount.nonneg_of_read (hunsigned.isNonneg (by decide) hgiven) hm
    have htaxed := Amount.nonneg_of_read (hunsigned.isNonneg (by decide) htax) hn
    have houtflow : IsNonpos outflow := Amount.isNonpos_of_write (by omega) hout
    split_ifs at hsigns ⊢
    · exact .inr ⟨houtflow, hsigns.2⟩
    · exact .inl ⟨hsigns.1, houtflow⟩

theorem plainProvide_signs (hunsigned : fields.AreUnsigned) (h : plainProvide fields pair = .ok r) :
    r.legs.All IsNonneg := by
  obtain ⟨text, provided, _, htext, hprovided, -, rfl⟩ := plainProvide_eq_ok h
  exact (Legs.all_orderBy pair.first).2 (hunsigned.listed (by decide) htext hprovided)

/-- A leg of which no more is refunded than provided goes in. -/
theorem isNonneg_netLeg {tokenPrefix : String} {provided refunded leg : Asset}
    (hprovided : IsNonneg provided.amount) (hrefunded : IsAtMost refunded.amount provided.amount)
    (h : netLeg tokenPrefix provided refunded = .ok leg) : IsNonneg leg.amount := by
  obtain ⟨-, amount, hsub, rfl⟩ | ⟨-, rfl⟩ := exists_of_netLeg h
  · exact Amount.isNonneg_of_sub hrefunded hsub
  · exact hprovided

theorem refundedProvide_signs {tokenPrefix : String} (hunsigned : fields.AreUnsigned)
    (hrefunds : fields.RefundsAtMost pair.first)
    (h : refundedProvide tokenPrefix fields pair = .ok r) :
    r.legs.All IsNonneg := by
  obtain ⟨text, provided, refundText, refunded, first, second, _, htext, hprovided, hrefundText,
    hrefunded, hfirst, hsecond, -, rfl⟩ := refundedProvide_eq_ok h
  obtain ⟨hprovidedFirst, hprovidedSecond⟩ :=
    (Legs.all_orderBy pair.first).2 (hunsigned.listed (by decide) htext hprovided)
  obtain ⟨hrefundedFirst, hrefundedSecond⟩ := hrefunds provided
    (htext ▸ listedCoins?_of_ofCoinPair hprovided) refunded
    (hrefundText ▸ listedCoins?_of_ofCoinPair hrefunded)
  exact ⟨isNonneg_netLeg hprovidedFirst hrefundedFirst hfirst,
    isNonneg_netLeg hprovidedSecond hrefundedSecond hsecond⟩

theorem provide_signs (hunsigned : fields.AreUnsigned) (hrefunds : fields.RefundsAtMost pair.first)
    (h : s.provide fields pair = .ok r) : r.legs.All IsNonneg := by
  obtain h | ⟨_, h⟩ := exists_of_provide h
  · exact plainProvide_signs hunsigned h
  · exact refundedProvide_signs hunsigned hrefunds h

theorem paidOutPart_scale_nonneg {n : Int} (hn : 0 ≤ n) : 0 ≤ paidOutPart.scale n := by
  have hpart : 0 ≤ paidOutPart.value := by
    rw [paidOutPart, Decimal.value]
    positivity
  rw [Decimal.scale_eq]
  exact towardZero_nonneg (mul_nonneg hpart (Int.cast_nonneg hn))

theorem isNonpos_withdrawnAmount {amount withdrawn : String} (hamount : IsNonneg amount)
    (h : s.withdrawnAmount amount = .ok withdrawn) : IsNonpos withdrawn := by
  cases s with
  | feeDeducting =>
    obtain ⟨n, hn, h⟩ := bind_eq_ok.1 h
    obtain ⟨paid, hpaid, h⟩ := bind_eq_ok.1 h
    have hscaled := paidOutPart_scale_nonneg (Amount.nonneg_of_read hamount hn)
    exact Amount.isNonpos_of_negate (Amount.isNonneg_of_write hscaled hpaid) h
  | _ => exact Amount.isNonpos_of_negate hamount h

theorem withdraw_signs (hunsigned : fields.AreUnsigned) (h : s.withdraw fields pair = .ok r) :
    r.legs.All IsNonpos := by
  obtain ⟨text, legs, _, htext, hlegs, -, rfl⟩ := withdraw_eq_ok h
  simp only [withdrawnLegs, bind_eq_ok, pure_eq_ok] at hlegs
  obtain ⟨listed, hlisted, first, hfirst, second, hsecond, rfl⟩ := hlegs
  obtain ⟨hnonneg, hnonneg'⟩ := hunsigned.listed (by decide) htext hlisted
  exact (Legs.all_orderBy pair.first).2
    ⟨isNonpos_withdrawnAmount hnonneg hfirst, isNonpos_withdrawnAmount hnonneg' hsecond⟩

end Strategy

/-! ## Transfers -/

namespace Members

variable {ms : Members} {key k : Text} {value v : Json}

theorem mem_keys_put : k ∈ (ms.put key value).map (·.1) ↔ k = key ∨ k ∈ ms.map (·.1) := by
  induction ms with
  | nil => simp [put]
  | cons m ms ih =>
    unfold put
    split
    · rename_i heq
      simp [heq]
    · rw [List.map_cons, List.mem_cons, ih, List.map_cons, List.mem_cons, or_left_comm]

theorem nodup_put (h : (ms.map (·.1)).Nodup) : ((ms.put key value).map (·.1)).Nodup := by
  induction ms with
  | nil => simp [put]
  | cons m ms ih =>
    rw [List.map_cons, List.nodup_cons] at h
    unfold put
    split
    · exact List.nodup_cons.2 h
    · rename_i hne
      refine List.nodup_cons.2 ⟨fun hmem => ?_, ih h.2⟩
      rcases mem_keys_put.1 hmem with heq | hmem
      · exact hne heq
      · exact h.1 hmem

theorem mem_put (h : (ms.map (·.1)).Nodup) (hmem : (k, v) ∈ ms.put key value) :
    k = key ∧ v = value ∨ k ≠ key ∧ (k, v) ∈ ms := by
  induction ms with
  | nil =>
    obtain ⟨rfl, rfl⟩ := Prod.mk.inj (List.mem_singleton.1 hmem)
    exact .inl ⟨rfl, rfl⟩
  | cons m ms ih =>
    rw [List.map_cons, List.nodup_cons] at h
    unfold put at hmem
    split at hmem
    · rename_i heq
      rcases List.mem_cons.1 hmem with hmem | hmem
      · obtain ⟨rfl, rfl⟩ := Prod.mk.inj hmem
        exact .inl ⟨heq, rfl⟩
      · refine .inr ⟨?_, List.mem_cons_of_mem _ hmem⟩
        rintro rfl
        exact h.1 (heq ▸ List.mem_map_of_mem hmem)
    · rename_i hne
      rcases List.mem_cons.1 hmem with hmem | hmem
      · obtain ⟨rfl, rfl⟩ := Prod.mk.inj hmem
        exact .inr ⟨hne, List.mem_cons_self⟩
      · exact (ih h.2 hmem).imp_right fun ⟨hk, hold⟩ => ⟨hk, List.mem_cons_of_mem _ hold⟩

end Members

/-- The tokens that are moved and are none of the legs. -/
def Legs.others (l : Legs) (moved : List Asset) : List String :=
  (moved.filter fun a => a.addr ≠ l.first.addr ∧ a.addr ≠ l.second.addr).map (·.addr)

theorem Legs.others_cons {l : Legs} {a : Asset} {moved : List Asset}
    (hfirst : a.addr ≠ l.first.addr) (hsecond : a.addr ≠ l.second.addr) :
    l.others (a :: moved) = a.addr :: l.others moved := by
  simp [others, hfirst, hsecond]

theorem Legs.others_cons_of_held {l : Legs} {a : Asset} {moved : List Asset}
    (h : a.addr = l.first.addr ∨ a.addr = l.second.addr) :
    l.others (a :: moved) = l.others moved := by
  rcases h with h | h <;> simp [others, h]

/-- The notes of a transfer are the amounts, of some sort, of the tokens that the pair does not
hold, and the recipient unless one of them has that name. -/
def Record.Notes (r : Record) (recipient : String) (moved : List Asset)
    (P : String → Prop) : Prop :=
  ∀ key value, (key, value) ∈ r.notes →
    (∃ token ∈ r.legs.others moved, key = token) ∧
    (∃ amount : String, value = .str amount ∧ P amount) ∨
    (∀ token ∈ r.legs.others moved, key ≠ token) ∧ key = "recipient" ∧ value = .str recipient

theorem exists_of_lastAmount? {counts : Asset → Bool} {legs : List Asset} {amount : String}
    (h : lastAmount? counts legs = some amount) : ∃ leg ∈ legs, leg.amount = amount := by
  induction legs with
  | nil => cases h
  | cons leg rest ih =>
    rw [lastAmount?, Option.or_eq_some_iff] at h
    rcases h with h | ⟨-, h⟩
    · obtain ⟨leg', hleg', rfl⟩ := ih h
      exact ⟨leg', List.mem_cons_of_mem _ hleg', rfl⟩
    · split at h
      · exact ⟨leg, List.mem_cons_self, Option.some.inj h⟩
      · cases h

namespace Party

variable {p : Party} {legs : List Asset} {r r' : Record} {flags flags' : Flags} {P : String → Prop}

/-- What a transfer adds to a pool that sends or receives unsigned amounts. -/
def sign (p : Party) : String → Prop :=
  if p.outflow then IsNonpos else IsNonneg

theorem sign_of_signed {amount text : String} (hamount : IsUnsigned amount)
    (h : p.signed amount = .ok text) :
    p.sign text := by
  unfold signed at h
  unfold sign
  split at h
  · rename_i hout
    rw [if_pos hout]
    exact Amount.isNonpos_of_negate hamount.isNonneg h
  · rename_i hin
    rw [if_neg hin]
    exact Except.ok.inj h ▸ hamount.isNonneg

/-- A leg is either not touched or has the amount of something moved. -/
theorem Leaves.of_moved {counts : Asset → Bool} {after : String}
    (hmoved : ∀ leg ∈ legs, ∀ text, p.signed leg.amount = .ok text → P text) (hempty : P "")
    (h : p.Leaves (lastAmount? counts legs) "" after) : P after := by
  cases hlast : lastAmount? counts legs with
  | none =>
    rw [hlast] at h
    have hafter : after = "" := h
    exact hafter ▸ hempty
  | some amount =>
    rw [hlast] at h
    obtain ⟨leg, hleg, rfl⟩ := exists_of_lastAmount? hlast
    exact hmoved leg hleg after h

/-- Placing legs notes the amounts of those that the pair does not hold. -/
theorem mem_notes_of_place (hmoved : ∀ leg ∈ legs, ∀ text, p.signed leg.amount = .ok text → P text)
    (hnotes : (r.notes.map (·.1)).Nodup) (h : p.place legs r flags = (.ok r', flags')) {key : Text}
    {value : Json} (hmem : (key, value) ∈ r'.notes) :
    (∃ token ∈ p.pair.emptyLegs.others legs, key = token) ∧
        (∃ amount : String, value = .str amount ∧ P amount) ∨
      (∀ token ∈ p.pair.emptyLegs.others legs, key ≠ token) ∧ (key, value) ∈ r.notes := by
  induction legs generalizing r flags with
  | nil =>
    obtain ⟨rfl, -⟩ := run_pure_eq_ok.1 h
    exact .inr ⟨nofun, hmem⟩
  | cons leg rest ih =>
    rw [place] at h
    obtain ⟨amount, _, hlift, h⟩ := run_bind_eq_ok.1 h
    obtain ⟨hamount, rfl⟩ := run_lift_eq_ok.1 hlift
    have hrest : ∀ leg ∈ rest, ∀ text, p.signed leg.amount = .ok text → P text :=
      fun leg hleg => hmoved leg (List.mem_cons_of_mem _ hleg)
    by_cases hfirst : leg.addr = p.pair.first
    · rw [if_pos hfirst] at h
      rw [Legs.others_cons_of_held (.inl hfirst)]
      have hplaced := ih hrest (by exact hnotes) h
      exact hplaced
    · rw [if_neg hfirst] at h
      by_cases hsecond : leg.addr = p.pair.second
      · rw [if_pos hsecond] at h
        rw [Legs.others_cons_of_held (.inr hsecond)]
        have hplaced := ih hrest (by exact hnotes) h
        exact hplaced
      · rw [if_neg hsecond] at h
        obtain ⟨-, _, -, h⟩ := run_bind_eq_ok.1 h
        rw [Legs.others_cons hfirst hsecond]
        -- A later token of the same name overwrites the note, with an amount of the same sort.
        rcases ih hrest (Members.nodup_put hnotes) h with
            ⟨⟨token, htoken, hkey⟩, hvalue⟩ | ⟨hnew, hold⟩
        · exact .inl ⟨⟨token, List.mem_cons_of_mem _ htoken, hkey⟩, hvalue⟩
        · rcases Members.mem_put hnotes hold with ⟨rfl, rfl⟩ | ⟨hne, hold⟩
          · exact .inl ⟨⟨leg.addr, List.mem_cons_self, rfl⟩, amount, rfl,
              hmoved leg List.mem_cons_self amount hamount⟩
          · exact .inr ⟨List.forall_mem_cons.2 ⟨hne, hnew⟩, hold⟩

/-- The amounts of a transfer have the sign of its direction, also those of tokens that
the pair does not hold. -/
theorem record_signs {sender recipient : String} (hunsigned : ∀ leg ∈ legs, IsUnsigned leg.amount)
    (h : p.record sender recipient legs flags = (.ok r, flags')) :
    r.legs.All p.sign ∧ r.Notes recipient legs p.sign := by
  have hmoved : ∀ leg ∈ legs, ∀ text, p.signed leg.amount = .ok text → p.sign text :=
    fun leg hleg _ => sign_of_signed (hunsigned leg hleg)
  have hempty : p.sign "" := by
    unfold sign
    split
    · exact Amount.isNonpos_empty
    · exact Amount.isNonneg_empty
  obtain ⟨-, -, -, hfirst, hsecond⟩ := record_eq_ok h
  obtain ⟨-, haddr, haddr'⟩ := record_addrs h
  refine ⟨⟨hfirst.of_moved hmoved hempty, hsecond.of_moved hmoved hempty⟩, fun key value hmem => ?_⟩
  have hothers : r.legs.others legs = p.pair.emptyLegs.others legs := by
    rw [Legs.others, haddr, haddr']
    rfl
  rw [hothers]
  have hnoted := mem_notes_of_place hmoved (by exact List.nodup_singleton _) h hmem
  exact hnoted.imp_right fun ⟨hnew, hold⟩ => ⟨hnew, Prod.mk.inj (List.mem_singleton.1 hold)⟩

end Party

/-! ## Whole transactions -/

namespace Record

/-- The sign of what a transfer moves. The pair is one of its sides, and loses if it is the
sender. -/
def sign (r : Record) : String → Prop :=
  if r.sender = r.contract then IsNonpos else IsNonneg

/-- The legs have the signs that belong to the kind of the record. -/
def HasSigns (r : Record) : Prop :=
  match r.kind with
  | .creation | .firstProvide => r.legs.All (· = "")
  | .swap => r.legs.IsExchange
  | .provide => r.legs.All IsNonneg
  | .withdraw => r.legs.All IsNonpos
  | .transfer => r.legs.All r.sign

end Record

namespace Profile

/-- The amounts that a transaction tells are unsigned: those of swaps, those of the coins that
provisions and withdrawals list, and those of the transfers of tokens and of coins. -/
structure TellsUnsigned (p : Profile) (registry : Registry) (tx : RawTx) : Prop where
  amounts : ∀ attrs ∈ (p.pairRule registry.contracts).findIn tx.entries, ∀ a ∈ attrs,
    a.key ∈ Fields.amountKeys → IsUnsigned a.value
  lists : ∀ attrs ∈ (p.pairRule registry.contracts).findIn tx.entries, ∀ a ∈ attrs,
    a.key ∈ Fields.listKeys → ∀ listed ∈ listedCoins? (some a.value), listed.All IsUnsigned
  tokens : ∀ attrs ∈ p.tokenRule.findIn tx.entries, ∀ a ∈ attrs, a.key = "amount" →
    IsUnsigned a.value
  coins : ∀ attrs ∈ p.bankRule.findIn (tx.entries.map p.prepare), ∀ a ∈ attrs, a.key = "amount" →
    ∀ coins ∈ (Asset.ofCoins a.value).toOption, ∀ coin ∈ coins, IsUnsigned coin.amount

/-- No provision gets more refunded of an asset than it provides. -/
def RefundsAtMost (p : Profile) (height : Int) (registry : Registry) (tx : RawTx) : Prop :=
  ∀ attrs ∈ (p.pairRule registry.contracts).findIn tx.entries,
    ∀ accepted ∈ ((p.pairReader height).accept registry attrs).toOption,
      accepted.action = Action.provide → accepted.fields.RefundsAtMost accepted.pair.first

variable {p : Profile} {height : Int} {registry : Registry} {tx : RawTx} {o : Origin} {r : Record}
  {sender recipient : String} {legs : List Asset}

theorem TellsUnsigned.fields (h : p.TellsUnsigned registry tx) {attrs : List Attribute}
    {accepted : PairAction} (hattrs : attrs ∈ (p.pairRule registry.contracts).findIn tx.entries)
    (haccept : (p.pairReader height).accept registry attrs = .ok accepted) :
    accepted.fields.AreUnsigned where
  amounts key hkey _ hget := h.amounts attrs hattrs _ (PairReader.mem_of_accept haccept hget) hkey
  lists key hkey listed hlisted := by
    cases hget : accepted.fields.get? key with
    | none =>
      rw [hget] at hlisted
      cases hlisted
    | some text =>
      rw [hget] at hlisted
      exact h.lists attrs hattrs _ (PairReader.mem_of_accept haccept hget) hkey listed hlisted

theorem TellsUnsigned.moves (h : p.TellsUnsigned registry tx)
    (hmoves : p.Moves height tx sender recipient legs) :
    ∀ leg ∈ legs, IsUnsigned leg.amount := by
  cases hmoves with
  | @token attrs fields _ _ token amount hattrs hfields _ _ _ hamount =>
    obtain ⟨hdistinct, rfl, -⟩ := TokenReader.fields_eq_ok.1 hfields
    rw [Fields.get?_eq_some_iff hdistinct,
      ((p.tokenReader height).layout.prepare_perm attrs).mem_iff] at hamount
    intro leg hleg
    rw [List.mem_singleton.1 hleg]
    exact h.tokens attrs hattrs _ hamount rfl
  | @coins attrs fields _ _ text coins hattrs hfields _ _ hamount hcoins =>
    obtain ⟨hdistinct, rfl⟩ := Fields.read_eq_ok_iff.1 hfields
    rw [Fields.get?_eq_some_iff hdistinct] at hamount
    exact h.coins attrs hattrs _ hamount rfl legs (by rw [hcoins]; rfl)

/-- What a transfer moves has the sign of its direction. -/
theorem sign_eq_of_party {party : Party}
    (hparty : registry.party sender recipient = .ok (some party)) (hsender : r.sender = sender)
    (hcontract : r.contract = party.pair.contract) : r.sign = party.sign := by
  obtain ⟨hpair, hother⟩ := Registry.party_eq_some hparty
  unfold Record.sign Party.sign
  rw [hsender, hcontract, (Registry.get?_eq_some hpair).1]
  cases hout : party.outflow with
  | true => exact if_pos rfl
  | false =>
    rw [hout] at hpair hother
    have hne : sender ≠ recipient := by
      rintro rfl
      exact nomatch hpair.symm.trans hother
    exact if_neg hne

/-- What is read from an origin has the signs of its kind. -/
theorem Yields.hasSigns (hunsigned : p.TellsUnsigned registry tx)
    (hrefunds : p.RefundsAtMost height registry tx)
    (h : p.Yields height registry tx o r) : r.HasSigns := by
  cases h with
  | creation _ hread =>
    obtain ⟨_, _, _, _, rfl⟩ := readCreation_eq_ok hread
    exact ⟨rfl, rfl⟩
  | @action _ accepted r hattrs haccept hhandle =>
    have hfields := hunsigned.fields hattrs haccept
    unfold Record.HasSigns
    rcases (Strategy.handle_eq_ok hhandle).2 with
        ⟨-, hr, hkind⟩ | ⟨haction, hr, hkind⟩ | ⟨-, hr, hkind⟩
    · have hsigns := Strategy.swap_signs hfields hr
      simpa [Record.stamped, hkind] using hsigns
    · have hsigns := Strategy.provide_signs hfields
        (hrefunds _ hattrs accepted (by rw [haccept]; rfl) haction) hr
      simpa [Record.stamped, hkind] using hsigns
    · have hsigns := Strategy.withdraw_signs hfields hr
      simpa [Record.stamped, hkind] using hsigns
  | firstProvide _ hread =>
    obtain ⟨_, _, _, _, -, -, -, -, rfl⟩ := readFirstProvide_eq_ok hread
    exact ⟨rfl, rfl⟩
  | @transfer sender recipient party legs _ _ r hmoves hparty hrecord =>
    obtain ⟨hkind, hcontract, -⟩ := Party.record_eq_ok hrecord
    have hsign : (r.stamped tx).sign = party.sign :=
      sign_eq_of_party hparty (Party.record_addrs hrecord).1 hcontract
    have hsigns := (Party.record_signs (hunsigned.moves hmoves) hrecord).1
    unfold Record.HasSigns
    rw [hsign]
    simpa [Record.stamped, hkind] using hsigns

/-- What is read from a transfer notes amounts of the same sign. -/
theorem Yields.notes (hunsigned : p.TellsUnsigned registry tx) (hkind : r.kind = .transfer)
    (h : p.Yields height registry tx o r) : ∃ sender recipient legs,
      p.Moves height tx sender recipient legs ∧ r.sender = sender ∧
        (r.contract = sender ∨ r.contract = recipient) ∧ r.Notes recipient legs r.sign := by
  obtain ⟨party, legs, rfl⟩ := h.exists_transfer hkind
  cases h with
  | @transfer sender recipient _ _ _ _ r hmoves hparty hrecord =>
    obtain ⟨-, hcontract, -⟩ := Party.record_eq_ok hrecord
    have hsender := (Party.record_addrs hrecord).1
    have hsign : (r.stamped tx).sign = party.sign := sign_eq_of_party hparty hsender hcontract
    refine ⟨sender, recipient, legs, hmoves, hsender, ?_, ?_⟩
    · have hpair := (Registry.get?_eq_some (Registry.party_eq_some hparty).1).1
      show r.contract = sender ∨ r.contract = recipient
      rw [hcontract, hpair]
      split
      · exact .inl rfl
      · exact .inr rfl
    · rw [hsign]
      exact (Party.record_signs (hunsigned.moves hmoves) hrecord).2

variable {known known' : Knowledge} {records : List Record}

/-- **The signs of amounts.** Take a transaction whose amounts are unsigned, and whose provisions
get no more refunded of an asset than they provide. In the record of a swap one leg goes in and the
other one out. The legs of a provision go in, and those of a withdrawal out. What a transfer moves,
be it an asset of the pair or noted as the amount of another token, goes out if the pair is the
sender, and in if it is the recipient. Creations and first provisions have no legs. -/
theorem signs_of_extract (h : p.extract height tx known = (.ok records, known'))
    (hunsigned : p.TellsUnsigned known'.registry tx)
    (hrefunds : p.RefundsAtMost height known'.registry tx) (hr : r ∈ records) :
    r.HasSigns ∧ (r.kind = .transfer → ∃ sender recipient legs,
      p.Moves height tx sender recipient legs ∧ r.sender = sender ∧
        (r.contract = sender ∨ r.contract = recipient) ∧ r.Notes recipient legs r.sign) := by
  obtain ⟨o, hyields⟩ := yields_of_extract h hr
  exact ⟨hyields.hasSigns hunsigned hrefunds, fun hkind => hyields.notes hunsigned hkind⟩

end Profile

/-! A transaction with actions of all kinds, whose last transfer also moves a coin that
the pair does not hold. -/

def columbusProfile : Profile where
  deployment := .columbusFive
  chainId := "columbus-5"
  factory := "terra1builder"
  factory_ne := by decide

def busyTx : RawTx where
  hash := "A1"
  sender := "terra1user"
  entries := [
    { kind := "wasm"
      attributes := [⟨"_contract_address", "terra1pair"⟩, ⟨"action", "swap"⟩,
        ⟨"sender", "terra1user"⟩, ⟨"receiver", "terra1user"⟩, ⟨"offer_asset", "uluna"⟩,
        ⟨"ask_asset", "terra1token"⟩, ⟨"offer_amount", "1000"⟩, ⟨"return_amount", "950"⟩,
        ⟨"tax_amount", "5"⟩, ⟨"spread_amount", "10"⟩, ⟨"commission_amount", "3"⟩,
        ⟨"_contract_address", "terra1pair"⟩, ⟨"action", "provide_liquidity"⟩,
        ⟨"sender", "terra1user"⟩, ⟨"receiver", "terra1user"⟩,
        ⟨"assets", "100uluna, 200terra1token"⟩, ⟨"share", "141"⟩,
        ⟨"refund_assets", "0uluna, 7terra1token"⟩, ⟨"_contract_address", "terra1pair"⟩,
        ⟨"action", "withdraw_liquidity"⟩, ⟨"sender", "terra1user"⟩, ⟨"withdrawn_share", "20"⟩,
        ⟨"refund_assets", "14uluna, 28terra1token"⟩, ⟨"_contract_address", "terra1token"⟩,
        ⟨"action", "transfer"⟩, ⟨"from", "terra1pair"⟩, ⟨"to", "terra1friend"⟩, ⟨"amount", "40"⟩] },
    { kind := "transfer"
      attributes := [⟨"recipient", "terra1pair"⟩, ⟨"sender", "terra1friend"⟩,
        ⟨"amount", "31uluna,7ufoo"⟩] }]

def busyRecords : List Record :=
  (columbusProfile.extract 1 busyTx onePair).1.toOption.getD []

theorem tellsUnsigned_busyTx : columbusProfile.TellsUnsigned onePair.registry busyTx where
  amounts := by decide +kernel
  lists := by decide +kernel
  tokens := by decide +kernel
  coins := by decide +kernel

theorem signs_of_busyTx : columbusProfile.RefundsAtMost 1 onePair.registry busyTx ∧
    busyRecords.map (·.kind) = [.swap, .provide, .withdraw, .transfer, .transfer] ∧
    ∀ r ∈ busyRecords, r.HasSigns := by
  have hrefunds : columbusProfile.RefundsAtMost 1 onePair.registry busyTx := by
    unfold Profile.RefundsAtMost Fields.RefundsAtMost
    decide +kernel
  have hextract : columbusProfile.extract 1 busyTx onePair =
      (.ok busyRecords, { onePair with flags := ["terra1pair"] }) := by decide +kernel
  refine ⟨hrefunds, by decide +kernel, fun r hr => ?_⟩
  exact (Profile.signs_of_extract hextract tellsUnsigned_busyTx hrefunds hr).1

end PoolLedger
