import PoolLedger.Proofs.Reading
import PoolLedger.Proofs.Numeral

/-!
# The legs that a record touches

A record touches the legs with an amount (`Record.touched`). Swaps, provisions and withdrawals touch
both legs (`Strategy.isFull_handle`): their amounts are computed, or are the digits at the front of
a coin, and neither is ever empty.
-/

namespace PoolLedger

/-- The place of a leg in a pair. -/
inductive Side where
  | first
  | second
deriving DecidableEq, Repr

theorem Side.exists_iff {P : Side → Prop} : (∃ side, P side) ↔ P .first ∨ P .second := by
  constructor
  · rintro ⟨side, h⟩
    cases side with
    | first => exact .inl h
    | second => exact .inr h
  · rintro (h | h)
    · exact ⟨.first, h⟩
    · exact ⟨.second, h⟩

def Legs.on (l : Legs) : Side → Asset
  | .first => l.first
  | .second => l.second

/-- The legs that a record touches, with their places. -/
def Record.touched (r : Record) : List (Side × Asset) :=
  [(.first, r.legs.first), (.second, r.legs.second)].filter fun leg => leg.2.amount ≠ ""

theorem Record.mem_touched {r : Record} {side : Side} {leg : Asset} :
    (side, leg) ∈ r.touched ↔ r.legs.on side = leg ∧ leg.amount ≠ "" := by
  rw [touched, List.mem_filter]
  cases side <;> simp only [Legs.on, List.mem_cons, Prod.mk.injEq, reduceCtorEq, false_and,
    true_and, List.not_mem_nil, or_false, false_or, decide_eq_true_eq, @eq_comm _ leg]

/-- A record that touches a leg but not the one at some place touches one leg. -/
theorem Record.length_touched {r : Record} (side : Side) (hside : (r.legs.on side).amount = "")
    (h : r.touched ≠ []) : r.touched.length = 1 := by
  cases side with
  | first =>
    have hfirst : r.legs.first.amount = "" := hside
    by_cases hsecond : r.legs.second.amount = ""
    · simp [touched, hfirst, hsecond] at h
    · simp [touched, hfirst, hsecond]
  | second =>
    have hsecond : r.legs.second.amount = "" := hside
    by_cases hfirst : r.legs.first.amount = ""
    · simp [touched, hfirst, hsecond] at h
    · simp [touched, hfirst, hsecond]

/-- The kinds of record that tell what a pair does with both of its assets. -/
def RecordKind.IsAction (k : RecordKind) : Prop :=
  k = swap ∨ k = provide ∨ k = withdraw

instance (k : RecordKind) : Decidable k.IsAction :=
  inferInstanceAs (Decidable (_ ∨ _ ∨ _))

/-- Both legs have an amount. -/
def Legs.IsFull (l : Legs) : Prop :=
  l.first.amount ≠ "" ∧ l.second.amount ≠ ""

theorem Legs.IsFull.on {l : Legs} (h : l.IsFull) : ∀ side, (l.on side).amount ≠ ""
  | .first => h.1
  | .second => h.2

theorem Legs.IsFull.orderBy {l : Legs} (h : l.IsFull) (first : String) :
    (l.orderBy first).IsFull := by
  unfold Legs.orderBy
  split
  · exact h
  · exact ⟨h.2, h.1⟩

/-! ## Coins -/

theorem Asset.amount_ne_of_ofCoin {text : List Char} {a : Asset} (h : ofCoin text = .ok a) :
    a.amount ≠ "" := by
  simp only [ofCoin] at h
  split at h
  · cases h
  · rename_i hshape
    obtain rfl := Except.ok.inj h
    simp only [Bool.or_eq_true, List.isEmpty_iff, not_or] at hshape
    simpa using hshape.1

theorem Asset.isFull_of_ofCoinPair {text : String} {l : Legs} (h : ofCoinPair text = .ok l) :
    l.IsFull := by
  unfold ofCoinPair at h
  split at h
  · simp only [bind_eq_ok, pure_eq_ok] at h
    obtain ⟨first, hfirst, second, hsecond, rfl⟩ := h
    exact ⟨amount_ne_of_ofCoin hfirst, amount_ne_of_ofCoin hsecond⟩
  · cases h

/-! ## Actions of pairs -/

namespace Strategy

variable {s : Strategy} {fields : Fields} {pair : Pair} {r : Record}

theorem isFull_plainSwap (h : plainSwap fields pair = .ok r) : r.legs.IsFull := by
  obtain ⟨offered, _, n, inflow, _, outflow, _, -, -, -, hin, -, hout, -, rfl⟩ := plainSwap_eq_ok h
  have hinflow : inflow ≠ "" := Amount.IsWritten.ne_empty ⟨n, hin⟩
  have houtflow : outflow ≠ "" := (Amount.isWritten_of_negate hout).ne_empty
  show (swapLegs pair _ inflow outflow).IsFull
  unfold swapLegs
  split
  · exact ⟨houtflow, hinflow⟩
  · exact ⟨hinflow, houtflow⟩

theorem isFull_swap (h : s.swap fields pair = .ok r) : r.legs.IsFull := by
  obtain h | ⟨plain, _, _, _, m, n, outflow, hplain, -, -, -, -, -, hout, rfl⟩ := exists_of_swap h
  · exact isFull_plainSwap h
  · obtain ⟨hfirst, hsecond⟩ := isFull_plainSwap hplain
    have houtflow : outflow ≠ "" := Amount.IsWritten.ne_empty ⟨_, hout⟩
    split
    · exact ⟨houtflow, hsecond⟩
    · exact ⟨hfirst, houtflow⟩

theorem isFull_plainProvide (h : plainProvide fields pair = .ok r) : r.legs.IsFull := by
  obtain ⟨_, provided, _, -, hprovided, -, rfl⟩ := plainProvide_eq_ok h
  exact (Asset.isFull_of_ofCoinPair hprovided).orderBy pair.first

theorem amount_ne_of_netLeg {tokenPrefix : String} {provided refunded leg : Asset}
    (h : netLeg tokenPrefix provided refunded = .ok leg) (hne : provided.amount ≠ "") :
    leg.amount ≠ "" := by
  obtain ⟨-, amount, hsub, rfl⟩ | ⟨-, rfl⟩ := exists_of_netLeg h
  · exact (Amount.isWritten_of_sub hsub).ne_empty
  · exact hne

theorem isFull_refundedProvide {tokenPrefix : String}
    (h : refundedProvide tokenPrefix fields pair = .ok r) : r.legs.IsFull := by
  obtain ⟨_, provided, _, _, first, second, _, -, hprovided, -, -, hfirst, hsecond, -, rfl⟩ :=
    refundedProvide_eq_ok h
  have hfull := (Asset.isFull_of_ofCoinPair hprovided).orderBy pair.first
  exact ⟨amount_ne_of_netLeg hfirst hfull.1, amount_ne_of_netLeg hsecond hfull.2⟩

theorem isFull_provide (h : s.provide fields pair = .ok r) : r.legs.IsFull := by
  obtain h | ⟨_, h⟩ := exists_of_provide h
  · exact isFull_plainProvide h
  · exact isFull_refundedProvide h

theorem ne_empty_of_withdrawnAmount {amount withdrawn : String}
    (h : s.withdrawnAmount amount = .ok withdrawn) : withdrawn ≠ "" := by
  cases s with
  | feeDeducting =>
    obtain ⟨_, -, h⟩ := bind_eq_ok.1 h
    obtain ⟨paid, -, h⟩ := bind_eq_ok.1 h
    exact (Amount.isWritten_of_negate h).ne_empty
  | _ => exact (Amount.isWritten_of_negate h).ne_empty

theorem isFull_withdraw (h : s.withdraw fields pair = .ok r) : r.legs.IsFull := by
  obtain ⟨_, legs, _, -, hlegs, -, rfl⟩ := withdraw_eq_ok h
  simp only [withdrawnLegs, bind_eq_ok, pure_eq_ok] at hlegs
  obtain ⟨_, -, first, hfirst, second, hsecond, rfl⟩ := hlegs
  exact Legs.IsFull.orderBy
    ⟨ne_empty_of_withdrawnAmount hfirst, ne_empty_of_withdrawnAmount hsecond⟩ _

/-- **Every action of a pair touches both legs.** -/
theorem isFull_handle {action : String} (h : s.handle action fields pair = .ok r) :
    r.kind.IsAction ∧ r.legs.IsFull := by
  rcases (handle_eq_ok h).2 with ⟨-, hr, hkind⟩ | ⟨-, hr, hkind⟩ | ⟨-, hr, hkind⟩
  · exact ⟨.inl hkind, isFull_swap hr⟩
  · exact ⟨.inr (.inl hkind), isFull_provide hr⟩
  · exact ⟨.inr (.inr hkind), isFull_withdraw hr⟩

end Strategy

end PoolLedger
