import Mathlib.Data.List.Forall2
import Mathlib.Tactic.SplitIfs
import PoolLedger.Proofs.Outcome

/-!
# Amounts that can be read

`Amount.IsReadable` says that a text is an amount. An integer that is written is read back
(`Amount.read_of_write`), so whatever has gone through `Amount.write` is readable.
-/

namespace PoolLedger

namespace Numeral

theorem mapM_digit? {cs : List Char} (h : ∀ c ∈ cs, c.isDigit) :
    cs.mapM digit? = some (cs.map fun c => c.toNat - '0'.toNat) := by
  induction cs with
  | nil => rfl
  | cons c cs ih =>
    have hc : digit? c = some (c.toNat - '0'.toNat) := if_pos (h c List.mem_cons_self)
    rw [List.mapM_cons, hc, ih fun d hd => h d (List.mem_cons_of_mem _ hd)]
    rfl

/-- The shortest numeral of a number has digits that denote it. -/
theorem exists_digits (n : Nat) :
    ∃ d ds, (Nat.toDigits 10 n).mapM digit? = some (d :: ds) ∧ value (d :: ds) = n ∧
      (d :: ds).length = size n := by
  have hm := mapM_digit? fun c (hc : c ∈ Nat.toDigits 10 n) =>
    Nat.isDigit_of_mem_toDigits (by decide) (by decide) hc
  have hv : value ((Nat.toDigits 10 n).map fun c => c.toNat - '0'.toNat) = n := by
    rw [value, List.foldl_map]
    exact Nat.ofDigitChars_ten_toDigits
  cases hds : (Nat.toDigits 10 n).map fun c => c.toNat - '0'.toNat with
  | nil => exact absurd (List.map_eq_nil_iff.1 hds) Nat.toDigits_ne_nil
  | cons d ds =>
    refine ⟨d, ds, hds ▸ hm, hds ▸ hv, ?_⟩
    rw [← hds, List.length_map, size]

theorem splitSign_of_isDigit {cs : List Char} (h : ∀ c ∈ cs, c.isDigit) :
    splitSign cs = (false, cs) := by
  unfold splitSign
  split
  · exact absurd (h '-' List.mem_cons_self) (by decide)
  · rfl

theorem splitSign_toString (n : Int) :
    splitSign (toString n).toList = (decide (n < 0), Nat.toDigits 10 n.natAbs) := by
  have hdigits : ∀ c ∈ Nat.toDigits 10 n.natAbs, c.isDigit := fun c hc =>
    Nat.isDigit_of_mem_toDigits (by decide) (by decide) hc
  rw [Int.toString_eq_repr, Int.repr_eq_if]
  by_cases hn : 0 ≤ n
  · rw [if_pos hn, Nat.toList_repr, ← Int.natAbs_of_nonneg hn, Int.toNat_natCast,
      Int.natAbs_natCast, splitSign_of_isDigit hdigits]
    simp
  · have hnat : (-n).toNat = n.natAbs := by omega
    rw [if_neg hn, hnat, String.toList_append, Nat.toList_repr]
    show (true, Nat.toDigits 10 n.natAbs) = _
    rw [decide_eq_true (by omega)]

theorem toString_ne_empty (n : Int) : toString n ≠ "" := by
  intro h
  have hsplit := splitSign_toString n
  rw [h] at hsplit
  exact Nat.toDigits_ne_nil (congrArg Prod.snd hsplit).symm

theorem signed_natAbs (n : Int) : signed (decide (n < 0)) n.natAbs = n := by
  unfold signed
  split_ifs with h
  · have := of_decide_eq_true h
    omega
  · have := of_decide_eq_false (Bool.not_eq_true _ ▸ h)
    omega

end Numeral

namespace Amount

/-- A text that denotes an integer. -/
def IsReadable (text : String) : Prop := ∃ n, read text = .ok n

instance (text : String) : Decidable (IsReadable text) :=
  match h : read text with
  | .ok n => .isTrue ⟨n, h⟩
  | .error _ => .isFalse fun ⟨_, hn⟩ => by rw [h] at hn; cases hn

theorem isReadable_empty : IsReadable "" := ⟨0, rfl⟩

theorem write_eq_ok {n : Int} {text : String} :
    write n = .ok text ↔ Numeral.size n.natAbs ≤ Numeral.maxDigits ∧ toString n = text := by
  unfold write Numeral.write
  rw [mapError_eq_ok]
  split_ifs with h
  · exact ⟨nofun, fun hn => absurd hn.1 (by omega)⟩
  · exact ⟨fun hn => ⟨by omega, by injection hn⟩, fun hn => by rw [hn.2]⟩

/-- **What is written is read back.** -/
theorem read_of_write {n : Int} {text : String} (h : write n = .ok text) : read text = .ok n := by
  obtain ⟨hsize, rfl⟩ := write_eq_ok.1 h
  obtain ⟨d, ds, hds, hvalue, hlength⟩ := Numeral.exists_digits n.natAbs
  unfold read
  rw [if_neg (Numeral.toString_ne_empty n), Numeral.splitSign_toString]
  simp only [hds, Numeral.read, hlength, hvalue, Numeral.signed_natAbs]
  rw [if_neg (by omega)]
  rfl

/-- A text that is the numeral of an integer. -/
def IsWritten (text : String) : Prop := ∃ n, write n = .ok text

theorem IsWritten.isReadable {text : String} (h : IsWritten text) : IsReadable text :=
  h.imp fun _ hn => read_of_write hn

theorem IsWritten.ne_empty {text : String} (h : IsWritten text) : text ≠ "" := by
  obtain ⟨n, hn⟩ := h
  rw [← (write_eq_ok.1 hn).2]
  exact Numeral.toString_ne_empty n

theorem isWritten_of_negate {a text : String} (h : negate a = .ok text) : IsWritten text := by
  obtain ⟨n, -, hn⟩ := bind_eq_ok.1 h
  exact ⟨_, hn⟩

theorem isWritten_of_sub {a b text : String} (h : sub a b = .ok text) : IsWritten text := by
  obtain ⟨m, -, h⟩ := bind_eq_ok.1 h
  obtain ⟨n, -, hn⟩ := bind_eq_ok.1 h
  exact ⟨_, hn⟩

theorem isReadable_of_write {n : Int} {text : String} (h : write n = .ok text) : IsReadable text :=
  IsWritten.isReadable ⟨n, h⟩

theorem isReadable_of_negate {a text : String} (h : negate a = .ok text) : IsReadable text :=
  (isWritten_of_negate h).isReadable

theorem isReadable_of_sub {a b text : String} (h : sub a b = .ok text) : IsReadable text :=
  (isWritten_of_sub h).isReadable

end Amount

end PoolLedger
