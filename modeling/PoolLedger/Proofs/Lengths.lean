import PoolLedger.Proofs.Coins
import PoolLedger.Proofs.Signs

/-!
# How long amounts may be

An amount denotes an integer whatever its length (`Amount.integer?`), but it is read only if it has
at most `Numeral.maxDigits` digits (`Amount.read_eq`), and an integer is written only if its
shortest numeral has no more of them (`Amount.write_eq`). Digits are counted as they stand, leading
zeros included, so what is read can be written again, with either sign (`Amount.write_of_read`,
`Amount.negate_eq`): arithmetic alone makes a numeral too long.
-/

namespace PoolLedger

namespace Numeral

/-- Each digit moves the digits before it by one place. -/
theorem value_lt {ds : List Nat} (h : ∀ d ∈ ds, d < 10) : value ds < 10 ^ ds.length := by
  have hmoved (n : Nat) : ds.foldl (fun n d => 10 * n + d) n < (n + 1) * 10 ^ ds.length := by
    induction ds generalizing n with
    | nil => simp
    | cons d ds ih =>
      obtain ⟨hd, hds⟩ := List.forall_mem_cons.1 h
      calc (d :: ds).foldl (fun n d => 10 * n + d) n
          < (10 * n + d + 1) * 10 ^ ds.length := ih hds (10 * n + d)
        _ ≤ ((n + 1) * 10) * 10 ^ ds.length := Nat.mul_le_mul_right _ (by omega)
        _ = (n + 1) * 10 ^ (d :: ds).length := by rw [List.length_cons, pow_succ', Nat.mul_assoc]
  simpa [value] using hmoved 0

theorem digits_of_mapM {cs : List Char} {ds : List Nat} (h : cs.mapM digit? = some ds) :
    ds.length = cs.length ∧ ∀ d ∈ ds, d < 10 := by
  induction cs generalizing ds with
  | nil =>
    obtain rfl : [] = ds := by simpa using h
    exact ⟨rfl, nofun⟩
  | cons c cs ih =>
    simp only [List.mapM_cons, Option.bind_eq_bind, Option.bind_eq_some_iff, Option.pure_def,
      Option.some.injEq] at h
    obtain ⟨d, hd, ds, hds, rfl⟩ := h
    obtain ⟨hlen, hlt⟩ := ih hds
    refine ⟨by rw [List.length_cons, List.length_cons, hlen], List.forall_mem_cons.2 ⟨?_, hlt⟩⟩
    unfold digit? at hd
    split at hd
    · rename_i hc
      obtain ⟨hlow, hhigh⟩ := Text.toNat_of_isDigit hc
      have hzero : '0'.toNat = 48 := rfl
      have hd := Option.some.inj hd
      omega
    · cases hd

end Numeral

/-- The failure is over the length of a numeral. -/
def ReadError.IsOfLength (e : ReadError) : Prop :=
  ∃ cause, e = .numeral cause

namespace Amount

open Numeral (size maxDigits)
open ReadError (IsOfLength)

variable {text : String} {n : Int}

/-- The number of digits of an amount, leading zeros included. -/
def digits (text : String) : Nat :=
  (Numeral.splitSign text.toList).2.length

/-- The digits of an amount that is not empty, and what is read from them. -/
theorem exists_digits_of_integer? (hne : text ≠ "") (h : integer? text = some n) :
    ∃ negative ds, ds.length = digits text ∧ (∀ d ∈ ds, d < 10) ∧
      Numeral.signed negative (Numeral.value ds) = n ∧
      read text = (Numeral.read negative ds).mapError .numeral := by
  unfold integer? at h
  unfold read
  rw [if_neg hne] at h ⊢
  dsimp only at h ⊢
  cases hds : (Numeral.splitSign text.toList).2.mapM Numeral.digit? with
  | none =>
    rw [hds] at h
    cases h
  | some ds =>
    rw [hds] at h
    cases ds with
    | nil => cases h
    | cons d ds =>
      obtain ⟨hlen, hlt⟩ := Numeral.digits_of_mapM hds
      exact ⟨_, d :: ds, hlen, hlt, Option.some.inj h, rfl⟩

/-- **An amount is read if it does not have too many digits.** -/
theorem read_eq (h : integer? text = some n) : read text =
    if digits text ≤ maxDigits then .ok n else .error (.numeral (.reading (digits text))) := by
  by_cases hne : text = ""
  · subst hne
    cases h
    rfl
  · obtain ⟨negative, ds, hlen, -, rfl, hread⟩ := exists_digits_of_integer? hne h
    rw [hread, Numeral.read, hlen]
    by_cases hle : digits text ≤ maxDigits
    · rw [if_pos hle, if_neg (Nat.not_lt.2 hle)]
      rfl
    · rw [if_neg hle, if_pos (Nat.lt_of_not_le hle)]
      rfl

theorem read_eq_ok_iff (h : integer? text = some n) {m : Int} :
    read text = .ok m ↔ digits text ≤ maxDigits ∧ n = m := by
  rw [read_eq h]
  split_ifs with hle <;> simp [hle]

theorem write_eq (n : Int) : write n =
    if size n.natAbs ≤ maxDigits then .ok (toString n) else .error (.numeral .writing) := by
  unfold write Numeral.write
  by_cases hle : size n.natAbs ≤ maxDigits
  · rw [if_pos hle, if_neg (Nat.not_lt.2 hle)]
    rfl
  · rw [if_neg hle, if_pos (Nat.lt_of_not_le hle)]
    rfl

/-- What is read has no longer a numeral than the one it is read from. -/
theorem size_of_read (h : read text = .ok n) : size n.natAbs ≤ maxDigits := by
  have hn := integer?_of_read h
  by_cases hne : text = ""
  · subst hne
    cases hn
    decide
  · obtain ⟨negative, ds, hlen, hlt, rfl, -⟩ := exists_digits_of_integer? hne hn
    have hshort : ds.length ≤ maxDigits := hlen ▸ ((read_eq_ok_iff hn).1 h).1
    have habs : (Numeral.signed negative (Numeral.value ds)).natAbs = Numeral.value ds := by
      unfold Numeral.signed
      split <;> omega
    rw [habs]
    exact (Nat.length_toDigits_le_iff (by decide) (by decide)).2
      (Nat.lt_of_lt_of_le (Numeral.value_lt hlt) (Nat.pow_le_pow_right (by decide) hshort))

theorem write_of_read (h : read text = .ok n) : write n = .ok (toString n) :=
  write_eq_ok.2 ⟨size_of_read h, rfl⟩

theorem negate_of_read (h : read text = .ok n) : negate text = .ok (toString (-n)) :=
  bind_eq_ok.2 ⟨n, h, write_eq_ok.2 ⟨by rw [Int.natAbs_neg]; exact size_of_read h, rfl⟩⟩

/-- The other sign is as long. -/
theorem negate_eq (h : integer? text = some n) : negate text =
    if digits text ≤ maxDigits then .ok (toString (-n))
      else .error (.numeral (.reading (digits text))) := by
  split_ifs with hle
  · exact negate_of_read ((read_eq_ok_iff h).2 ⟨hle, rfl⟩)
  · rw [negate, read_eq h, if_neg hle]
    rfl

theorem failsOnly_read_length (h : integer? text = some n) : FailsOnly IsOfLength (read text) := by
  rw [read_eq h]
  split
  · exact .of_eq_ok rfl
  · exact .error ⟨_, rfl⟩

theorem failsOnly_write_length (n : Int) : FailsOnly IsOfLength (write n) := by
  rw [write_eq]
  split
  · exact .of_eq_ok rfl
  · exact .error ⟨_, rfl⟩

theorem failsOnly_negate_length (h : integer? text = some n) : FailsOnly IsOfLength (negate text) :=
  (failsOnly_read_length h).bind fun _ _ => failsOnly_write_length _

/-! ## Numerals in shortest form -/

theorem digits_toString (n : Int) : digits (toString n) = size n.natAbs := by
  rw [digits, Numeral.splitSign_toString, size]

theorem integer?_toString (n : Int) : integer? (toString n) = some n := by
  obtain ⟨d, ds, hds, hvalue, -⟩ := Numeral.exists_digits n.natAbs
  unfold integer?
  rw [if_neg (Numeral.toString_ne_empty n), Numeral.splitSign_toString]
  simp only [hds, hvalue, Numeral.signed_natAbs]

theorem IsUnsigned.exists_integer? (h : IsUnsigned text) : ∃ n, integer? text = some n :=
  have ⟨n, hn, _⟩ := h.isNonneg
  ⟨n, hn⟩

end Amount

end PoolLedger
