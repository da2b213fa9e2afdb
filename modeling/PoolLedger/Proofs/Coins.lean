import PoolLedger.Asset
import PoolLedger.Proofs.Numeral

/-!
# Coins as events write them

An event writes a coin as its amount followed by its address, and a list of coins with commas
between them and possibly blanks around each (`Asset.ListedIn`). What is written so is read back
(`ofCoin_of_padded`, `ofCoins_of_listedIn`, `ofCoinPair_of_listedIn`), provided that the amount has
digits of whatever script and the address can stand behind it (`Asset.IsListable`): the reader takes
all leading digits for the amount (`Asset.IsReadFrom`), all commas for separators, and blanks at
either end for none of the coin.

Numerals of natural numbers are amounts, and the arithmetic of amounts on them is that of integers
as long as they are not too long (`Amount.read_toString`, `Amount.sub_toString`,
`Amount.negate_toString`).
-/

namespace PoolLedger

/-! ## Blanks around a text -/

namespace Text

/-- A text with blanks around it, or none. -/
def Padded (text padded : List Char) : Prop :=
  ∃ before after : List Char, (∀ c ∈ before, isBlank c) ∧ (∀ c ∈ after, isBlank c) ∧
    padded = before ++ text ++ after

/-- A text that neither starts nor ends with a blank. -/
def IsTight (text : List Char) : Prop :=
  (∀ c ∈ text.head?, isBlank c = false) ∧ ∀ c ∈ text.getLast?, isBlank c = false

theorem dropWhile_of_head {q : Char → Bool} {text : List Char} (h : ∀ c ∈ text.head?, q c = false) :
    text.dropWhile q = text := by
  cases text with
  | nil => rfl
  | cons c text => exact List.dropWhile_cons_of_neg (by simp [h c rfl])

theorem takeWhile_of_head {q : Char → Bool} {text : List Char} (h : ∀ c ∈ text.head?, q c = false) :
    text.takeWhile q = [] := by
  cases text with
  | nil => rfl
  | cons c text => exact List.takeWhile_cons_of_neg (by simp [h c rfl])

theorem IsTight.append {text : List Char} (h : IsTight text) (hne : text ≠ []) (more : List Char) :
    ∀ c ∈ (text ++ more).head?, isBlank c = false := by
  intro c hc
  rw [List.head?_append_of_ne_nil _ hne] at hc
  exact h.1 c hc

theorem strip_of_padded {text padded : List Char} (h : Padded text padded) (htight : IsTight text)
    (hne : text ≠ []) : strip padded = text := by
  obtain ⟨before, after, hbefore, hafter, rfl⟩ := h
  have hrest : (text ++ after).dropWhile isBlank = text ++ after :=
    dropWhile_of_head (htight.append hne after)
  have hlast : text.reverse.dropWhile isBlank = text.reverse :=
    dropWhile_of_head (by rw [List.head?_reverse]; exact htight.2)
  rw [strip, List.append_assoc, List.dropWhile_append_of_pos hbefore, hrest, dropEnd,
    List.reverse_append, List.dropWhile_append_of_pos (by simpa using hafter), hlast,
    List.reverse_reverse]

theorem padded_self (text : List Char) : Padded text text :=
  ⟨[], [], nofun, nofun, by simp⟩

theorem toNat_of_isDigit {c : Char} (h : c.isDigit) : 48 ≤ c.toNat ∧ c.toNat ≤ 57 := by
  simp only [Char.isDigit, Bool.and_eq_true, decide_eq_true_eq, UInt32.le_iff_toNat_le] at h
  exact h

theorem isDigit_of_isDigit {c : Char} (h : c.isDigit) : isDigit c := by
  obtain ⟨hge, hle⟩ := toNat_of_isDigit h
  have hlt : c.toNat < 58 := Nat.lt_succ_of_le hle
  simp [isDigit, digitValue?, zeros, hge, hlt]

/-- A decimal digit is one of the ten from some zero on. -/
theorem isDigit_iff {c : Char} : isDigit c ↔ ∃ z ∈ zeros, z ≤ c.toNat ∧ c.toNat < z + 10 := by
  simp [isDigit, digitValue?]

/-- No run of blanks meets the digits of a script. -/
theorem isBlank_of_isDigit {c : Char} (h : isDigit c) : isBlank c = false := by
  have hapart : ∀ z ∈ zeros, ∀ run ∈ blankRuns, z + 10 ≤ run.1 ∨ run.2 < z := by decide
  obtain ⟨z, hz, hge, hlt⟩ := isDigit_iff.1 h
  simp only [isBlank, List.any_eq_false, Bool.and_eq_true, decide_eq_true_eq]
  intro run hrun
  have hapart := hapart z hz run hrun
  omega

end Text

/-! ## Coins -/

namespace Asset

/-- An address that can follow an amount in a list: it is not empty, does not start with a digit,
does not end with a blank and holds no comma. -/
structure IsName (addr : String) : Prop where
  ne : addr.toList ≠ []
  head : ∀ c ∈ addr.toList.head?, Text.isDigit c = false
  last : ∀ c ∈ addr.toList.getLast?, Text.isBlank c = false
  comma : ',' ∉ addr.toList

/-- The text of a coin. -/
def coin (a : Asset) : List Char :=
  a.amount.toList ++ a.addr.toList

/-- An asset that can be written as a coin. -/
structure IsCoin (a : Asset) : Prop where
  ne : a.amount.toList ≠ []
  digits : ∀ c ∈ a.amount.toList, c.isDigit
  name : IsName a.addr

/-- An asset that can be written in a list of coins: its amount consists of decimal digits, of any
script. -/
structure IsListable (a : Asset) : Prop where
  ne : a.amount.toList ≠ []
  digits : ∀ c ∈ a.amount.toList, Text.isDigit c
  name : IsName a.addr

theorem IsCoin.isListable {a : Asset} (h : a.IsCoin) : a.IsListable :=
  ⟨h.ne, fun c hc => Text.isDigit_of_isDigit (h.digits c hc), h.name⟩

/-- The text lists the coins, with commas between them and blanks or none around each. -/
def ListedIn (coins : List Asset) (text : String) : Prop :=
  ∃ pieces, List.Forall₂ (fun a piece => Text.Padded a.coin piece) coins pieces ∧
    text.toList = [','].intercalate pieces

/-- An amount of an asset in shortest form. -/
def ofNat (addr : String) (n : Nat) : Asset where
  addr
  amount := toString n

@[simp] theorem addr_ofNat (addr : String) (n : Nat) : (ofNat addr n).addr = addr := rfl

@[simp] theorem amount_ofNat (addr : String) (n : Nat) : (ofNat addr n).amount = toString n := rfl

theorem isCoin_ofNat {addr : String} (h : IsName addr) (n : Nat) : (ofNat addr n).IsCoin where
  ne := by
    show n.repr.toList ≠ []
    rw [Nat.toList_repr]
    exact Nat.toDigits_ne_nil
  digits := by
    intro c hc
    have hmem : c ∈ n.repr.toList := hc
    rw [Nat.toList_repr] at hmem
    exact Nat.isDigit_of_mem_toDigits (by decide) (by decide) hmem
  name := h

variable {a b : Asset} {coins : List Asset} {text : String}

theorem IsListable.coin_ne (h : a.IsListable) : a.coin ≠ [] :=
  List.append_ne_nil_of_left_ne_nil h.ne _

theorem IsListable.isTight (h : a.IsListable) : Text.IsTight a.coin := by
  constructor
  · intro c hc
    rw [coin, List.head?_append_of_ne_nil _ h.ne] at hc
    exact Text.isBlank_of_isDigit (h.digits c (List.mem_of_mem_head? hc))
  · intro c hc
    rw [coin, List.getLast?_append_of_ne_nil _ h.name.ne] at hc
    exact h.name.last c hc

/-- The asset has the digits in front of a text for its amount, and the rest for its address; blanks
around the text do not count. -/
structure IsReadFrom (a : Asset) (part : List Char) : Prop where
  coin : a.coin = Text.strip part
  amount_ne : a.amount.toList ≠ []
  digits : ∀ c ∈ a.amount.toList, Text.isDigit c
  longest : ∀ c ∈ a.addr.toList.head?, Text.isDigit c = false
  addr_ne : a.addr.toList ≠ []

/-- **What a coin is read as.** -/
theorem ofCoin_eq_ok {part : List Char} : ofCoin part = .ok a ↔ a.IsReadFrom part := by
  unfold ofCoin
  dsimp only
  constructor
  · intro h
    split at h
    · cases h
    · rename_i hfull
      simp only [Bool.or_eq_true, List.isEmpty_iff, not_or] at hfull
      obtain rfl := Except.ok.inj h
      constructor <;> simp only [coin, String.toList_ofList]
      case coin => exact List.takeWhile_append_dropWhile
      case amount_ne => exact hfull.1
      case digits => exact List.all_eq_true.1 List.all_takeWhile
      case longest =>
        intro c hc
        have hhead := List.head?_dropWhile_not Text.isDigit (Text.strip part)
        rwa [hc] at hhead
      case addr_ne => exact hfull.2
  · intro h
    have hamount : (Text.strip part).takeWhile Text.isDigit = a.amount.toList := by
      rw [← h.coin, coin, List.takeWhile_append_of_pos h.digits, Text.takeWhile_of_head h.longest,
        List.append_nil]
    have haddr : (Text.strip part).dropWhile Text.isDigit = a.addr.toList := by
      rw [← h.coin, coin, List.dropWhile_append_of_pos h.digits, Text.dropWhile_of_head h.longest]
    have hfull : (a.amount.toList.isEmpty || a.addr.toList.isEmpty) = false := by
      simp only [Bool.or_eq_false_iff, List.isEmpty_eq_false_iff]
      exact ⟨h.amount_ne, h.addr_ne⟩
    rw [hamount, haddr, hfull, String.ofList_toList, String.ofList_toList]
    rfl

/-- **A coin is read back**: the digits in front are its amount, and the rest is its address. -/
theorem ofCoin_of_padded (h : a.IsListable) {piece : List Char}
    (hpiece : Text.Padded a.coin piece) :
    ofCoin piece = .ok a :=
  ofCoin_eq_ok.2 ⟨(Text.strip_of_padded hpiece h.isTight h.coin_ne).symm, h.ne, h.digits,
    h.name.head, h.name.ne⟩

/-- Blanks and coins hold no comma, so splitting finds the pieces. -/
theorem splitOn_of_forall₂ {pieces : List (List Char)} (hcoins : ∀ a ∈ coins, a.IsListable)
    (hne : coins ≠ [])
    (hpieces : List.Forall₂ (fun a piece => Text.Padded a.coin piece) coins pieces)
    (htext : text.toList = [','].intercalate pieces) : text.toList.splitOn ',' = pieces := by
  have hcomma : ∀ piece ∈ pieces, ',' ∉ piece := by
    -- The text is that of the whole list, which the induction does not keep.
    clear htext hne
    induction hpieces with
    | nil => exact nofun
    | @cons a piece coins pieces hpiece _ ih =>
      have ha := hcoins a List.mem_cons_self
      intro piece' hmem
      rcases List.mem_cons.1 hmem with rfl | hmem
      · obtain ⟨before, after, hbefore, hafter, rfl⟩ := hpiece
        have hblank : Text.isBlank ',' = false := by decide
        have hdigit : Text.isDigit ',' = false := by decide
        simp only [List.mem_append, coin, not_or]
        exact ⟨⟨fun h => by simp [hbefore _ h] at hblank,
          fun h => by simp [ha.digits _ h] at hdigit, ha.name.comma⟩,
          fun h => by simp [hafter _ h] at hblank⟩
      · exact ih (fun b hb => hcoins b (List.mem_cons_of_mem _ hb)) piece' hmem
  have hpieces_ne : pieces ≠ [] := by
    rintro rfl
    exact hne (List.forall₂_nil_right_iff.1 hpieces)
  rw [htext, List.splitOn_intercalate ',' hcomma hpieces_ne]

theorem ListedIn.ne_empty (hcoins : ∀ a ∈ coins, a.IsListable) (hne : coins ≠ [])
    (h : ListedIn coins text) :
    text ≠ "" := by
  rintro rfl
  obtain ⟨pieces, hpieces, htext⟩ := h
  have hsplit : [[]] = pieces := splitOn_of_forall₂ hcoins hne hpieces htext
  obtain ⟨a, rest, rfl⟩ := List.exists_cons_of_ne_nil hne
  obtain ⟨piece, _, ⟨before, after, -, -, hpiece⟩, -, rfl⟩ := List.forall₂_cons_left_iff.1 hpieces
  have hcoin : a.coin = [] := by
    have hnil : before ++ a.coin ++ after = [] := hpiece.symm.trans (List.cons.inj hsplit).1.symm
    exact (List.append_eq_nil_iff.1 (List.append_eq_nil_iff.1 hnil).1).2
  exact (hcoins a List.mem_cons_self).coin_ne hcoin

/-- **A list of coins is read back.** -/
theorem ofCoins_of_listedIn (hcoins : ∀ a ∈ coins, a.IsListable) (hne : coins ≠ [])
    (h : ListedIn coins text) : ofCoins text = .ok coins := by
  obtain ⟨pieces, hpieces, htext⟩ := h
  rw [ofCoins, splitOn_of_forall₂ hcoins hne hpieces htext, mapM_eq_ok]
  clear htext hne
  induction hpieces with
  | nil => exact .nil
  | @cons a piece coins pieces hpiece _ ih =>
    exact .cons (ofCoin_of_padded (hcoins a List.mem_cons_self) hpiece)
      (ih fun b hb => hcoins b (List.mem_cons_of_mem _ hb))

/-- **A list of two coins is read back as a pair.** -/
theorem ofCoinPair_of_listedIn (ha : a.IsListable) (hb : b.IsListable) (h : ListedIn [a, b] text) :
    ofCoinPair text = .ok { first := a, second := b } := by
  obtain ⟨pieces, hpieces, htext⟩ := h
  have hcoins : ∀ c ∈ [a, b], c.IsListable := by simp [ha, hb]
  have hsplit := splitOn_of_forall₂ hcoins (List.cons_ne_nil _ _) hpieces htext
  obtain ⟨piece, rest, hpiece, hrest, rfl⟩ := List.forall₂_cons_left_iff.1 hpieces
  obtain ⟨piece', rest', hpiece', hrest', rfl⟩ := List.forall₂_cons_left_iff.1 hrest
  obtain rfl := List.forall₂_nil_left_iff.1 hrest'
  have hfirst := ofCoin_of_padded ha (Text.padded_self a.coin)
  have hsecond := ofCoin_of_padded hb (Text.padded_self b.coin)
  unfold ofCoinPair
  rw [hsplit]
  simp only [List.map_cons, List.map_nil, Text.strip_of_padded hpiece ha.isTight ha.coin_ne,
    Text.strip_of_padded hpiece' hb.isTight hb.coin_ne, hfirst, hsecond]
  rfl

end Asset

/-! ## Amounts in shortest form -/

namespace Numeral

theorem size_le_of_le {m n : Nat} (hmn : m ≤ n) (h : size n ≤ maxDigits) : size m ≤ maxDigits := by
  have hpos : 0 < maxDigits := by decide
  exact (Nat.length_toDigits_le_iff (by decide) hpos).2
    (Nat.lt_of_le_of_lt hmn ((Nat.length_toDigits_le_iff (by decide) hpos).1 h))

theorem toString_inj {m n : Int} : toString m = toString n ↔ m = n := by
  refine ⟨fun h => ?_, congrArg _⟩
  have hsplit := splitSign_toString m
  rw [h, splitSign_toString n, Prod.mk.injEq] at hsplit
  obtain ⟨hsign, hdigits⟩ := hsplit
  have habs : n.natAbs = m.natAbs := by
    rw [← Nat.ofDigitChars_ten_toDigits (n := n.natAbs), hdigits, Nat.ofDigitChars_ten_toDigits]
  rw [← signed_natAbs m, ← hsign, ← habs, signed_natAbs]

end Numeral

namespace Amount

open Numeral (size maxDigits)

variable {m n : Nat}

theorem write_natCast (h : size n ≤ maxDigits) : write n = .ok (toString n) :=
  write_eq_ok.2 ⟨h, rfl⟩

theorem write_neg_natCast (h : size n ≤ maxDigits) : write (-n) = .ok (toString (-n : Int)) :=
  write_eq_ok.2 ⟨by rwa [Int.natAbs_neg], rfl⟩

theorem read_toString (h : size n ≤ maxDigits) : read (toString n) = .ok n :=
  read_of_write (write_natCast h)

theorem negate_toString (h : size n ≤ maxDigits) :
    negate (toString n) = .ok (toString (-n : Int)) :=
  bind_eq_ok.2 ⟨n, read_toString h, write_neg_natCast h⟩

/-- What is left of an amount is written in shortest form. -/
theorem sub_toString (hmn : m ≤ n) (h : size n ≤ maxDigits) :
    sub (toString n) (toString m) = .ok (toString (n - m)) := by
  have hleft : size (n - m) ≤ maxDigits := Numeral.size_le_of_le (Nat.sub_le n m) h
  refine bind_eq_ok.2
    ⟨n, read_toString h, bind_eq_ok.2 ⟨m, read_toString (Numeral.size_le_of_le hmn h), ?_⟩⟩
  rw [← Int.ofNat_sub hmn]
  exact write_natCast hleft

end Amount

end PoolLedger
