import Mathlib.Data.List.Basic
import Mathlib.Tactic.SplitIfs
import PoolLedger.Json.Reader
import PoolLedger.Json.Writer

/-!
# JSON texts are uniquely readable

What is written as JSON can be told apart, whatever text follows it (`SelfDelimiting`). Strings are
the heart of it: every character is written in one of five forms, and the reader takes each of them
back to the character, also if it takes two units (`Json.Reader.string_char`). So the reader finds
the end of a string (`Json.Writer.selfDelimiting_string`). Arrays and objects then follow from their
parts, since no part begins with the bracket that closes the list, nor with a comma
(`Json.Writer.selfDelimiting_separated`).

This holds for strings of characters only: two halves of a pair that stand next to each other are
written as the character that they make up.
-/

namespace PoolLedger

/-! ## Strings -/

namespace Json

/-- The points of what is written. -/
def points (written : List Char) : List Point :=
  written.map .char

@[simp]
theorem points_append (a b : List Char) : points (a ++ b) = points a ++ points b :=
  List.map_append

theorem points_injective : Function.Injective points :=
  List.map_injective_iff.2 fun _ _ => Point.char.inj

namespace Reader

theorem hexDigit?_digitChar {d : Nat} (hd : d < 16) : hexDigit? (.char d.digitChar) = some d := by
  have hall : ∀ d : Fin 16, hexDigit? (.char (d : Nat).digitChar) = some (d : Nat) := by decide
  exact hall ⟨d, hd⟩

/-- Four hexadecimal digits are read as the unit that they are written for. -/
theorem unit?_hex {n : Nat} (hn : n < 0x10000) (rest : List Point) :
    unit? (points (Text.hex 4 n) ++ rest) = some (n, rest) := by
  have hdigit (i : Nat) : hexDigit? (.char (n / 16 ^ i % 16).digitChar) = some (n / 16 ^ i % 16) :=
    hexDigit?_digitChar (Nat.mod_lt _ (by decide))
  have hvalue : 16 * (16 * (16 * (16 * 0 + n / 16 ^ 3 % 16) + n / 16 ^ 2 % 16) + n / 16 ^ 1 % 16) +
      n / 16 ^ 0 % 16 =
      n := by omega
  show (do
    let m ← [3, 2, 1, 0].foldlM
        (fun m i => (16 * m + ·) <$> hexDigit? (.char (n / 16 ^ i % 16).digitChar)) 0
    some (m, rest)) = _
  simp only [List.foldlM_cons, List.foldlM_nil, hdigit, Option.map_eq_map, Option.map_some]
  exact congrArg (fun m => some (m, rest)) hvalue

/-- A unit that is no half of a pair is a character of its own. -/
theorem unicode?_unit {c : Char} (hc : c.toNat < 0x10000) (rest : List Point) :
    unicode? (points (Text.hex 4 c.toNat) ++ rest) = some (.char c, rest) := by
  have hhalf : ¬(Point.firstHalf ≤ c.toNat ∧ c.toNat < Point.firstHalf + 2048) := by
    have hvalid : c.toNat < 0xD800 ∨ 0xDFFF < c.toNat ∧ c.toNat < 0x110000 := c.valid
    unfold Point.firstHalf
    omega
  have hpoint : Point.ofCode c.toNat = .char c := by
    rw [Point.ofCode, dif_neg hhalf, Char.ofNat_toNat]
  have hhigh : isHigh c.toNat = false := by
    simp only [isHigh, Bool.and_eq_false_iff, decide_eq_false_iff_not]
    unfold Point.firstHalf at hhalf
    omega
  unfold unicode?
  rw [unit?_hex hc]
  dsimp only [Option.bind_eq_bind, Option.bind_some]
  rw [hhigh, hpoint]
  split
  · rfl
  · rfl

/-- The halves of a pair are read as one character. -/
theorem unicode?_pair {high low : Nat} {p : Point} (hhigh : isHigh high = true)
    (hlow : low < 0x10000) (hpair : Point.ofPair? high low = some p) (rest : List Point) :
    unicode? (points (Text.hex 4 high) ++
      .char '\\' :: .char 'u' :: (points (Text.hex 4 low) ++ rest)) =
      some (p, rest) := by
  have hunit : high < 0x10000 := by
    simp only [isHigh, Bool.and_eq_true, decide_eq_true_eq] at hhigh
    omega
  simp only [unicode?, unit?_hex hunit, unit?_hex hlow, Option.bind_eq_bind, Option.bind_some,
    hhigh, hpair, if_true]

/-- A character that needs two units is the one of the pair of its halves. -/
theorem ofPair?_halves {c : Char} (hc : 0x10000 ≤ c.toNat) :
    isHigh (0xD800 + (c.toNat - 0x10000) / 0x400) = true ∧
    Point.ofPair? (0xD800 + (c.toNat - 0x10000) / 0x400) (0xDC00 + (c.toNat - 0x10000) % 0x400) =
      some (.char c) := by
  have hvalid : c.toNat < 0xD800 ∨ 0xDFFF < c.toNat ∧ c.toNat < 0x110000 := c.valid
  obtain ⟨n, hn⟩ : ∃ n, n = c.toNat - 0x10000 := ⟨_, rfl⟩
  have hcode : 0x10000 + (0xD800 + n / 0x400 - 0xD800) * 0x400 + (0xDC00 + n % 0x400 - 0xDC00) =
      c.toNat := by omega
  rw [← hn]
  refine ⟨?_, ?_⟩
  · simp only [isHigh, Bool.and_eq_true, decide_eq_true_eq]
    omega
  · unfold Point.ofPair?
    rw [hcode, Char.ofNat_toNat, if_pos]
    simp only [Bool.and_eq_true, decide_eq_true_eq]
    omega

/-- **A character is read as it is written**, whatever follows. -/
theorem string_char (c : Char) (fuel : Nat) (done rest : List Point) :
    string (fuel + 1) done (points (Writer.char c) ++ rest) =
      string fuel (.char c :: done) rest := by
  unfold Writer.char
  -- The cases are those of writing: escapes by letter, plain, one unit, two units.
  split_ifs with hquoted hn hr ht hb hf hplain hunit
  · rcases (by simpa using hquoted : c = '"' ∨ c = '\\') with rfl | rfl
    · rfl
    · rfl
  · rw [hn]; rfl
  · rw [hr]; rfl
  · rw [ht]; rfl
  · rw [hb]; rfl
  · rw [hf]; rfl
  · have hquote : c ≠ '"' ∧ c ≠ '\\' := by simpa using hquoted
    have hisPlain : isPlain (.char c) = true := by
      simp only [Bool.and_eq_true, decide_eq_true_eq] at hplain
      simp [isPlain, Point.code, hquote.2, hplain.1]
    show string (fuel + 1) done (.char c :: rest) = _
    rw [string, if_pos hisPlain]
    all_goals simp [hquote]
  · show string (fuel + 1) done
        (.char '\\' :: .char 'u' :: (points (Text.hex 4 c.toNat) ++ rest)) = _
    rw [string, unicode?_unit hunit]
  · obtain ⟨hhigh, hhalves⟩ := ofPair?_halves (Nat.le_of_not_lt hunit)
    have hpair := unicode?_pair hhigh (by omega) hhalves rest
    rw [points_append, List.append_assoc]
    show string (fuel + 1) done (.char '\\' :: .char 'u' :: (points (Text.hex 4 _) ++
      .char '\\' :: .char 'u' :: (points (Text.hex 4 _) ++ rest))) = _
    rw [string, hpair]

/-- **A string is read as it is written.** -/
theorem string_chars (l : List Char) (fuel : Nat) (done : List Point) (rest : List Char) :
    string (fuel + l.length + 1) done (points (l.flatMap Writer.char ++ '"' :: rest)) =
      .ok (⟨done.reverse ++ l.map .char⟩, points rest) := by
  induction l generalizing done with
  | nil =>
    rw [List.map_nil, List.append_nil]
    rfl
  | cons c l ih =>
    rw [List.flatMap_cons, List.append_assoc, points_append, List.length_cons, ← Nat.add_assoc,
      string_char, ih, List.reverse_cons, List.append_assoc]
    rfl

end Reader

end Json

/-! ## Writings whose end can be told -/

/-- Whatever follows what is written, both the value and what follows are determined. -/
def SelfDelimiting {α : Type} (write : α → List Char) : Prop :=
  ∀ ⦃a b rest rest'⦄, write a ++ rest = write b ++ rest' → a = b ∧ rest = rest'

namespace SelfDelimiting

variable {α β : Type} {f : α → List Char} {g : β → List Char}

theorem injective (hf : SelfDelimiting f) : Function.Injective f := fun _ _ h =>
  (hf (congrArg (· ++ []) h)).1

theorem comp (hf : SelfDelimiting f) {e : β → α} (he : Function.Injective e) :
    SelfDelimiting fun b => f (e b) :=
  fun _ _ _ _ h => (hf h).imp_left fun heq => he heq

theorem pair (hf : SelfDelimiting f) (hg : SelfDelimiting g) (between : List Char) :
    SelfDelimiting fun p : α × β => f p.1 ++ between ++ g p.2 := fun p q rest rest' h => by
  simp only [List.append_assoc] at h
  obtain ⟨hfirst, hbehind⟩ := hf h
  obtain ⟨hsecond, hrest⟩ := hg (List.append_cancel_left hbehind)
  exact ⟨Prod.ext hfirst hsecond, hrest⟩

theorem prepend (hf : SelfDelimiting f) (front : List Char) :
    SelfDelimiting fun a => front ++ f a :=
  fun _ _ _ _ h => by
    simp only [List.append_assoc] at h
    exact hf (List.append_cancel_left h)

variable {start closing : Char}

theorem closed (hf : SelfDelimiting f) (hstart : ∀ a, ∃ s, f a = start :: s)
    (hclosing : closing ≠ start) {l m : List α} {rest rest' : List Char}
    (h : l.flatMap f ++ closing :: rest = m.flatMap f ++ closing :: rest') :
    l = m ∧ rest = rest' := by
  have hends {a : α} {l : List α} {rest rest' : List Char} :
      closing :: rest' ≠ (a :: l).flatMap f ++ closing :: rest := by
    obtain ⟨s, hs⟩ := hstart a
    rw [List.flatMap_cons, hs]
    exact fun heq => hclosing (List.cons.inj heq).1
  induction l generalizing m with
  | nil =>
    cases m with
    | nil => exact ⟨rfl, (List.cons.inj h).2⟩
    | cons b m => exact absurd h hends
  | cons a l ih =>
    cases m with
    | nil => exact absurd h.symm hends
    | cons b m =>
      rw [List.flatMap_cons, List.flatMap_cons, List.append_assoc, List.append_assoc] at h
      obtain ⟨rfl, hbehind⟩ := hf h
      exact (ih hbehind).imp_left (congrArg (a :: ·))

end SelfDelimiting

/-! ## Arrays and objects -/

namespace Json.Writer

theorem separated_cons (s : List Char) (l : List (List Char)) :
    separated (s :: l) = s ++ l.flatMap ([',', ' '] ++ ·) := by
  induction l generalizing s with
  | nil => exact (List.append_nil s).symm
  | cons t l ih =>
    rw [separated, ih, List.flatMap_cons]
    · rfl
    · simp

variable {α : Type} {f : α → List Char} {start closing : Char}

/-- The end of a list between brackets can be told: what follows an item is a comma or the bracket
that closes the list, and the latter begins no item. -/
theorem selfDelimiting_separated (hf : SelfDelimiting f) (hstart : ∀ a, ∃ s, f a = start :: s)
    (hclosing : closing ≠ start) (hcomma : closing ≠ ',') (opening : Char) :
    SelfDelimiting fun l : List α => opening :: separated (l.map f) ++ [closing] := by
  intro l m rest rest' h
  have h : separated (l.map f) ++ closing :: rest = separated (m.map f) ++ closing :: rest' := by
    simpa using h
  have hempty {a : α} {l : List α} {rest rest' : List Char} :
      closing :: rest' ≠ separated ((a :: l).map f) ++ closing :: rest := by
    obtain ⟨s, hs⟩ := hstart a
    rw [List.map_cons, separated_cons, hs]
    exact fun heq => hclosing (List.cons.inj heq).1
  -- The closing bracket begins no item, so both lists end at the same place.
  cases l with
  | nil =>
    cases m with
    | nil => exact ⟨rfl, (List.cons.inj h).2⟩
    | cons b m => exact absurd h hempty
  | cons a l =>
    cases m with
    | nil => exact absurd h.symm hempty
    | cons b m =>
      simp only [List.map_cons, separated_cons, List.flatMap_map, List.append_assoc] at h
      obtain ⟨rfl, hbehind⟩ := hf h
      have hrest := (hf.prepend [',', ' ']).closed (fun a => ⟨_, rfl⟩) hcomma hbehind
      exact hrest.imp_left (congrArg (a :: ·))

/-- The end of a string can be told, since a reader tells it. -/
theorem selfDelimiting_string : SelfDelimiting fun s : String => string (Text.ofString s) := by
  intro s t rest rest' h
  have h : s.toList.flatMap char ++ '"' :: rest = t.toList.flatMap char ++ '"' :: rest' := by
    simpa [string, Text.ofString, List.flatMap_map, point] using h
  have hs := Reader.string_chars s.toList t.toList.length [] rest
  rw [h, Nat.add_comm t.toList.length, Reader.string_chars] at hs
  obtain ⟨htext, hrest⟩ := Prod.mk.inj (Except.ok.inj hs)
  exact ⟨(Text.ofString_injective htext).symm, (points_injective hrest).symm⟩

end Json.Writer

end PoolLedger
