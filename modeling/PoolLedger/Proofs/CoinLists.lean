import PoolLedger.Proofs.Coins
import PoolLedger.Proofs.Failures

/-!
# Reading and writing lists of coins

Reading undoes writing: a text that lists coins is read as these coins, in their order. And writing
undoes reading: each coin that is read, written as its amount and its address, is the part of the
text between two commas that it was read from, less the blanks around that part; its amount is the
longest run of digits in front, and neither half is empty (`Asset.IsReadFrom`). A text of which some
part is no such coin is refused, and so is one that does not list exactly two coins where a pair is
read (`Asset.coin_lists_round_trip`).
-/

namespace PoolLedger

/-! ## Parts without the blanks around them -/

namespace Text

theorem dropEnd_append (q : Char → Bool) (s : List Char) :
    dropEnd q s ++ (s.reverse.takeWhile q).reverse = s := by
  rw [dropEnd, ← List.reverse_append, List.takeWhile_append_dropWhile, List.reverse_reverse]

theorem getLast?_dropEnd {q : Char → Bool} {s : List Char} :
    ∀ c ∈ (dropEnd q s).getLast?, q c = false := by
  intro c hc
  have hhead := List.head?_dropWhile_not q s.reverse
  rw [dropEnd, List.getLast?_reverse] at hc
  rwa [hc] at hhead

theorem isTight_strip (s : List Char) : IsTight (strip s) := by
  refine ⟨fun c hc => ?_, getLast?_dropEnd⟩
  have hne : strip s ≠ [] := List.ne_nil_of_mem (List.mem_of_mem_head? hc)
  have hfront : (s.dropWhile isBlank).head? = some c := by
    rw [← dropEnd_append isBlank (s.dropWhile isBlank)]
    exact (List.head?_append_of_ne_nil (strip s) hne).trans hc
  have hhead := List.head?_dropWhile_not isBlank s
  rwa [hfront] at hhead

theorem strip_strip (s : List Char) : strip (strip s) = strip s := by
  by_cases hne : strip s = []
  · rw [hne]
    rfl
  · exact strip_of_padded (padded_self _) (isTight_strip s) hne

end Text

/-! ## Lists of coins -/

namespace Asset

open ReadError (IsOfCoins)

variable {a : Asset} {coins : List Asset} {legs : Legs} {part : List Char} {text : String}

/-- Blanks around a part do not matter. -/
theorem isReadFrom_strip : a.IsReadFrom (Text.strip part) ↔ a.IsReadFrom part :=
  ⟨fun h => { h with coin := h.coin.trans (Text.strip_strip part) },
    fun h => { h with coin := h.coin.trans (Text.strip_strip part).symm }⟩

/-- The coins are read from the parts of a text between its commas. -/
def AreReadFrom (coins : List Asset) (text : String) : Prop :=
  List.Forall₂ IsReadFrom coins (text.toList.splitOn ',')

theorem ofCoins_eq_ok : ofCoins text = .ok coins ↔ AreReadFrom coins text := by
  simp only [ofCoins, mapM_eq_ok, ofCoin_eq_ok]
  exact ⟨List.Forall₂.flip, List.Forall₂.flip⟩

theorem ofCoinPair_of_parts {a b : List Char} (hparts : text.toList.splitOn ',' = [a, b]) :
    ofCoinPair text = .ok legs ↔ AreReadFrom legs.toList text := by
  have hread : ofCoinPair text = (do
      return { first := ← ofCoin (Text.strip a), second := ← ofCoin (Text.strip b) }) := by
    unfold ofCoinPair
    rw [hparts]
    rfl
  obtain ⟨first, second⟩ := legs
  simp only [hread, bind_eq_ok, pure_eq_ok, ofCoin_eq_ok, isReadFrom_strip, AreReadFrom, hparts,
    Legs.toList, List.forall₂_cons, List.Forall₂.nil, and_true, Legs.mk.injEq]
  constructor
  · rintro ⟨_, hfirst, _, hsecond, rfl, rfl⟩
    exact ⟨hfirst, hsecond⟩
  · rintro ⟨hfirst, hsecond⟩
    exact ⟨_, hfirst, _, hsecond, rfl, rfl⟩

theorem ofCoinPair_of_length (h : (text.toList.splitOn ',').length ≠ 2) :
    ofCoinPair text = .error (.malformedAssets text) := by
  unfold ofCoinPair
  split
  · rename_i a b hparts
    exact absurd (by simpa using congrArg List.length hparts) h
  · rfl

theorem ofCoinPair_eq_ok : ofCoinPair text = .ok legs ↔ AreReadFrom legs.toList text := by
  by_cases hlength : (text.toList.splitOn ',').length = 2
  · obtain ⟨a, b, hparts⟩ := List.length_eq_two.1 hlength
    exact ofCoinPair_of_parts hparts
  · rw [ofCoinPair_of_length hlength]
    exact ⟨nofun, fun h => absurd (List.Forall₂.length_eq h).symm hlength⟩

/-- **Lists of coins make the round trip.** A text that lists coins is read as these coins, and as a
pair if there are two of them; another number of coins is no pair. Whatever is read consists of the
parts of the text between its commas, and all other texts are refused. -/
theorem coin_lists_round_trip (text : String) :
    (∀ coins, coins ≠ [] → (∀ a ∈ coins, a.IsListable) → ListedIn coins text →
      ofCoins text = .ok coins ∧
      (∀ legs : Legs, legs.toList = coins → ofCoinPair text = .ok legs) ∧
      (coins.length ≠ 2 → ofCoinPair text = .error (.malformedAssets text))) ∧
    (∀ coins, ofCoins text = .ok coins ↔ AreReadFrom coins text) ∧
    (∀ legs : Legs, ofCoinPair text = .ok legs ↔ AreReadFrom legs.toList text) ∧
    FailsOnly IsOfCoins (ofCoins text) ∧ FailsOnly IsOfCoins (ofCoinPair text) := by
  refine ⟨fun coins hne hcoins hlisted => ?_, fun _ => ofCoins_eq_ok, fun _ => ofCoinPair_eq_ok,
    failsOnly_ofCoins text, failsOnly_ofCoinPair text⟩
  have hread := ofCoins_of_listedIn hcoins hne hlisted
  have hparts := ofCoins_eq_ok.1 hread
  refine ⟨hread, fun legs hlegs => ofCoinPair_eq_ok.2 (hlegs ▸ hparts), fun hlength => ?_⟩
  exact ofCoinPair_of_length (List.Forall₂.length_eq hparts ▸ hlength)

/-! Two coins with blanks around them, one of which has Arabic digits. -/

def blankedText : String :=
  "\t1000uluna ,\u2003٣٤terra1token\n"

def blankedLegs : Legs where
  first := { addr := "uluna", amount := "1000" }
  second := { addr := "terra1token", amount := "٣٤" }

theorem isListable_blankedLegs : ∀ a ∈ blankedLegs.toList, a.IsListable := by
  have hluna : IsName "uluna" :=
    ⟨by decide, fun _ hc => Option.some.inj hc ▸ by decide,
      fun _ hc => Option.some.inj hc ▸ by decide, by decide⟩
  have htoken : IsName "terra1token" :=
    ⟨by decide, fun _ hc => Option.some.inj hc ▸ by decide,
      fun _ hc => Option.some.inj hc ▸ by decide, by decide⟩
  have hfirst : blankedLegs.first.IsListable := ⟨by decide, List.all_eq_true.1 (by decide), hluna⟩
  have hsecond : blankedLegs.second.IsListable :=
    ⟨by decide, List.all_eq_true.1 (by decide), htoken⟩
  exact List.forall_mem_cons.2 ⟨hfirst, List.forall_mem_singleton.2 hsecond⟩

theorem listedIn_blankedText : ListedIn blankedLegs.toList blankedText := by
  refine ⟨["\t1000uluna ".toList, "\u2003٣٤terra1token\n".toList], ?_, by decide⟩
  exact .cons ⟨['\t'], [' '], List.all_eq_true.1 (by decide), List.all_eq_true.1 (by decide),
    by decide⟩
    (.cons ⟨['\u2003'], ['\n'], List.all_eq_true.1 (by decide), List.all_eq_true.1 (by decide),
      by decide⟩ .nil)

theorem blanked_round_trip : blankedLegs.toList ≠ [] ∧ (∀ a ∈ blankedLegs.toList, a.IsListable) ∧
    ListedIn blankedLegs.toList blankedText ∧ ofCoins blankedText = .ok blankedLegs.toList ∧
    ofCoinPair blankedText = .ok blankedLegs := by
  obtain ⟨hread, -⟩ := coin_lists_round_trip blankedText
  obtain ⟨hall, hpair, -⟩ :=
    hread blankedLegs.toList (List.cons_ne_nil _ _) isListable_blankedLegs listedIn_blankedText
  exact ⟨List.cons_ne_nil _ _, isListable_blankedLegs, listedIn_blankedText, hall, hpair _ rfl⟩

end Asset

end PoolLedger
