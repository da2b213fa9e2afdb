import PoolLedger.Proofs.HeightRanges
import PoolLedger.Proofs.Lengths
import PoolLedger.Proofs.Provision.Events

/-!
# Where the coins of a transfer go

A transfer of which one side is a registered pair moves coins into the pair or out of it. Each coin
is placed once (`Record.Places`): as the amount of the leg of its denomination if that is an asset
of the pair, and otherwise in the notes, under its denomination. What goes out is negated. Legs of
assets that are not moved stay empty, and besides these coins the notes hold the recipient only.

For this the denominations have to be different and none of them may be called like the note of the
recipient. The proof goes through the coins from front to back (`Party.gives_place_coins`): what is
placed already is `Party.placed`, and a coin that is still to be placed has no note yet.

`Registry.transfers_settled` has this for the transfers of coins and of tokens, and what comes of a
transfer between other accounts or between pairs. Transfers without a sender or a recipient are
refused, and so is an amount that goes out and is too long to be negated
(`nameless_transfer_refused`).
-/

namespace PoolLedger

/-! ## New notes -/

theorem Members.put_of_not_mem {ms : Members} {key : Text} (h : key ∉ ms.map (·.1)) (value : Json) :
    ms.put key value = ms ++ [(key, value)] := by
  induction ms with
  | nil => rfl
  | cons m ms ih =>
    rw [List.map_cons, List.mem_cons, not_or] at h
    rw [put, if_neg (Ne.symm h.1), ih h.2]
    rfl

/-! ## Coins in their places -/

theorem Gives.flag (contract : String) : Gives (flag contract) ⟨⟩ [contract] := fun _ => rfl

namespace Party

variable {p : Party} {coin : Asset} {coins : List Asset} {r : Record}

/-- The coin is none of the assets of the pair. -/
def isForeign (p : Party) (coin : Asset) : Bool :=
  Side.all.all fun side => coin.addr ≠ p.pair.asset side

/-- The amount that a coin adds to the pool, as it is written. -/
def moved (p : Party) (coin : Asset) : String :=
  (p.signed coin.amount).toOption.getD ""

/-- A leg after some coins are placed. -/
def placedLeg (p : Party) (coins : List Asset) (l : Legs) (side : Side) : Asset :=
  match coins.find? (·.addr = p.pair.asset side) with
  | some coin => { addr := p.pair.asset side, amount := p.moved coin }
  | none => l.on side

/-- A record after some coins are placed. -/
def placed (p : Party) (coins : List Asset) (r : Record) : Record :=
  { r with
    legs := { first := p.placedLeg coins r.legs .first, second := p.placedLeg coins r.legs .second }
    notes := r.notes ++ (coins.filter p.isForeign).map fun coin =>
      (Text.ofString coin.addr, .str (p.moved coin)) }

theorem isForeign_iff : p.isForeign coin ↔ ∀ side, coin.addr ≠ p.pair.asset side := by
  simp only [isForeign, List.all_eq_true, decide_eq_true_eq, Side.mem_all, true_implies]

theorem isForeign_eq_false {side : Side} (h : coin.addr = p.pair.asset side) :
    p.isForeign coin = false :=
  Bool.eq_false_iff.2 fun hforeign => isForeign_iff.1 hforeign side h

theorem placedLeg_eq_some (hdistinct : (coins.map (·.addr)).Nodup) (hcoin : coin ∈ coins)
    {side : Side} (h : coin.addr = p.pair.asset side) (l : Legs) :
    p.placedLeg coins l side = { addr := p.pair.asset side, amount := p.moved coin } := by
  have hfind : coins.find? (·.addr = p.pair.asset side) = some coin := by
    cases hfound : coins.find? (·.addr = p.pair.asset side) with
    | none => exact absurd (decide_eq_true h) (List.find?_eq_none.1 hfound coin hcoin)
    | some found =>
      have haddr : found.addr = p.pair.asset side := by simpa using List.find?_some hfound
      rw [List.inj_on_of_nodup_map hdistinct (List.mem_of_find?_eq_some hfound) hcoin
        (haddr.trans h.symm)]
  rw [placedLeg, hfind]

theorem placedLeg_eq_on {side : Side} (h : ∀ coin ∈ coins, coin.addr ≠ p.pair.asset side)
    (l : Legs) :
    p.placedLeg coins l side = l.on side := by
  have hfind : coins.find? (·.addr = p.pair.asset side) = none :=
    List.find?_eq_none.2 fun coin hcoin heq => h coin hcoin (of_decide_eq_true heq)
  rw [placedLeg, hfind]

theorem placedLeg_cons_of_ne {side : Side} (h : coin.addr ≠ p.pair.asset side) (l : Legs) :
    p.placedLeg (coin :: coins) l side = p.placedLeg coins l side := by
  rw [placedLeg, placedLeg, List.find?_cons_of_neg (by simpa using h)]

theorem on_placed (side : Side) :
    (p.placed coins r).legs.on side = p.placedLeg coins r.legs side := by
  cases side <;> rfl

/-- A coin of the pair is placed as the amount of its leg. -/
theorem placed_cons_of_asset (hpair : p.pair.first ≠ p.pair.second)
    (hdistinct : ((coin :: coins).map (·.addr)).Nodup) {side : Side}
    (h : coin.addr = p.pair.asset side) (r : Record) : p.placed coins
        { r with legs := r.legs.set side { addr := p.pair.asset side, amount := p.moved coin } } =
      p.placed (coin :: coins) r := by
  have hlegs (side' : Side) : p.placedLeg coins
      (r.legs.set side { addr := p.pair.asset side, amount := p.moved coin }) side' =
        p.placedLeg (coin :: coins) r.legs side' := by
    by_cases hside : side' = side
    · subst hside
      -- No later coin is of the same asset.
      have hnone : ∀ other ∈ coins, other.addr ≠ p.pair.asset side' := fun other hother heq =>
        (List.nodup_cons.1 hdistinct).1 (List.mem_map.2 ⟨other, hother, heq.trans h.symm⟩)
      rw [placedLeg_eq_some hdistinct List.mem_cons_self h, placedLeg_eq_on hnone, Legs.on_set,
        if_pos rfl]
    · have hne : coin.addr ≠ p.pair.asset side' := fun heq =>
        hside (Pair.asset_injective hpair (heq.symm.trans h))
      rw [placedLeg_cons_of_ne hne]
      unfold placedLeg
      rw [Legs.on_set, if_neg hside]
  unfold placed
  rw [List.filter_cons_of_neg (by simp [isForeign_eq_false h])]
  simp only [hlegs]

theorem placed_cons_of_foreign (h : p.isForeign coin) (r : Record) :
    p.placed coins { r with notes := r.notes ++ [(Text.ofString coin.addr, .str (p.moved coin))] } =
      p.placed (coin :: coins) r := by
  have hne := isForeign_iff.1 h
  unfold placed
  rw [List.filter_cons_of_pos h, List.map_cons, List.append_assoc, List.singleton_append,
    placedLeg_cons_of_ne (hne .first), placedLeg_cons_of_ne (hne .second)]

theorem place_cons_of_asset (hpair : p.pair.first ≠ p.pair.second) {side : Side}
    (h : coin.addr = p.pair.asset side) {amount : String}
    (hsigned : p.signed coin.amount = .ok amount) :
    p.place (coin :: coins) r =
      p.place coins { r with legs := r.legs.set side { addr := p.pair.asset side, amount } } := by
  obtain ⟨addr, text⟩ := coin
  obtain rfl : addr = p.pair.asset side := h
  exact place_cons_asset hpair side hsigned coins r

theorem place_cons_of_foreign (h : p.isForeign coin) {amount : String}
    (hsigned : p.signed coin.amount = .ok amount) : p.place (coin :: coins) r = (do
      flag p.pair.contract
      p.place coins { r with notes := r.notes.put (Text.ofString coin.addr) (.str amount) }) := by
  have hne := isForeign_iff.1 h
  rw [place, hsigned]
  exact (if_neg (hne .first)).trans (if_neg (hne .second))

/-- **Coins with different denominations are placed one after another**, if each amount can be
counted and none of the denominations has a note already. -/
theorem gives_place_coins (hpair : p.pair.first ≠ p.pair.second)
    (hsigned : ∀ coin ∈ coins, p.signed coin.amount = .ok (p.moved coin))
    (hdistinct : (coins.map (·.addr)).Nodup)
    (hnew : ∀ coin ∈ coins, Text.ofString coin.addr ∉ r.notes.map (·.1)) :
    Gives (p.place coins r) (p.placed coins r)
      ((coins.filter p.isForeign).map fun _ => p.pair.contract) := by
  induction coins generalizing r with
  | nil =>
    have hplaced : p.placed [] r = r := by
      unfold placed
      rw [List.filter_nil, List.map_nil, List.append_nil]
      rfl
    rw [hplaced]
    exact .pure r
  | cons coin coins ih =>
    obtain ⟨hcoin, hcoins⟩ := List.forall_mem_cons.1 hsigned
    obtain ⟨hcoinNew, hcoinsNew⟩ := List.forall_mem_cons.1 hnew
    have hdistinct' : (coins.map (·.addr)).Nodup := hdistinct.of_cons
    -- A foreign coin becomes a note and flags the pair, any other coin an amount of a leg.
    by_cases hforeign : p.isForeign coin
    · have hrest : ∀ other ∈ coins, Text.ofString other.addr ∉
          (r.notes ++ [(Text.ofString coin.addr, Json.str (p.moved coin))]).map (·.1) := by
        intro other hother
        rw [List.map_append, List.mem_append, not_or]
        refine ⟨hcoinsNew other hother, fun hsame => ?_⟩
        have haddr : other.addr = coin.addr := Text.ofString_injective (List.mem_singleton.1 hsame)
        exact (List.nodup_cons.1 hdistinct).1 (List.mem_map.2 ⟨other, hother, haddr⟩)
      rw [place_cons_of_foreign hforeign hcoin, Members.put_of_not_mem hcoinNew,
        ← placed_cons_of_foreign hforeign, List.filter_cons_of_pos hforeign, List.map_cons]
      exact (Gives.flag p.pair.contract).bind (ih hcoins hdistinct' hrest)
    · obtain ⟨side, hside⟩ : ∃ side, coin.addr = p.pair.asset side := by
        simpa [isForeign_iff] using hforeign
      rw [place_cons_of_asset hpair hside hcoin, ← placed_cons_of_asset hpair hdistinct hside,
        List.filter_cons_of_neg hforeign]
      exact ih hcoins hdistinct' hcoinsNew

/-! ## The record of a transfer -/

/-- A text counts an amount: positive if it comes in, negative if it goes out. -/
def Counts (p : Party) (amount text : String) : Prop :=
  ∃ n, Amount.integer? amount = some n ∧ Amount.integer? text = some (if p.outflow then -n else n)

/-- Amounts of decimal digits are counted, if those that go out are not too long. -/
theorem counts_moved (hunsigned : Amount.IsUnsigned coin.amount)
    (hshort : p.outflow → Amount.digits coin.amount ≤ Numeral.maxDigits) :
    p.signed coin.amount = .ok (p.moved coin) ∧ p.Counts coin.amount (p.moved coin) := by
  obtain ⟨n, hn⟩ := hunsigned.exists_integer?
  -- Only what goes out is read and written anew, so only there the length matters.
  by_cases hout : p.outflow
  · have hsigned : p.signed coin.amount = .ok (toString (-n)) := by
      rw [signed, if_pos hout, Amount.negate_eq hn, if_pos (hshort hout)]
    have hmoved : p.moved coin = toString (-n) := by
      rw [moved, hsigned]
      rfl
    rw [hsigned, hmoved]
    refine ⟨rfl, n, hn, ?_⟩
    rw [if_pos hout]
    exact Amount.integer?_toString (-n)
  · have hsigned : p.signed coin.amount = .ok coin.amount := if_neg hout
    have hmoved : p.moved coin = coin.amount := by
      rw [moved, hsigned]
      rfl
    rw [hsigned, hmoved]
    refine ⟨rfl, n, hn, ?_⟩
    rwa [if_neg hout]

end Party

/-- The record of a transfer in which every coin has its place. -/
structure Record.Places (r : Record) (p : Party) (sender recipient : String)
    (coins : List Asset) : Prop where
  kind : r.kind = .transfer
  sender : r.sender = sender
  contract : r.contract = p.pair.contract
  order : ∀ side, (r.legs.on side).addr = p.pair.asset side
  held : ∀ coin ∈ coins, ∀ side, coin.addr = p.pair.asset side →
    p.Counts coin.amount (r.legs.on side).amount
  untouched : ∀ side, (∀ coin ∈ coins, coin.addr ≠ p.pair.asset side) → (r.legs.on side).amount = ""
  /-- The notes are the recipient and, one after another, the coins that are no assets of the
  pair. -/
  noted : ∃ notes, r.notes = (Text.ofString "recipient", .str recipient) :: notes ∧
    List.Forall₂ (fun coin note => note.1 = Text.ofString coin.addr ∧
      ∃ text : String, note.2 = .str text ∧ p.Counts coin.amount text)
      (coins.filter p.isForeign) notes
  others : r.share = "" ∧ r.shareAmount = "" ∧ r.commission = "" ∧ r.tax = none ∧ r.refund = none

/-- **The record of a transfer has every coin in its place.** -/
theorem Party.gives_record_places {p : Party} {coins : List Asset} (sender recipient : String)
    (hpair : p.pair.first ≠ p.pair.second) (hdistinct : (coins.map (·.addr)).Nodup)
    (hnamed : ∀ coin ∈ coins, coin.addr ≠ "recipient")
    (hunsigned : ∀ coin ∈ coins, Amount.IsUnsigned coin.amount)
    (hshort : p.outflow → ∀ coin ∈ coins, Amount.digits coin.amount ≤ Numeral.maxDigits) :
    ∃ r contracts, Gives (p.record sender recipient coins) r contracts ∧
      r.Places p sender recipient coins := by
  have hcounts (coin : Asset) (hcoin : coin ∈ coins) :=
    counts_moved (hunsigned coin hcoin) fun hout => hshort hout coin hcoin
  have hgives := gives_place_coins hpair (fun coin hcoin => (hcounts coin hcoin).1) hdistinct
    (r := {
      kind := .transfer, sender, contract := p.pair.contract, legs := p.pair.emptyLegs
      notes := [("recipient", .str recipient)] })
    fun coin hcoin hsame => hnamed coin hcoin (Text.ofString_injective (List.mem_singleton.1 hsame))
  refine ⟨_, _, hgives, rfl, rfl, rfl, fun side => ?_, fun coin hcoin side hside => ?_,
    fun side hnone => ?_, ⟨_, rfl, ?_⟩, rfl, rfl, rfl, rfl, rfl⟩
  · rw [Party.on_placed]
    by_cases hheld : ∃ coin ∈ coins, coin.addr = p.pair.asset side
    · obtain ⟨coin, hcoin, hside⟩ := hheld
      rw [placedLeg_eq_some hdistinct hcoin hside]
    · rw [placedLeg_eq_on fun coin hcoin hside => hheld ⟨coin, hcoin, hside⟩]
      cases side <;> rfl
  · rw [Party.on_placed, placedLeg_eq_some hdistinct hcoin hside]
    exact (hcounts coin hcoin).2
  · rw [Party.on_placed, placedLeg_eq_on hnone]
    cases side <;> rfl
  · exact List.forall₂_map_right_iff.2 (List.forall₂_same.2 fun coin hcoin =>
      ⟨rfl, _, rfl, (hcounts coin (List.mem_of_mem_filter hcoin)).2⟩)

namespace Party

variable {p : Party} {coins : List Asset} {r r' : Record} {flags flags' : Flags}

theorem exists_signed_of_place (h : p.place coins r flags = (.ok r', flags')) :
    ∀ coin ∈ coins, ∃ text, p.signed coin.amount = .ok text := by
  induction coins generalizing r flags with
  | nil => nofun
  | cons coin coins ih =>
    rw [place] at h
    obtain ⟨text, _, hlift, h⟩ := run_bind_eq_ok.1 h
    obtain ⟨htext, rfl⟩ := run_lift_eq_ok.1 hlift
    refine List.forall_mem_cons.2 ⟨⟨text, htext⟩, ?_⟩
    split_ifs at h
    · exact ih h
    · exact ih h
    · obtain ⟨-, _, -, h⟩ := run_bind_eq_ok.1 h
      exact ih h

theorem runFailsOnly_place_length (hunsigned : ∀ coin ∈ coins, Amount.IsUnsigned coin.amount) :
    RunFailsOnly ReadError.IsOfLength (p.place coins r) := by
  induction coins generalizing r with
  | nil => exact .pure r
  | cons coin coins ih =>
    obtain ⟨hcoin, hcoins⟩ := List.forall_mem_cons.1 hunsigned
    have hsigned : FailsOnly ReadError.IsOfLength (p.signed coin.amount) := by
      obtain ⟨n, hn⟩ := hcoin.exists_integer?
      unfold signed
      split
      · exact Amount.failsOnly_negate_length hn
      · exact .of_eq_ok rfl
    rw [place]
    refine .lift_bind hsigned fun amount _ => ?_
    split_ifs
    · exact ih hcoins
    · exact ih hcoins
    · exact .bind (fun _ => .of_eq_ok rfl) fun _ => ih hcoins

/-- A coin that goes out and is too long makes a transfer fail. -/
theorem record_of_long (sender recipient : String)
    (hunsigned : ∀ coin ∈ coins, Amount.IsUnsigned coin.amount) (hout : p.outflow)
    (hlong : ∃ coin ∈ coins, Numeral.maxDigits < Amount.digits coin.amount) (flags : Flags) :
    ∃ cause, (p.record sender recipient coins flags).1 = .error (.numeral cause) := by
  cases hrun : (p.record sender recipient coins flags).1 with
  | ok r =>
    obtain ⟨coin, hcoin, hlong⟩ := hlong
    obtain ⟨text, htext⟩ := exists_signed_of_place (Prod.ext hrun rfl) coin hcoin
    obtain ⟨n, hn⟩ := (hunsigned coin hcoin).exists_integer?
    rw [signed, if_pos hout, Amount.negate_eq hn, if_neg (Nat.not_le.2 hlong)] at htext
    cases htext
  | error e =>
    obtain ⟨cause, rfl⟩ := runFailsOnly_place_length hunsigned flags e hrun
    exact ⟨cause, rfl⟩

end Party

/-! ## Registered and other parties -/

namespace Registry

variable {registry : Registry} {sender recipient : String} {coins : List Asset}

/-- Exactly one side of a transfer is registered, and this is its pair. -/
def IsParty (registry : Registry) (sender recipient : String) (p : Party) : Prop :=
  registry.get? (if p.outflow then sender else recipient) = some p.pair ∧
    (if p.outflow then recipient else sender) ∉ registry.contracts

theorem party_of_isParty {p : Party} (h : registry.IsParty sender recipient p) :
    registry.party sender recipient = .ok (some p) := by
  obtain ⟨pair, outflow⟩ := p
  obtain ⟨hpair, hother⟩ := h
  have hother := get?_eq_none.2 hother
  cases outflow <;> simp_all [party]

theorem party_of_mem (hsender : sender ∈ registry.contracts)
    (hrecipient : recipient ∈ registry.contracts) :
    registry.party sender recipient = .error (.ambiguousTransfer sender recipient) := by
  obtain ⟨pair, hpair⟩ := Option.ne_none_iff_exists'.1 (mt get?_eq_none.1 (not_not_intro hsender))
  obtain ⟨pair', hpair'⟩ :=
    Option.ne_none_iff_exists'.1 (mt get?_eq_none.1 (not_not_intro hrecipient))
  rw [party, hpair, hpair']

/-- What comes of a transfer of some coins, whatever has been flagged: a record with every coin in
its place if one side is registered, unless an amount goes out that is too long, nothing if neither
side is registered, and a failure if both are. -/
structure Settles (registry : Registry) (sender recipient : String) (coins : List Asset)
    (reading : Flagging (Option Record)) : Prop where
  one : ∀ p, registry.IsParty sender recipient p →
    (p.outflow → ∀ coin ∈ coins, Amount.digits coin.amount ≤ Numeral.maxDigits) →
    ∃ r, (∀ flags, (reading flags).1 = .ok (some r)) ∧ r.Places p sender recipient coins
  long : ∀ p, registry.IsParty sender recipient p → p.outflow →
    (∃ coin ∈ coins, Numeral.maxDigits < Amount.digits coin.amount) →
    ∀ flags, ∃ cause, (reading flags).1 = .error (.numeral cause)
  none : sender ∉ registry.contracts → recipient ∉ registry.contracts →
    ∀ flags, (reading flags).1 = .ok none
  both : sender ∈ registry.contracts → recipient ∈ registry.contracts →
    ∀ flags, (reading flags).1 = .error (.ambiguousTransfer sender recipient)

theorem settles_settle (hassets : ∀ pair ∈ registry.pairs, pair.first ≠ pair.second)
    (sender recipient : String) (hdistinct : (coins.map (·.addr)).Nodup)
    (hnamed : ∀ coin ∈ coins, coin.addr ≠ "recipient")
    (hunsigned : ∀ coin ∈ coins, Amount.IsUnsigned coin.amount) :
    registry.Settles sender recipient coins (registry.settle sender recipient coins) where
  one p hp hshort := by
    have hpair := hassets p.pair (get?_eq_some hp.1).2
    obtain ⟨r, contracts, hgives, hplaces⟩ :=
      p.gives_record_places sender recipient hpair hdistinct hnamed hunsigned hshort
    have hsettle := gives_settle (party_of_isParty hp) hgives
    exact ⟨r, fun flags => congrArg Prod.fst (hsettle flags), hplaces⟩
  long p hp hout hlong flags := by
    obtain ⟨cause, hcause⟩ := p.record_of_long sender recipient hunsigned hout hlong flags
    refine ⟨cause, ?_⟩
    rw [settle, lift_bind_of_eq_ok (party_of_isParty hp)]
    dsimp only
    rw [run_bind]
    rcases hrun : p.record sender recipient coins flags with ⟨outcome, flags'⟩
    rw [hrun] at hcause
    rw [show outcome = .error (.numeral cause) from hcause]
  none hsender hrecipient flags := by
    rw [settle, lift_bind_of_eq_ok (party_eq_none hsender hrecipient)]
    rfl
  both hsender hrecipient flags := by
    rw [settle, party_of_mem hsender hrecipient]
    rfl

/-- **Transfers place every coin once.** Where every registered pair has two assets, this
is so of transfers of coins with different denominations, and of transfers of tokens that
have the shape of one. -/
theorem transfers_settled (hassets : ∀ pair ∈ registry.pairs, pair.first ≠ pair.second) :
    (∀ (t : BankTransfer) (coins : List Asset) (attrs : List Attribute), attrs.Perm t.attributes →
      t.sender ≠ "" → t.recipient ≠ "" → Asset.ofCoins t.coins = .ok coins →
      (coins.map (·.addr)).Nodup →
      (∀ coin ∈ coins, coin.addr ≠ "recipient" ∧ Amount.IsUnsigned coin.amount) →
      registry.Settles t.sender t.recipient coins (readBankTransfer 0 registry attrs)) ∧
    ∀ (p : Profile) (height : Int) (attrs : List Attribute)
      (sender recipient token amount : String), p.IsTokenTransfer height attrs →
      ⟨"from", sender⟩ ∈ attrs → ⟨"to", recipient⟩ ∈ attrs →
      ⟨p.deployment.contractKey, token⟩ ∈ attrs → ⟨"amount", amount⟩ ∈ attrs → token ≠ "recipient" →
      Amount.IsUnsigned amount →
      registry.Settles sender recipient [{ addr := token, amount }]
        ((p.tokenReader height).read registry attrs) := by
  constructor
  · intro t coins attrs hattrs hsender hrecipient hcoins hdistinct hcoin
    rw [readBankTransfer_eq_settle hattrs hsender hrecipient hcoins]
    exact settles_settle hassets _ _ hdistinct (fun coin h => (hcoin coin h).1) fun coin h =>
      (hcoin coin h).2
  · intro p height attrs sender recipient token amount hshape hsender hrecipient htoken hamount
      hnamed hunsigned
    obtain ⟨fields, hfields⟩ := Profile.exists_fields_iff.2 hshape
    obtain ⟨hdistinct, hview, -⟩ := TokenReader.fields_eq_ok.1 hfields
    have hperm := Layout.prepare_perm (p.tokenReader height).layout attrs
    have hvalue {key v : String} (h : ⟨key, v⟩ ∈ attrs) : fields.value key = .ok v := by
      rw [hview]
      exact Fields.value_of_mem hdistinct (hperm.mem_iff.2 h)
    have hkey : (p.tokenReader height).layout.contractKey = p.deployment.contractKey :=
      Profile.contractKey_tokenLayout p.deployment
    rw [TokenReader.read_eq_settle hfields (hvalue hsender) (hvalue hrecipient)
      (hkey ▸ hvalue htoken)
      (hvalue hamount)]
    exact settles_settle hassets _ _ (List.nodup_singleton _) (List.forall_mem_singleton.2 hnamed)
      (List.forall_mem_singleton.2 hunsigned)

end Registry

/-! A deposit of one coin that the pair holds and one that it does not, a payout of a token, and
transfers that are refused. -/

def lunaRegistry : Registry := .ofList [lunaPair]

def mixedTransfer : BankTransfer where
  sender := "terra1user"
  recipient := "terra1pair"
  coins := "5uluna,7ufoo"

def tokenPayout : List Attribute :=
  [⟨"_contract_address", "terra1token"⟩, ⟨"action", "transfer"⟩, ⟨"from", "terra1pair"⟩,
    ⟨"to", "terra1user"⟩, ⟨"amount", "9"⟩]

theorem isTokenTransfer_tokenPayout : phoenixProfile.IsTokenTransfer 0 tokenPayout where
  distinct := by decide
  valued := by decide
  complete := ⟨"transfer", ["amount", "from", "to"], by decide, by decide, by decide, by decide⟩

theorem mixedTransfer_settled : (∀ pair ∈ lunaRegistry.pairs, pair.first ≠ pair.second) ∧
    (∃ r, (∀ flags, (readBankTransfer 0 lunaRegistry mixedTransfer.attributes flags).1 =
      .ok (some r)) ∧
      r.Places { pair := lunaPair, outflow := false } "terra1user" "terra1pair"
        [⟨"uluna", "5"⟩, ⟨"ufoo", "7"⟩]) ∧
    ∃ r, (∀ flags, ((phoenixProfile.tokenReader 0).read lunaRegistry tokenPayout flags).1 =
      .ok (some r)) ∧
      r.Places { pair := lunaPair, outflow := true } "terra1pair" "terra1user"
        [⟨"terra1token", "9"⟩] := by
  have hassets : ∀ pair ∈ lunaRegistry.pairs, pair.first ≠ pair.second := by decide
  obtain ⟨hbank, htoken⟩ := Registry.transfers_settled hassets
  have hmixed := hbank mixedTransfer [⟨"uluna", "5"⟩, ⟨"ufoo", "7"⟩] mixedTransfer.attributes
    (.refl _)
    (by decide) (by decide) (by decide) (by decide) (by decide)
  have hpayout := htoken phoenixProfile 0 tokenPayout "terra1pair" "terra1user" "terra1token" "9"
    isTokenTransfer_tokenPayout (by decide) (by decide) (by decide) (by decide) (by decide)
      (by decide)
  exact ⟨hassets, hmixed.one _ ⟨by decide, by decide⟩ nofun,
    hpayout.one _ ⟨by decide, by decide⟩ fun _ => by decide⟩

def namelessTransfer : BankTransfer where
  sender := ""
  recipient := "terra1pair"
  coins := "5uluna"

/-- A payout of an amount in shortest form. -/
def payout (n : Nat) : BankTransfer where
  sender := "terra1pair"
  recipient := "terra1user"
  coins := String.ofList (Asset.ofNat "uluna" n).coin

theorem isName_uluna : Asset.IsName "uluna" where
  ne := by decide
  head _ hc := Option.some.inj hc ▸ by decide
  last _ hc := Option.some.inj hc ▸ by decide
  comma := by decide

theorem ofCoins_payout (n : Nat) : Asset.ofCoins (payout n).coins = .ok [.ofNat "uluna" n] := by
  refine Asset.ofCoins_of_listedIn
    (List.forall_mem_singleton.2 (Asset.isCoin_ofNat isName_uluna n).isListable)
    (List.cons_ne_nil _ _) ⟨[(Asset.ofNat "uluna" n).coin], .cons (Text.padded_self _) .nil, ?_⟩
  rw [payout, String.toList_ofList]
  simp [List.intercalate]

/-- A payout that is too long is refused. -/
theorem payout_refused {n : Nat} (h : Numeral.maxDigits < Numeral.size n) :
    ∃ cause, (readBankTransfer 0 lunaRegistry (payout n).attributes []).1 =
      .error (.numeral cause) := by
  have hunsigned : Amount.IsUnsigned (toString n) :=
    ⟨Numeral.toString_ne_empty n, (Asset.isCoin_ofNat isName_uluna n).digits⟩
  have hlong : Numeral.maxDigits < Amount.digits (toString n) := by
    rwa [show toString n = toString (n : Int) from rfl, Amount.digits_toString, Int.natAbs_natCast]
  have hparty : lunaRegistry.IsParty "terra1pair" "terra1user"
      { pair := lunaPair, outflow := true } :=
    ⟨by decide, by decide⟩
  have hsettled : lunaRegistry.Settles "terra1pair" "terra1user" [.ofNat "uluna" n]
      (lunaRegistry.settle "terra1pair" "terra1user" [.ofNat "uluna" n]) :=
    Registry.settles_settle (by decide) _ _ (List.nodup_singleton _)
      (List.forall_mem_singleton.2 (show "uluna" ≠ "recipient" by decide))
      (List.forall_mem_singleton.2 hunsigned)
  rw [readBankTransfer_eq_settle (t := payout n) (.refl _) (show "terra1pair" ≠ "" by decide)
    (show "terra1user" ≠ "" by decide) (ofCoins_payout n)]
  exact hsettled.long _ hparty rfl ⟨_, List.mem_singleton_self _, hlong⟩ []

/-- **Not every transfer of a pair is recorded**: without a sender it is refused, and an amount that
is too long is not negated. -/
theorem nameless_transfer_refused :
    lunaRegistry.IsParty "" "terra1pair" { pair := lunaPair, outflow := false } ∧
    (readBankTransfer 0 lunaRegistry namelessTransfer.attributes []).1 =
      .error (.emptyValue "transfer" .bankTransfer "sender") ∧
    lunaRegistry.IsParty "terra1pair" "terra1user" { pair := lunaPair, outflow := true } ∧
    ∃ cause, (readBankTransfer 0 lunaRegistry (payout (2 * greatestAmount)).attributes []).1 =
      .error (.numeral cause) :=
  ⟨⟨by decide, by decide⟩, by decide, ⟨by decide, by decide⟩, payout_refused size_greatestAmount.2⟩

end PoolLedger
