import PoolLedger.Proofs.Outcome
import PoolLedger.Proofs.Reading
import PoolLedger.Proofs.Registry

/-!
# What the readers of transfers give

`Party.place` goes through the legs of a transfer from front to back and puts a later one over an
earlier one, so each leg of the record is that of the last move of its asset (`place_eq_ok`). It
leaves the sender and the addresses of the legs alone (`place_addrs`), and a single leg ends up in
one place (`place_singleton`).

`TokenReader.read_eq_ok` and `readBankTransfer_eq_ok` say which legs the two readers place.
-/

namespace PoolLedger

/-- The amount of the last move that satisfies a condition. -/
def lastAmount? (counts : Asset → Bool) : List Asset → Option String
  | [] => none
  | leg :: rest => (lastAmount? counts rest).or (if counts leg then some leg.amount else none)

namespace Party

variable {p : Party} {legs : List Asset} {r r' : Record} {flags flags' : Flags}

/-- The amount of the last move of the pair's first asset. -/
def firstMoved? (p : Party) (legs : List Asset) : Option String :=
  lastAmount? (fun leg => leg.addr = p.pair.first) legs

/-- The amount of the last move of the pair's second asset. -/
def secondMoved? (p : Party) (legs : List Asset) : Option String :=
  lastAmount? (fun leg => leg.addr ≠ p.pair.first && leg.addr = p.pair.second) legs

/-- What becomes of the amount of a leg when `moved?` is the last move of its asset. -/
def Leaves (p : Party) (moved? : Option String) (before after : String) : Prop :=
  match moved? with
  | none => after = before
  | some amount => p.signed amount = .ok after

theorem Leaves.cons {moved? : Option String} {amount before between after : String}
    (h : p.Leaves moved? between after) (hleg : p.signed amount = .ok between) :
    p.Leaves (moved?.or (some amount)) before after := by
  cases moved? with
  | none =>
    have hafter : after = between := h
    exact hafter ▸ hleg
  | some _ => exact h

/-- **Placing legs changes the legs and the notes of a record only, and the last move of an asset
decides.** -/
theorem place_eq_ok (h : p.place legs r flags = (.ok r', flags')) :
    r'.kind = r.kind ∧ r'.contract = r.contract ∧ r'.shareAmount = r.shareAmount ∧
      p.Leaves (p.firstMoved? legs) r.legs.first.amount r'.legs.first.amount ∧
      p.Leaves (p.secondMoved? legs) r.legs.second.amount r'.legs.second.amount := by
  induction legs generalizing r flags with
  | nil =>
    obtain ⟨rfl, -⟩ := run_pure_eq_ok.1 h
    exact ⟨rfl, rfl, rfl, rfl, rfl⟩
  | cons leg rest ih =>
    rw [place] at h
    obtain ⟨amount, _, hlift, h⟩ := run_bind_eq_ok.1 h
    obtain ⟨hamount, rfl⟩ := run_lift_eq_ok.1 hlift
    by_cases hfirst : leg.addr = p.pair.first
    · rw [if_pos hfirst] at h
      obtain ⟨hkind, hcontract, hshare, hleg, hother⟩ := ih h
      refine ⟨hkind, hcontract, hshare, ?_, ?_⟩
      · simpa [firstMoved?, lastAmount?, hfirst] using hleg.cons hamount
      · simpa [secondMoved?, lastAmount?, hfirst] using hother
    · rw [if_neg hfirst] at h
      by_cases hsecond : leg.addr = p.pair.second
      · rw [if_pos hsecond] at h
        obtain ⟨hkind, hcontract, hshare, hother, hleg⟩ := ih h
        refine ⟨hkind, hcontract, hshare, ?_, ?_⟩
        · simpa [firstMoved?, lastAmount?, hfirst] using hother
        · have hne : ¬ p.pair.second = p.pair.first := hsecond ▸ hfirst
          simpa [secondMoved?, lastAmount?, hsecond, hne] using hleg.cons hamount
      · -- A foreign token flags the pair, and the legs stay as they are.
        rw [if_neg hsecond] at h
        obtain ⟨-, _, -, h⟩ := run_bind_eq_ok.1 h
        obtain ⟨hkind, hcontract, hshare, hleg, hother⟩ := ih h
        refine ⟨hkind, hcontract, hshare, ?_, ?_⟩
        · simpa [firstMoved?, lastAmount?, hfirst] using hleg
        · simpa [secondMoved?, lastAmount?, hfirst, hsecond] using hother

/-- Placing legs leaves the sender of a record alone, and the addresses of legs that
are those of the pair. -/
theorem place_addrs (h : p.place legs r flags = (.ok r', flags'))
    (hfirst : r.legs.first.addr = p.pair.first) (hsecond : r.legs.second.addr = p.pair.second) :
    r'.sender = r.sender ∧ r'.legs.first.addr = p.pair.first ∧
    r'.legs.second.addr = p.pair.second := by
  induction legs generalizing r flags with
  | nil =>
    obtain ⟨rfl, -⟩ := run_pure_eq_ok.1 h
    exact ⟨rfl, hfirst, hsecond⟩
  | cons leg rest ih =>
    rw [place] at h
    obtain ⟨amount, _, -, h⟩ := run_bind_eq_ok.1 h
    split_ifs at h with hleg hleg'
    · obtain ⟨hsender, haddrs⟩ := ih h hleg hsecond
      exact ⟨hsender, haddrs⟩
    · obtain ⟨hsender, haddrs⟩ := ih h hfirst hleg'
      exact ⟨hsender, haddrs⟩
    · obtain ⟨-, _, -, h⟩ := run_bind_eq_ok.1 h
      obtain ⟨hsender, haddrs⟩ := ih h hfirst hsecond
      exact ⟨hsender, haddrs⟩

/-- A single leg that is no asset of the pair touches neither side, and otherwise nothing is
noted but the recipient. -/
theorem place_singleton {leg : Asset} (h : p.place [leg] r flags = (.ok r', flags')) :
    r'.legs = r.legs ∨
      r'.notes = r.notes ∧ (leg.addr = p.pair.first ∧ r'.legs.second = r.legs.second ∨
        leg.addr = p.pair.second ∧ r'.legs.first = r.legs.first) := by
  rw [place] at h
  obtain ⟨amount, _, -, h⟩ := run_bind_eq_ok.1 h
  split_ifs at h with hfirst hsecond
  · obtain ⟨rfl, -⟩ := run_pure_eq_ok.1 h
    exact .inr ⟨rfl, .inl ⟨hfirst, rfl⟩⟩
  · obtain ⟨rfl, -⟩ := run_pure_eq_ok.1 h
    exact .inr ⟨rfl, .inr ⟨hsecond, rfl⟩⟩
  · obtain ⟨-, _, -, h⟩ := run_bind_eq_ok.1 h
    obtain ⟨rfl, -⟩ := run_pure_eq_ok.1 h
    exact .inl rfl

theorem record_eq_ok {sender recipient : String}
    (h : p.record sender recipient legs flags = (.ok r, flags')) :
    r.kind = .transfer ∧ r.contract = p.pair.contract ∧ r.shareAmount = "" ∧
      p.Leaves (p.firstMoved? legs) "" r.legs.first.amount ∧
      p.Leaves (p.secondMoved? legs) "" r.legs.second.amount :=
  place_eq_ok h

theorem record_addrs {sender recipient : String}
    (h : p.record sender recipient legs flags = (.ok r, flags')) :
    r.sender = sender ∧ r.legs.first.addr = p.pair.first ∧ r.legs.second.addr = p.pair.second :=
  place_addrs h rfl rfl

end Party

variable {registry : Registry} {attrs : List Attribute} {flags flags' : Flags} {r : Record}

/-- A token transfer that matters moves one leg, of the contract that logs it. -/
theorem TokenReader.read_eq_ok {reader : TokenReader}
    (h : reader.read registry attrs flags = (.ok (some r), flags')) :
    ∃ fields sender recipient party token amount, reader.fields attrs = .ok fields ∧
      fields.get? "from" = some sender ∧ fields.get? "to" = some recipient ∧
      registry.party sender recipient = .ok (some party) ∧
      fields.get? reader.layout.contractKey = some token ∧ fields.get? "amount" = some amount ∧
      party.record sender recipient [{ addr := token, amount }] flags = (.ok r, flags') := by
  simp only [read, run_bind_eq_ok, run_lift_eq_ok, Fields.value_eq_ok] at h
  obtain ⟨fields, _, ⟨hfields, rfl⟩, sender, _, ⟨hsender, rfl⟩, recipient, _, ⟨hrecipient, rfl⟩,
    party?, _, ⟨hparty, rfl⟩, h⟩ := h
  cases party? with
  | none => exact nomatch (run_pure_eq_ok.1 h).1
  | some party =>
    simp only [run_bind_eq_ok, run_lift_eq_ok, run_pure_eq_ok, Fields.value_eq_ok] at h
    obtain ⟨token, _, ⟨htoken, rfl⟩, amount, _, ⟨hamount, rfl⟩, r', _, hr, heq, rfl⟩ := h
    injection heq with heq
    subst heq
    exact ⟨fields, sender, recipient, party, token, amount, hfields, hsender, hrecipient, hparty,
      htoken, hamount, hr⟩

/-- A bank transfer that matters moves the coins that it lists. -/
theorem readBankTransfer_eq_ok {added : Int}
    (h : readBankTransfer added registry attrs flags = (.ok (some r), flags')) :
    ∃ fields sender recipient party text coins,
      Fields.read .bankTransfer RecordKind.transfer.name attrs = .ok fields ∧
      fields.get? "sender" = some sender ∧ fields.get? "recipient" = some recipient ∧
      registry.party sender recipient = .ok (some party) ∧ fields.get? "amount" = some text ∧
      Asset.ofCoins text = .ok coins ∧
      party.record sender recipient coins flags = (.ok r, flags') := by
  simp only [readBankTransfer, run_bind_eq_ok, run_lift_eq_ok, Fields.value_eq_ok] at h
  obtain ⟨-, _, ⟨-, rfl⟩, fields, _, ⟨hfields, rfl⟩, sender, _, ⟨hsender, rfl⟩, recipient, _,
    ⟨hrecipient, rfl⟩, party?, _, ⟨hparty, rfl⟩, h⟩ := h
  cases party? with
  | none => exact nomatch (run_pure_eq_ok.1 h).1
  | some party =>
    simp only [run_bind_eq_ok, run_lift_eq_ok, run_pure_eq_ok, Fields.value_eq_ok] at h
    obtain ⟨text, _, ⟨htext, rfl⟩, coins, _, ⟨hcoins, rfl⟩, r', _, hr, heq, rfl⟩ := h
    injection heq with heq
    subst heq
    exact ⟨fields, sender, recipient, party, text, coins, hfields, hsender, hrecipient, hparty,
      htext, hcoins, hr⟩

end PoolLedger
