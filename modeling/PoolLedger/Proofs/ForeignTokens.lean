import PoolLedger.Proofs.Block
import PoolLedger.Proofs.Duplicates

/-!
# Foreign tokens

A pair is flagged when a token that is none of its two assets comes in or goes out, in a transfer
whose other side is no pair (`Profile.MovesForeign`). If a transaction is read, it flags these pairs
and no others, whether or not the record of such a transfer is left out as a duplicate; if it fails,
it flags some of them, and what was flagged before stays flagged (`flags_exact`).

`FlagsOnly` says of a step which contracts it may flag, and that it flags all of these if it
succeeds. It goes through the steps of reading as they are composed, beginning with the legs of one
transfer (`flagsOnly_place`).
-/

namespace PoolLedger

/-- Whatever has been flagged, a step comes to the same; it flags only contracts with a property
and, if it succeeds, all of them. -/
structure FlagsOnly {α : Type} (S : String → Prop) (m : Flagging α) : Prop where
  marks : Marks m
  only : ∀ flags : Flags, ∀ c ∈ (m flags).2, c ∈ flags ∨ S c
  all : ∀ flags : Flags, ∀ a, (m flags).1 = .ok a → ∀ c, S c → c ∈ (m flags).2

namespace FlagsOnly

variable {α β ι : Type} {S T : String → Prop} {m : Flagging α} {k : α → Flagging β}

theorem congr (h : FlagsOnly S m) (heq : ∀ c, S c ↔ T c) : FlagsOnly T m :=
  (funext fun c => propext (heq c) : S = T) ▸ h

theorem pure (a : α) : FlagsOnly (fun _ => False) (pure a : Flagging α) where
  marks := .pure a
  only _ _ hc := .inl hc
  all _ _ _ _ := False.elim

theorem flag (contract : String) : FlagsOnly (· = contract) (flag contract) where
  marks := .flag contract
  only _ _ hc := Flags.mem_add.1 hc
  all _ _ _ _ hc := Flags.mem_add.2 (.inr hc)

theorem bind (hm : FlagsOnly S m) (hk : ∀ a, FlagsOnly T (k a)) :
    FlagsOnly (fun c => S c ∨ T c) (m >>= k) where
  marks := hm.marks.bind fun a => (hk a).marks
  only flags c hc := by
    have honly := hm.only flags c
    rw [run_bind] at hc
    rcases hrun : m flags with ⟨e | a, between⟩ <;> rw [hrun] at hc honly
    · exact (honly hc).imp_right .inl
    · rcases (hk a).only between c hc with hc | hc
      · exact (honly hc).imp_right .inl
      · exact .inr (.inr hc)
  all flags b hb c hc := by
    have hall := hm.all flags
    rw [run_bind] at hb ⊢
    rcases hrun : m flags with ⟨e | a, between⟩ <;> rw [hrun] at hb hall
    · cases hb
    · rcases hc with hc | hc
      · exact (hk a).marks.kept (hall a rfl c hc)
      · exact (hk a).all between b hb c hc

theorem lift_bind {x : Except ReadError α} (hk : ∀ a, x = .ok a → FlagsOnly S (k a)) :
    FlagsOnly S (liftM x >>= k) := by
  cases x with
  | error e => exact ⟨⟨.error e, [], fun _ => rfl⟩, fun _ _ hc => .inl hc, nofun⟩
  | ok a =>
    have hrun : (liftM (Except.ok a : Except ReadError α) >>= k : Flagging β) = k a :=
      funext fun flags => by
        rw [run_bind]
        rfl
    rw [hrun]
    exact hk a rfl

theorem mapM {S : ι → String → Prop} {k : ι → Flagging β} (hk : ∀ i, FlagsOnly (S i) (k i))
    (l : List ι) :
    FlagsOnly (fun c => ∃ i ∈ l, S i c) (l.mapM k) := by
  induction l with
  | nil =>
    rw [List.mapM_nil]
    exact (pure _).congr (by simp)
  | cons i l ih =>
    rw [List.mapM_cons]
    refine ((hk i).bind fun b => ih.bind fun bs => pure (b :: bs)).congr fun c => ?_
    simp

end FlagsOnly

/-! ## Transfers -/

/-- A transfer of some legs brings a token that is none of its assets into or out of the pair with a
contract, and the other side is no registered pair. -/
def Registry.Foreign (registry : Registry) (sender recipient : String) (legs : List Asset)
    (contract : String) : Prop :=
  ∃ pair, registry.get? contract = some pair ∧
    (sender = contract ∧ recipient ∉ registry.contracts ∨
      recipient = contract ∧ sender ∉ registry.contracts) ∧
    ∃ leg ∈ legs, leg.addr ≠ pair.first ∧ leg.addr ≠ pair.second

theorem Registry.not_foreign_of_party {registry : Registry} {sender recipient : String}
    (h : registry.party sender recipient = .ok none) (legs : List Asset) (c : String) :
    ¬ registry.Foreign sender recipient legs c := by
  rintro ⟨pair, hpair, hsides, -⟩
  unfold party at h
  split at h
  · cases h
  · cases h
  · cases h
  · rename_i hsender hrecipient
    rcases hsides with ⟨rfl, -⟩ | ⟨rfl, -⟩
    · rw [hsender] at hpair
      cases hpair
    · rw [hrecipient] at hpair
      cases hpair

theorem Registry.foreign_of_party {registry : Registry} {sender recipient : String} {party : Party}
    (h : registry.party sender recipient = .ok (some party)) (legs : List Asset) (c : String) :
    registry.Foreign sender recipient legs c ↔
      c = party.pair.contract ∧
        ∃ leg ∈ legs, leg.addr ≠ party.pair.first ∧ leg.addr ≠ party.pair.second := by
  obtain ⟨hpair, hother⟩ := party_eq_some h
  have hcontract := (get?_eq_some hpair).1
  rw [get?_eq_none] at hother
  constructor
  · rintro ⟨pair, hget, hsides, hlegs⟩
    -- The other side is no pair, so the contract is that of the party.
    have hc : (if party.outflow then sender else recipient) = c := by
      have hknown : c ∈ registry.contracts := (get?_eq_some hget).1 ▸ mem_contracts_of_get? hget
      rcases hsides with ⟨rfl, -⟩ | ⟨rfl, -⟩
      · by_contra hne
        simp only [ite_eq_left_iff, not_forall] at hne
        obtain ⟨hinflow, -⟩ := hne
        rw [if_neg hinflow] at hother
        exact hother hknown
      · by_contra hne
        simp only [ite_eq_right_iff, not_forall] at hne
        obtain ⟨houtflow, -⟩ := hne
        rw [if_pos houtflow] at hother
        exact hother hknown
    rw [hc, hget] at hpair
    obtain rfl := Option.some.inj hpair
    exact ⟨(hcontract.trans hc).symm, hlegs⟩
  · rintro ⟨rfl, hlegs⟩
    rw [← hcontract] at hpair
    refine ⟨party.pair, hpair, ?_, hlegs⟩
    cases houtflow : party.outflow <;> simp [houtflow] at hcontract hother
    · exact .inr ⟨hcontract.symm, hother⟩
    · exact .inl ⟨hcontract.symm, hother⟩

theorem flagsOnly_place (party : Party) (legs : List Asset) (r : Record) :
    FlagsOnly (fun c => c = party.pair.contract ∧
      ∃ leg ∈ legs, leg.addr ≠ party.pair.first ∧ leg.addr ≠ party.pair.second)
      (party.place legs r) := by
  induction legs generalizing r with
  | nil => exact (FlagsOnly.pure r).congr (by simp)
  | cons leg rest ih =>
    rw [Party.place]
    refine FlagsOnly.lift_bind fun amount _ => ?_
    split_ifs with hfirst hsecond
    · exact (ih _).congr (by simp [hfirst])
    · exact (ih _).congr (by simp [hsecond])
    · refine ((FlagsOnly.flag _).bind fun _ => ih _).congr fun c => ?_
      simp only [List.exists_mem_cons_iff]
      tauto

theorem flagsOnly_record {registry : Registry} {sender recipient : String} {party : Party}
    (h : registry.party sender recipient = .ok (some party)) (legs : List Asset) :
    FlagsOnly (registry.Foreign sender recipient legs) (party.record sender recipient legs) :=
  (flagsOnly_place party legs _).congr fun c => (Registry.foreign_of_party h legs c).symm

/-- What a token transfer in good shape moves. -/
def TokenReader.Moves (reader : TokenReader) (attrs : List Attribute) (sender recipient : String)
    (legs : List Asset) : Prop :=
  ∃ fields token amount, reader.fields attrs = .ok fields ∧ fields.get? "from" = some sender ∧
    fields.get? "to" = some recipient ∧ fields.get? reader.layout.contractKey = some token ∧
    fields.get? "amount" = some amount ∧ legs = [{ addr := token, amount }]

/-- What a bank transfer moves. -/
def BankMoves (attrs : List Attribute) (sender recipient : String) (legs : List Asset) : Prop :=
  ∃ fields text, Fields.read .bankTransfer RecordKind.transfer.name attrs = .ok fields ∧
    fields.get? "sender" = some sender ∧ fields.get? "recipient" = some recipient ∧
    fields.get? "amount" = some text ∧ Asset.ofCoins text = .ok legs

theorem flagsOnly_readToken (reader : TokenReader) (registry : Registry) (attrs : List Attribute) :
    FlagsOnly (fun c => ∃ sender recipient legs, reader.Moves attrs sender recipient legs ∧
      registry.Foreign sender recipient legs c) (reader.read registry attrs) := by
  refine FlagsOnly.lift_bind fun fields hfields => FlagsOnly.lift_bind fun sender hsender =>
    FlagsOnly.lift_bind fun recipient hrecipient => FlagsOnly.lift_bind fun party? hparty => ?_
  rw [Fields.value_eq_ok] at hsender hrecipient
  cases party? with
  | none =>
    refine (FlagsOnly.pure none).congr fun c => ?_
    simp [TokenReader.Moves, hfields, hsender, hrecipient, Registry.not_foreign_of_party hparty]
  | some party =>
    refine FlagsOnly.lift_bind fun token htoken => FlagsOnly.lift_bind fun amount hamount => ?_
    rw [Fields.value_eq_ok] at htoken hamount
    refine ((flagsOnly_record hparty _).bind fun r => FlagsOnly.pure (some r)).congr fun c => ?_
    simp [TokenReader.Moves, hfields, hsender, hrecipient, htoken, hamount]

theorem flagsOnly_readBankTransfer (added : Int) (registry : Registry) (attrs : List Attribute) :
    FlagsOnly (fun c => ∃ sender recipient legs, BankMoves attrs sender recipient legs ∧
      registry.Foreign sender recipient legs c) (readBankTransfer added registry attrs) := by
  refine FlagsOnly.lift_bind fun _ _ => FlagsOnly.lift_bind fun fields hfields =>
    FlagsOnly.lift_bind fun sender hsender => FlagsOnly.lift_bind fun recipient hrecipient =>
    FlagsOnly.lift_bind fun party? hparty => ?_
  rw [Fields.value_eq_ok] at hsender hrecipient
  cases party? with
  | none =>
    refine (FlagsOnly.pure none).congr fun c => ?_
    simp [BankMoves, hfields, hsender, hrecipient, Registry.not_foreign_of_party hparty]
  | some party =>
    refine FlagsOnly.lift_bind fun text htext => FlagsOnly.lift_bind fun coins hcoins => ?_
    rw [Fields.value_eq_ok] at htext
    refine ((flagsOnly_record hparty coins).bind fun r => FlagsOnly.pure (some r)).congr fun c => ?_
    simp [BankMoves, hfields, hsender, hrecipient, htext, hcoins]

/-! ## Transactions -/

namespace Profile

variable {p : Profile} {height : Int} {registry : Registry} {tx : RawTx}

theorem moves_iff {sender recipient : String} {legs : List Asset} :
    p.Moves height tx sender recipient legs ↔
      (∃ attrs ∈ p.tokenRule.findIn tx.entries,
          (p.tokenReader height).Moves attrs sender recipient legs) ∨
        ∃ attrs ∈ p.bankRule.findIn (tx.entries.map p.prepare),
          BankMoves attrs sender recipient legs := by
  constructor
  · rintro (⟨hattrs, hfields, hsender, hrecipient, htoken, hamount⟩ |
      ⟨hattrs, hfields, hsender, hrecipient, htext, hcoins⟩)
    · exact .inl ⟨_, hattrs, _, _, _, hfields, hsender, hrecipient, htoken, hamount, rfl⟩
    · exact .inr ⟨_, hattrs, _, _, hfields, hsender, hrecipient, htext, hcoins⟩
  · rintro (⟨attrs, hattrs, fields, token, amount, hfields, hsender, hrecipient, htoken, hamount,
      rfl⟩ |
      ⟨attrs, hattrs, fields, text, hfields, hsender, hrecipient, htext, hcoins⟩)
    · exact .token hattrs hfields hsender hrecipient htoken hamount
    · exact .coins hattrs hfields hsender hrecipient htext hcoins

/-- A transaction moves a token that is none of its assets into or out of the pair with a
contract. -/
def MovesForeign (p : Profile) (height : Int) (registry : Registry) (tx : RawTx)
    (contract : String) :
    Prop :=
  ∃ sender recipient legs, p.Moves height tx sender recipient legs ∧
    registry.Foreign sender recipient legs contract

theorem MovesForeign.mem_contracts {c : String} (h : p.MovesForeign height registry tx c) :
    c ∈ registry.contracts := by
  obtain ⟨_, _, _, -, pair, hget, -⟩ := h
  exact (Registry.get?_eq_some hget).1 ▸ Registry.mem_contracts_of_get? hget

theorem movesForeign_iff {c : String} :
    p.MovesForeign height registry tx c ↔
      (∃ attrs ∈ p.tokenRule.findIn tx.entries, ∃ sender recipient legs,
          (p.tokenReader height).Moves attrs sender recipient legs ∧
            registry.Foreign sender recipient legs c) ∨
        ∃ attrs ∈ p.bankRule.findIn (tx.entries.map p.prepare), ∃ sender recipient legs,
          BankMoves attrs sender recipient legs ∧ registry.Foreign sender recipient legs c := by
  simp only [MovesForeign, moves_iff, or_and_right, exists_or]
  constructor
  · rintro (⟨sender, recipient, legs, ⟨attrs, hattrs, hmoves⟩, hforeign⟩ |
      ⟨sender, recipient, legs, ⟨attrs, hattrs, hmoves⟩, hforeign⟩)
    · exact .inl ⟨attrs, hattrs, sender, recipient, legs, hmoves, hforeign⟩
    · exact .inr ⟨attrs, hattrs, sender, recipient, legs, hmoves, hforeign⟩
  · rintro (⟨attrs, hattrs, sender, recipient, legs, hmoves, hforeign⟩ |
      ⟨attrs, hattrs, sender, recipient, legs, hmoves, hforeign⟩)
    · exact .inl ⟨sender, recipient, legs, ⟨attrs, hattrs, hmoves⟩, hforeign⟩
    · exact .inr ⟨sender, recipient, legs, ⟨attrs, hattrs, hmoves⟩, hforeign⟩

theorem movesForeign_cons (p : Profile) (height : Int) (registry : Registry) (tx : RawTx)
    (e : Entry) (rest : List Entry) (c : String) :
    p.MovesForeign height registry { tx with entries := e :: rest } c ↔
      p.MovesForeign height registry { tx with entries := [e] } c ∨
        p.MovesForeign height registry { tx with entries := rest } c := by
  simp only [movesForeign_iff, List.map_cons, List.map_nil]
  rw [Rule.findIn_cons _ e, Rule.findIn_cons _ (p.prepare e)]
  simp only [List.mem_append, or_and_right, exists_or]
  exact or_or_or_comm

theorem flagsOnly_findings (p : Profile) (height : Int) (registry : Registry) (tx : RawTx)
    (e : Entry) :
    FlagsOnly (p.MovesForeign height registry { tx with entries := [e] })
      (p.findings height registry tx e) := by
  have htokens : FlagsOnly _ (p.tokenTransfers height registry tx [e]) :=
    (FlagsOnly.mapM (flagsOnly_readToken (p.tokenReader height) registry) _).bind fun _ => .pure _
  have hcoins : FlagsOnly _ (p.bankTransfers registry tx [p.prepare e]) :=
    (FlagsOnly.mapM (flagsOnly_readBankTransfer 0 registry) _).bind fun _ => .pure _
  refine FlagsOnly.lift_bind fun actions _ => FlagsOnly.lift_bind fun minted _ => ?_
  refine (htokens.bind fun tokens => hcoins.bind fun coins => FlagsOnly.pure _).congr fun c => ?_
  simp only [or_false]
  rw [movesForeign_iff, List.map_singleton]

theorem flagsOnly_allFindings (p : Profile) (height : Int) (registry : Registry) (tx : RawTx)
    (entries : List Entry) :
    FlagsOnly (p.MovesForeign height registry { tx with entries })
      (p.allFindings height registry tx entries) := by
  induction entries with
  | nil =>
    refine (FlagsOnly.pure ({} : Findings)).congr fun c => ?_
    simp [movesForeign_iff, Rule.findIn]
  | cons e rest ih =>
    have hmore : FlagsOnly _ (p.allFindings height registry tx (e :: rest)) :=
      (flagsOnly_findings p height registry tx e).bind fun _ => ih.bind fun _ => FlagsOnly.pure _
    exact hmore.congr fun c => by rw [movesForeign_cons p height registry tx e rest, or_false]

/-- **A transaction flags the pairs that a foreign token comes into or leaves.** If it fails, it may
flag only some of these, and what is flagged stays flagged. What comes of it, and what it registers,
does not depend on the flags. -/
theorem flags_exact (p : Profile) (height : Int) (tx : RawTx) (known : Knowledge) :
    (∀ records, (p.extract height tx known).1 = .ok records →
        ∀ c, c ∈ (p.extract height tx known).2.flags ↔
          c ∈ known.flags ∨ p.MovesForeign height (p.extract height tx known).2.registry tx c) ∧
      (∀ c ∈ known.flags, c ∈ (p.extract height tx known).2.flags) ∧
      (∀ c ∈ (p.extract height tx known).2.flags, c ∈ known.flags ∨
        c ∈ (p.extract height tx known).2.registry.contracts ∧
          p.MovesForeign height (p.extract height tx known).2.registry tx c) ∧
      ∀ flags, (p.extract height tx { known with flags }).1 = (p.extract height tx known).1 ∧
        (p.extract height tx { known with flags }).2.registry =
          (p.extract height tx known).2.registry := by
  have hindependent (flags : Flags) :=
    extract_congr p height tx (a := { known with flags }) (b := known) rfl
  -- A creation that cannot be read fails before any transfer is looked at.
  cases hcreations : p.creations tx tx.entries with
  | error e =>
    have hextract : p.extract height tx known = (.error e, known) := by
      rw [extract, hcreations]
    rw [hextract] at hindependent ⊢
    refine ⟨fun records hrecords => ?_, fun c hc => hc, fun c hc => .inl hc, hindependent⟩
    cases hrecords
  | ok created =>
    have hflags := flagsOnly_allFindings p height (known.registry.afterCreations created) tx
      tx.entries
    have hextract : p.extract height tx known =
        ((p.allFindings height (known.registry.afterCreations created) tx tx.entries
          known.flags).1.map
            fun found => created.map (fun r => { r with sender := tx.sender }) ++
              found.records tx.sender,
          { registry := known.registry.afterCreations created
            flags := (p.allFindings height (known.registry.afterCreations created) tx tx.entries
              known.flags).2 }) := by
      rw [extract, hcreations]
      rfl
    rw [hextract] at hindependent ⊢
    refine ⟨fun records hrecords c => ⟨hflags.only _ c, ?_⟩, fun c => hflags.marks.kept,
      fun c hc => ?_, hindependent⟩
    · obtain ⟨found, hfound, -⟩ := map_eq_ok.1 hrecords
      exact fun hc => hc.elim hflags.marks.kept (hflags.all _ found hfound c)
    · exact (hflags.only _ c hc).imp_right fun hmoves => ⟨hmoves.mem_contracts, hmoves⟩

end Profile

/-! A coin that the pair does not hold pays for a swap: the transfer is left out, and the pair is
flagged. -/

theorem overpaidTx_flags :
    (phoenixProfile.extract 1 overpaidTx coinPair).1 = .ok overpaidRecords ∧
      (phoenixProfile.extract 1 overpaidTx coinPair).2.flags = ["terra1pair"] ∧
      ∀ c, c = "terra1pair" ↔ c ∈ coinPair.flags ∨
        phoenixProfile.MovesForeign 1 (phoenixProfile.extract 1 overpaidTx coinPair).2.registry
          overpaidTx c := by
  have hrecords : (phoenixProfile.extract 1 overpaidTx coinPair).1 = .ok overpaidRecords := by
    decide +kernel
  have hflags : (phoenixProfile.extract 1 overpaidTx coinPair).2.flags = ["terra1pair"] := by
    decide +kernel
  refine ⟨hrecords, hflags, fun c => ?_⟩
  rw [← (phoenixProfile.flags_exact 1 overpaidTx coinPair).1 overpaidRecords hrecords c, hflags,
    List.mem_singleton]

end PoolLedger
