import PoolLedger.Proofs.Duplicates
import PoolLedger.Proofs.Flags

/-!
# Interleavings

A transaction lists its contract events and its bank transfers in one sequence. What is extracted
from it depends on the order of the contract events and on that of the bank transfers, but not on
how the two are interleaved, nor on entries of other types (`extract_interleaved`).

For the findings in an entry of either type are of the kinds of that type alone, so the
findings in all entries are those in the contract events followed by those in the bank
transfers (`findings_apart`). Which pairs are flagged is a set: the flags come in another
order when the entries do.
-/

namespace PoolLedger

/-! ## Steps that give a value, and steps that fail -/

section

variable {α β : Type} {m : Flagging α} {k : α → Flagging β} {a a' : α} {b : β}
  {contracts contracts' : List String}

/-- Whatever has been flagged, the step gives the value and flags the pairs. -/
def Gives (m : Flagging α) (a : α) (contracts : List String) : Prop :=
  ∀ flags : Flags, m flags = (.ok a, flags.addAll contracts)

/-- Whatever has been flagged, the step fails. -/
def Refuses (m : Flagging α) : Prop :=
  ∀ flags : Flags, ∃ e flags', m flags = (.error e, flags')

theorem Marks.gives_or_refuses (h : Marks m) :
    (∃ a contracts, Gives m a contracts) ∨ Refuses m := by
  obtain ⟨outcome, contracts, h⟩ := h
  cases outcome with
  | error e => exact .inr fun flags => ⟨e, _, h flags⟩
  | ok a => exact .inl ⟨a, contracts, h⟩

theorem Gives.not_refuses (h : Gives m a contracts) : ¬Refuses m := by
  intro hrefuses
  obtain ⟨e, flags', hrun⟩ := hrefuses []
  exact nomatch (congrArg Prod.fst ((h []).symm.trans hrun) :)

/-- The value is determined, and so is the set of the flagged pairs. -/
theorem Gives.unique (h : Gives m a contracts) (h' : Gives m a' contracts') :
    a = a' ∧ ∀ c, c ∈ contracts ↔ c ∈ contracts' := by
  have hrun := (h []).symm.trans (h' [])
  refine ⟨Except.ok.inj (congrArg Prod.fst hrun), fun c => ?_⟩
  have hflags : Flags.addAll [] contracts = Flags.addAll [] contracts' := congrArg Prod.snd hrun
  simpa [Flags.mem_addAll] using (congrArg (c ∈ ·) hflags).to_iff

theorem Gives.pure (a : α) : Gives (pure a) a [] := fun _ => rfl

theorem Gives.bind (hm : Gives m a contracts) (hk : Gives (k a) b contracts') :
    Gives (m >>= k) b (contracts ++ contracts') := by
  intro flags
  rw [run_bind, hm, Flags.addAll_append]
  exact hk _

theorem Refuses.bind (hm : Refuses m) : Refuses (m >>= k) := by
  intro flags
  obtain ⟨e, flags', hrun⟩ := hm flags
  exact ⟨e, flags', by rw [run_bind, hrun]⟩

theorem Gives.bind_refuses (hm : Gives m a contracts) (hk : Refuses (k a)) : Refuses (m >>= k) := by
  intro flags
  obtain ⟨e, flags', hrun⟩ := hk (flags.addAll contracts)
  exact ⟨e, flags', by rw [run_bind, hm]; exact hrun⟩

end

/-! ## The entries of one type -/

def entriesOfKind (kind : String) (entries : List Entry) : List Entry :=
  entries.filter (·.kind == kind)

theorem entriesOfKind_cons_eq {kind : String} {e : Entry} (h : e.kind = kind)
    (entries : List Entry) :
    entriesOfKind kind (e :: entries) = e :: entriesOfKind kind entries :=
  List.filter_cons_of_pos (beq_iff_eq.2 h)

theorem entriesOfKind_cons_ne {kind : String} {e : Entry} (h : e.kind ≠ kind)
    (entries : List Entry) :
    entriesOfKind kind (e :: entries) = entriesOfKind kind entries :=
  List.filter_cons_of_neg (mt beq_iff_eq.1 h)

theorem Rule.findIn_congr {r : Rule} {entries entries' : List Entry}
    (h : entriesOfKind r.kind entries = entriesOfKind r.kind entries') :
    r.findIn entries = r.findIn entries' := by
  show (entriesOfKind r.kind entries).flatMap _ = (entriesOfKind r.kind entries').flatMap _
  rw [h]

theorem Rule.findIn_singleton_of_kind_ne {r : Rule} {e : Entry} (h : e.kind ≠ r.kind) :
    r.findIn [e] = [] := by
  have hnone : r.findIn [e] = r.findIn [] := Rule.findIn_congr (entriesOfKind_cons_ne h [])
  rw [hnone]
  rfl

theorem Rule.findIn_singleton_of_kind {r : Rule} {e : Entry} (h : e.kind = r.kind) :
    r.findIn [e] = r.find e.attributes := by
  simp [Rule.findIn, h]

/-! ## The findings in one entry -/

namespace Findings

/-- The findings are those of contract events. -/
def OfEvents (f : Findings) : Prop :=
  f.bankTransfers = []

/-- The findings are those of bank transfers. -/
def OfTransfers (f : Findings) : Prop :=
  f.actions = [] ∧ f.tokenTransfers = []

variable {a b c : Findings}

theorem append_assoc : (a.append b).append c = a.append (b.append c) := by
  simp only [append, List.append_assoc]

theorem empty_append : append {} a = a := rfl

theorem OfEvents.append (ha : a.OfEvents) (hb : b.OfEvents) : (a.append b).OfEvents :=
  List.append_eq_nil_iff.2 ⟨ha, hb⟩

theorem OfTransfers.append (ha : a.OfTransfers) (hb : b.OfTransfers) : (a.append b).OfTransfers :=
  ⟨List.append_eq_nil_iff.2 ⟨ha.1, hb.1⟩, List.append_eq_nil_iff.2 ⟨ha.2, hb.2⟩⟩

theorem OfTransfers.append_left_comm (ha : a.OfTransfers) (hb : b.OfEvents) (c : Findings) :
    a.append (b.append c) = b.append (a.append c) := by
  simp only [Findings.append, ha.1, ha.2, show b.bankTransfers = [] from hb, List.nil_append]

end Findings

namespace Profile

variable {p : Profile} {height : Int} {registry : Registry} {tx : RawTx} {e : Entry}
  {found : Findings} {flags flags' : Flags}

theorem bankRule_kind : p.bankRule.kind = EventType.transfer.name := by
  unfold bankRule
  split <;> rfl

theorem kind_prepare (e : Entry) : (p.prepare e).kind = e.kind := by
  unfold prepare
  split
  · split <;> rfl
  · rfl

theorem eventKind_ne_transfer : p.eventKind ≠ EventType.transfer.name := by
  unfold eventKind Deployment.eventType
  split <;> decide

/-- First provisions are looked for in contract events only. -/
theorem minted_of_findIn_eq_nil
    (h : p.deployment.hasFirstProvide → (Rule.firstProvide registry.contracts).findIn [e] = [])
    (actions : List Record) : p.minted registry tx e actions = .ok [] := by
  unfold minted firstProvides?
  by_cases hhas : p.deployment.hasFirstProvide
  · rw [if_pos hhas, h hhas]
    dsimp only
    split <;> rfl
  · rw [if_neg hhas]
    rfl

theorem minted_of_kind_ne (h : e.kind ≠ p.eventKind) (actions : List Record) :
    p.minted registry tx e actions = .ok [] := by
  refine minted_of_findIn_eq_nil (fun hhas => ?_) actions
  have hkind : p.eventKind = EventType.wasm.name := by
    unfold eventKind
    cases hd : p.deployment with
    | columbusFour => exact absurd (hd ▸ hhas) (by decide)
    | _ => rfl
  exact Rule.findIn_singleton_of_kind_ne fun heq => h (heq.trans hkind.symm)

theorem pairActions_of_kind_ne (h : e.kind ≠ p.eventKind) :
    p.pairActions height registry tx [e] = .ok [] := by
  have hnone : (p.pairRule registry.contracts).findIn [e] = [] := Rule.findIn_singleton_of_kind_ne h
  rw [pairActions, hnone]
  rfl

theorem gives_tokenTransfers_of_kind_ne (h : e.kind ≠ p.eventKind) :
    Gives (p.tokenTransfers height registry tx [e]) [] [] := by
  have hnone : p.tokenRule.findIn [e] = [] := Rule.findIn_singleton_of_kind_ne h
  rw [tokenTransfers, hnone]
  exact fun _ => rfl

theorem gives_bankTransfers_of_kind_ne (h : e.kind ≠ EventType.transfer.name) :
    Gives (p.bankTransfers registry tx [p.prepare e]) [] [] := by
  have hnone : p.bankRule.findIn [p.prepare e] = [] :=
    Rule.findIn_singleton_of_kind_ne (by rwa [kind_prepare, bankRule_kind])
  rw [bankTransfers, hnone]
  exact fun _ => rfl

theorem ofTransfers_of_findings (h : e.kind ≠ p.eventKind)
    (hrun : p.findings height registry tx e flags = (.ok found, flags')) : found.OfTransfers := by
  simp only [findings, run_bind_eq_ok, run_lift_eq_ok, run_pure_eq_ok] at hrun
  obtain ⟨actions, _, ⟨hactions, rfl⟩, minted, _, ⟨hminted, rfl⟩, tokens, _, htokens, coins, _, -,
    rfl, -⟩ := hrun
  obtain rfl := Except.ok.inj ((pairActions_of_kind_ne h).symm.trans hactions)
  obtain rfl := Except.ok.inj ((minted_of_kind_ne h _).symm.trans hminted)
  have htokens' := (gives_tokenTransfers_of_kind_ne h _).symm.trans htokens
  exact ⟨rfl, (Except.ok.inj (congrArg Prod.fst htokens')).symm⟩

theorem ofEvents_of_findings (h : e.kind ≠ EventType.transfer.name)
    (hrun : p.findings height registry tx e flags = (.ok found, flags')) : found.OfEvents := by
  simp only [findings, run_bind_eq_ok, run_lift_eq_ok, run_pure_eq_ok] at hrun
  obtain ⟨actions, _, -, minted, _, -, tokens, _, -, coins, _, hcoins, rfl, -⟩ := hrun
  have hcoins' := (gives_bankTransfers_of_kind_ne h _).symm.trans hcoins
  exact (Except.ok.inj (congrArg Prod.fst hcoins')).symm

theorem gives_findings_of_kind_ne (hevent : e.kind ≠ p.eventKind)
    (htransfer : e.kind ≠ EventType.transfer.name) :
    Gives (p.findings height registry tx e) {} [] := by
  unfold findings
  rw [pairActions_of_kind_ne hevent]
  refine (Gives.pure []).bind ?_
  rw [minted_of_kind_ne hevent]
  refine (Gives.pure []).bind ((gives_tokenTransfers_of_kind_ne hevent).bind ?_)
  exact (gives_bankTransfers_of_kind_ne htransfer).bind (.pure _)

/-! ## The findings in all entries -/

section

variable {rest : List Entry} {more : Findings} {contracts contracts' : List String}

theorem gives_allFindings_cons (h : Gives (p.findings height registry tx e) found contracts)
    (hrest : Gives (p.allFindings height registry tx rest) more contracts') :
    Gives (p.allFindings height registry tx (e :: rest)) (found.append more)
      (contracts ++ (contracts' ++ [])) :=
  h.bind (hrest.bind (.pure _))

theorem refuses_allFindings_cons (h : Refuses (p.findings height registry tx e)) :
    Refuses (p.allFindings height registry tx (e :: rest)) :=
  h.bind

theorem refuses_allFindings_cons_of_rest (hrest : Refuses (p.allFindings height registry tx rest)) :
    Refuses (p.allFindings height registry tx (e :: rest)) := by
  rcases (marks_findings p height registry tx e).gives_or_refuses with ⟨_, _, h⟩ | h
  · exact h.bind_refuses hrest.bind
  · exact h.bind

end

/-- The findings in some entries are those in their contract events followed by those in their bank
transfers, and the same pairs are flagged. -/
def Apart (p : Profile) (height : Int) (registry : Registry) (tx : RawTx)
    (entries : List Entry) : Prop :=
  ∃ events transfers cs cs' cs'', events.OfEvents ∧ transfers.OfTransfers ∧
    Gives (p.allFindings height registry tx (entriesOfKind p.eventKind entries)) events cs ∧
    Gives (p.allFindings height registry tx (entriesOfKind EventType.transfer.name entries))
      transfers
      cs' ∧
    Gives (p.allFindings height registry tx entries) (events.append transfers) cs'' ∧
    ∀ c, c ∈ cs'' ↔ c ∈ cs ∨ c ∈ cs'

/-- Some entries are refused, and so are their contract events or their bank transfers. -/
def RefusedApart (p : Profile) (height : Int) (registry : Registry) (tx : RawTx)
    (entries : List Entry) : Prop :=
  Refuses (p.allFindings height registry tx entries) ∧
    (Refuses (p.allFindings height registry tx (entriesOfKind p.eventKind entries)) ∨
      Refuses (p.allFindings height registry tx (entriesOfKind EventType.transfer.name entries)))

section

variable {rest : List Entry}

/-- A contract event comes before all findings of the rest. -/
theorem apart_cons_event (h : e.kind = p.eventKind)
    (ih : p.Apart height registry tx rest ∨ p.RefusedApart height registry tx rest) :
    p.Apart height registry tx (e :: rest) ∨ p.RefusedApart height registry tx (e :: rest) := by
  have htransfer : e.kind ≠ EventType.transfer.name := h ▸ eventKind_ne_transfer
  unfold Apart RefusedApart
  rw [entriesOfKind_cons_eq h, entriesOfKind_cons_ne htransfer]
  rcases (marks_findings p height registry tx e).gives_or_refuses with ⟨here, cs₀, hhere⟩ | hhere
  · rcases ih with
        ⟨events, transfers, cs, cs', cs'', hevents, htransfers, he, ht, hall, hcs⟩ | ⟨hall, h⟩
    · have hofEvents := ofEvents_of_findings htransfer (hhere [])
      have hcons := gives_allFindings_cons hhere hall
      rw [← Findings.append_assoc] at hcons
      exact .inl ⟨here.append events, transfers, _, _, _, hofEvents.append hevents, htransfers,
        gives_allFindings_cons hhere he, ht, hcons, by simp [hcs, or_assoc]⟩
    · exact .inr ⟨refuses_allFindings_cons_of_rest hall,
        h.imp_left refuses_allFindings_cons_of_rest⟩
  · exact .inr ⟨refuses_allFindings_cons hhere, .inl (refuses_allFindings_cons hhere)⟩

/-- A bank transfer changes places with the contract events of the rest. -/
theorem apart_cons_transfer (h : e.kind = EventType.transfer.name)
    (ih : p.Apart height registry tx rest ∨ p.RefusedApart height registry tx rest) :
    p.Apart height registry tx (e :: rest) ∨ p.RefusedApart height registry tx (e :: rest) := by
  have hevent : e.kind ≠ p.eventKind := h ▸ eventKind_ne_transfer.symm
  unfold Apart RefusedApart
  rw [entriesOfKind_cons_ne hevent, entriesOfKind_cons_eq h]
  rcases (marks_findings p height registry tx e).gives_or_refuses with ⟨here, cs₀, hhere⟩ | hhere
  · rcases ih with
        ⟨events, transfers, cs, cs', cs'', hevents, htransfers, he, ht, hall, hcs⟩ | ⟨hall, h⟩
    · have hofTransfers := ofTransfers_of_findings hevent (hhere [])
      have hcons := gives_allFindings_cons hhere hall
      rw [hofTransfers.append_left_comm hevents] at hcons
      exact .inl ⟨events, here.append transfers, _, _, _, hevents,
        hofTransfers.append htransfers, he, gives_allFindings_cons hhere ht, hcons,
        by simp [hcs, or_left_comm]⟩
    · exact .inr ⟨refuses_allFindings_cons_of_rest hall,
        h.imp_right refuses_allFindings_cons_of_rest⟩
  · exact .inr ⟨refuses_allFindings_cons hhere, .inr (refuses_allFindings_cons hhere)⟩

theorem apart_cons_other (hevent : e.kind ≠ p.eventKind)
    (htransfer : e.kind ≠ EventType.transfer.name)
    (ih : p.Apart height registry tx rest ∨ p.RefusedApart height registry tx rest) :
    p.Apart height registry tx (e :: rest) ∨ p.RefusedApart height registry tx (e :: rest) := by
  unfold Apart RefusedApart
  rw [entriesOfKind_cons_ne hevent, entriesOfKind_cons_ne htransfer]
  rcases ih with
      ⟨events, transfers, cs, cs', cs'', hevents, htransfers, he, ht, hall, hcs⟩ | ⟨hall, h⟩
  · have hcons := gives_allFindings_cons (gives_findings_of_kind_ne hevent htransfer) hall
    rw [Findings.empty_append] at hcons
    exact .inl ⟨events, transfers, _, _, _, hevents, htransfers, he, ht, hcons, by simp [hcs]⟩
  · exact .inr ⟨refuses_allFindings_cons_of_rest hall, h⟩

end

theorem findings_apart (p : Profile) (height : Int) (registry : Registry) (tx : RawTx)
    (entries : List Entry) :
    p.Apart height registry tx entries ∨ p.RefusedApart height registry tx entries := by
  induction entries with
  | nil => exact .inl ⟨{}, {}, [], [], [], rfl, ⟨rfl, rfl⟩, .pure _, .pure _, .pure _, by simp⟩
  | cons e rest ih =>
    by_cases hevent : e.kind = p.eventKind
    · exact apart_cons_event hevent ih
    · by_cases htransfer : e.kind = EventType.transfer.name
      · exact apart_cons_transfer htransfer ih
      · exact apart_cons_other hevent htransfer ih

/-! ## Two interleavings -/

variable {entries entries' : List Entry}

/-- Entries with the same contract events and the same bank transfers come to the same. -/
theorem allFindings_interleaved (p : Profile) (height : Int) (registry : Registry) (tx : RawTx)
    (hevents : entriesOfKind p.eventKind entries = entriesOfKind p.eventKind entries')
    (htransfers : entriesOfKind EventType.transfer.name entries =
      entriesOfKind EventType.transfer.name entries') :
    (∃ found contracts contracts',
      Gives (p.allFindings height registry tx entries) found contracts ∧
      Gives (p.allFindings height registry tx entries') found contracts' ∧
      ∀ c, c ∈ contracts ↔ c ∈ contracts') ∨
    Refuses (p.allFindings height registry tx entries) ∧
      Refuses (p.allFindings height registry tx entries') := by
  have hfirst := findings_apart p height registry tx entries
  have hsecond := findings_apart p height registry tx entries'
  unfold Apart RefusedApart at hfirst
  rw [hevents, htransfers] at hfirst
  rcases hfirst with ⟨events, transfers, cs, cs', cs'', -, -, he, ht, hall, hcs⟩ | ⟨hall, h⟩
  · rcases hsecond with
        ⟨events₂, transfers₂, ds, ds', ds'', -, -, he₂, ht₂, hall₂, hds⟩ | ⟨-, h | h⟩
    · obtain ⟨rfl, hcds⟩ := he.unique he₂
      obtain ⟨rfl, hcds'⟩ := ht.unique ht₂
      exact .inl ⟨_, cs'', ds'', hall, hall₂, by simp [hcs, hds, hcds, hcds']⟩
    · exact absurd h he.not_refuses
    · exact absurd h ht.not_refuses
  · rcases hsecond with ⟨events₂, transfers₂, ds, ds', ds'', -, -, he₂, ht₂, -, -⟩ | ⟨hall₂, -⟩
    · exact h.elim (fun h => absurd h he₂.not_refuses) fun h => absurd h ht₂.not_refuses
    · exact .inr ⟨hall, hall₂⟩

/-- The findings depend on the transaction they are stamped with through its hash and its time
only. -/
theorem allFindings_with_entries (p : Profile) (height : Int) (registry : Registry) (tx : RawTx)
    (all entries : List Entry) :
    p.allFindings height registry { tx with entries := all } entries =
      p.allFindings height registry tx entries := by
  induction entries with
  | nil => rfl
  | cons e rest ih =>
    rw [allFindings, allFindings, ih]
    rfl

/-- **How contract events and bank transfers are interleaved does not matter**, and neither do
entries of other types: two transactions that agree in everything else both fail, or give the same
records, register the same pairs and flag the same pairs. -/
theorem extract_interleaved (p : Profile) (height : Int) (known : Knowledge) {tx tx' : RawTx}
    (hhash : tx.hash = tx'.hash) (htime : tx.timestamp = tx'.timestamp)
    (hsender : tx.sender = tx'.sender)
    (hevents : entriesOfKind p.eventKind tx.entries = entriesOfKind p.eventKind tx'.entries)
    (htransfers : entriesOfKind EventType.transfer.name tx.entries =
      entriesOfKind EventType.transfer.name tx'.entries) :
    (∃ records registry flags flags',
      p.extract height tx known = (.ok records, { registry, flags }) ∧
      p.extract height tx' known = (.ok records, { registry, flags := flags' }) ∧
      ∀ c, c ∈ flags ↔ c ∈ flags') ∨
    (∃ e e', (p.extract height tx known).1 = .error e ∧
      (p.extract height tx' known).1 = .error e') := by
  obtain ⟨hash, timestamp, sender, entries⟩ := tx'
  obtain rfl : tx.hash = hash := hhash
  obtain rfl : tx.timestamp = timestamp := htime
  obtain rfl : tx.sender = sender := hsender
  -- Creations are read from contract events only, so they are the same.
  have hcreations : p.creations { tx with entries } entries = p.creations tx tx.entries := by
    rw [creations, creations, Rule.findIn_congr (r := p.creationRule) hevents]
    rfl
  simp only [extract, hcreations, allFindings_with_entries p height _ tx]
  cases p.creations tx tx.entries with
  | error e => exact .inr ⟨e, e, rfl, rfl⟩
  | ok created =>
    rcases allFindings_interleaved p height (known.registry.afterCreations created) tx hevents
      htransfers
      with ⟨found, contracts, contracts', hfound, hfound', hcontracts⟩ | ⟨hrefuses, hrefuses'⟩
    · simp only [hfound known.flags, hfound' known.flags]
      exact .inl ⟨_, _, _, _, rfl, rfl, by simp [Flags.mem_addAll, hcontracts]⟩
    · obtain ⟨e, flags, hrun⟩ := hrefuses known.flags
      obtain ⟨e', flags', hrun'⟩ := hrefuses' known.flags
      simp only [hrun, hrun']
      exact .inr ⟨e, e', rfl, rfl⟩

end Profile

/-- The transaction of a swap with its bank transfers logged first, among entries of other types. -/
def shuffledSwapTx : RawTx where
  hash := "A1"
  sender := "terra1user"
  entries := [
    { kind := "message", attributes := [⟨"action", "swap"⟩] },
    { kind := "transfer"
      attributes := [⟨"recipient", "terra1pair"⟩, ⟨"sender", "terra1user"⟩, ⟨"amount", "1000uluna"⟩,
        ⟨"recipient", "terra1pair"⟩, ⟨"sender", "terra1donor"⟩, ⟨"amount", "5uluna"⟩] },
    { kind := "execute" },
    { kind := "wasm"
      attributes := swapAttributes "terra1token" ++ [⟨"_contract_address", "terra1token"⟩,
        ⟨"action", "transfer"⟩, ⟨"from", "terra1pair"⟩, ⟨"to", "terra1user"⟩, ⟨"amount", "950"⟩] }]

theorem extract_shuffledSwapTx :
    entriesOfKind phoenixProfile.eventKind swapTx.entries =
      entriesOfKind phoenixProfile.eventKind shuffledSwapTx.entries ∧
    entriesOfKind EventType.transfer.name swapTx.entries =
      entriesOfKind EventType.transfer.name shuffledSwapTx.entries ∧
    ∃ flags, phoenixProfile.extract 1 shuffledSwapTx onePair =
      (.ok swapRecords, { onePair with flags }) := by
  have hevents : entriesOfKind phoenixProfile.eventKind swapTx.entries =
      entriesOfKind phoenixProfile.eventKind shuffledSwapTx.entries := by decide
  have htransfers : entriesOfKind EventType.transfer.name swapTx.entries =
      entriesOfKind EventType.transfer.name shuffledSwapTx.entries := by decide
  refine ⟨hevents, htransfers, ?_⟩
  rcases Profile.extract_interleaved phoenixProfile 1 onePair rfl rfl rfl hevents htransfers with
    ⟨records, registry, flags, flags', h, h', -⟩ | ⟨e, -, he, -⟩
  · rw [extract_swapTx] at h
    cases h
    exact ⟨flags', h'⟩
  · rw [extract_swapTx] at he
    cases he

end PoolLedger
