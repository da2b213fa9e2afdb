import PoolLedger.Extraction
import PoolLedger.Proofs.Outcome
import PoolLedger.Proofs.Registry

/-!
# Flags, and transactions that are read again

What a step comes to and which pairs it flags does not depend on what has been flagged
before (`Marks`). This holds of the readers of transfers and of all steps that are made of
them (`marks_allFindings`).

Hence a transaction that is read again, with all that is known after the first time, comes to the
same and leaves that knowledge as it is (`extract_again`), whether it fails or not: registering the
same pairs again changes nothing, and neither does flagging the same pairs again.
-/

namespace PoolLedger

/-! ## Several flags -/

namespace Flags

def addAll (flags : Flags) (contracts : List String) : Flags :=
  contracts.foldl add flags

theorem add_of_mem {flags : Flags} {contract : String} (h : contract ∈ flags) :
    flags.add contract = flags :=
  if_pos (List.contains_iff_mem.2 h)

theorem mem_add {flags : Flags} {contract c : String} :
    c ∈ flags.add contract ↔ c ∈ flags ∨ c = contract := by
  unfold add
  split
  · rename_i h
    exact ⟨.inl, fun hc => hc.elim id fun heq => heq ▸ List.contains_iff_mem.1 h⟩
  · exact List.mem_append.trans (or_congr_right List.mem_singleton)

theorem addAll_append (flags : Flags) (as bs : List String) :
    flags.addAll (as ++ bs) = (flags.addAll as).addAll bs :=
  List.foldl_append

theorem mem_addAll {flags : Flags} {contracts : List String} {c : String} :
    c ∈ flags.addAll contracts ↔ c ∈ flags ∨ c ∈ contracts := by
  induction contracts generalizing flags with
  | nil => exact (or_iff_left List.not_mem_nil).symm
  | cons contract rest ih =>
    show c ∈ (flags.add contract).addAll rest ↔ _
    rw [ih, mem_add, List.mem_cons, or_assoc]

theorem addAll_of_subset {flags : Flags} {contracts : List String}
    (h : ∀ c ∈ contracts, c ∈ flags) :
    flags.addAll contracts = flags := by
  induction contracts with
  | nil => rfl
  | cons contract rest ih =>
    show (flags.add contract).addAll rest = flags
    rw [add_of_mem (h contract List.mem_cons_self)]
    exact ih fun c hc => h c (List.mem_cons_of_mem _ hc)

theorem addAll_addAll (flags : Flags) (contracts : List String) :
    (flags.addAll contracts).addAll contracts = flags.addAll contracts :=
  addAll_of_subset fun _ hc => mem_addAll.2 (.inr hc)

end Flags

/-! ## Steps that flag certain pairs -/

/-- Whatever has been flagged, the step comes to the same and flags the same pairs. -/
def Marks {α : Type} (m : Flagging α) : Prop :=
  ∃ outcome contracts, ∀ flags : Flags, m flags = (outcome, flags.addAll contracts)

namespace Marks

variable {α β ι : Type} {m : Flagging α} {k : α → Flagging β}

theorem pure (a : α) : Marks (pure a) := ⟨.ok a, [], fun _ => rfl⟩

theorem lift (x : Except ReadError α) : Marks (liftM x) := ⟨x, [], fun _ => by cases x <;> rfl⟩

theorem flag (contract : String) : Marks (flag contract) := ⟨.ok ⟨⟩, [contract], fun _ => rfl⟩

theorem bind (hm : Marks m) (hk : ∀ a, Marks (k a)) : Marks (m >>= k) := by
  obtain ⟨outcome, first, hm⟩ := hm
  cases outcome with
  | error e => exact ⟨.error e, first, fun flags => by rw [run_bind, hm]⟩
  | ok a =>
    obtain ⟨outcome, rest, hk⟩ := hk a
    refine ⟨outcome, first ++ rest, fun flags => ?_⟩
    rw [run_bind, hm, Flags.addAll_append]
    exact hk (flags.addAll first)

theorem mapM {k : ι → Flagging β} (hk : ∀ i, Marks (k i)) (l : List ι) : Marks (l.mapM k) := by
  induction l with
  | nil =>
    rw [List.mapM_nil]
    exact .pure _
  | cons i l ih =>
    rw [List.mapM_cons]
    exact (hk i).bind fun _ => ih.bind fun _ => .pure _

theorem steady (h : Marks m) : Steady m := by
  obtain ⟨outcome, contracts, h⟩ := h
  intro flags flags'
  rw [h, h]

theorem kept (h : Marks m) {flags : Flags} {c : String} (hc : c ∈ flags) : c ∈ (m flags).2 := by
  obtain ⟨outcome, contracts, h⟩ := h
  rw [h]
  exact Flags.mem_addAll.2 (.inl hc)

/-- Taken again, the step comes to the same and leaves the flags as they are. -/
theorem again (h : Marks m) (flags : Flags) : m (m flags).2 = m flags := by
  obtain ⟨outcome, contracts, h⟩ := h
  rw [h flags, h, Flags.addAll_addAll]

end Marks

/-! ## Transfers -/

theorem marks_place (party : Party) (legs : List Asset) (r : Record) :
    Marks (party.place legs r) := by
  induction legs generalizing r with
  | nil => exact .pure r
  | cons leg rest ih =>
    rw [Party.place]
    refine (Marks.lift _).bind fun amount => ?_
    split_ifs
    · exact ih _
    · exact ih _
    · exact (Marks.flag _).bind fun _ => ih _

theorem marks_readToken (reader : TokenReader) (registry : Registry) (attrs : List Attribute) :
    Marks (reader.read registry attrs) := by
  refine (Marks.lift _).bind fun fields => (Marks.lift _).bind fun sender =>
    (Marks.lift _).bind fun recipient => (Marks.lift _).bind fun party? => ?_
  cases party? with
  | none => exact .pure _
  | some party =>
    exact (Marks.lift _).bind fun token => (Marks.lift _).bind fun amount =>
      (marks_place party _ _).bind fun _ => .pure _

theorem marks_readBankTransfer (added : Int) (registry : Registry) (attrs : List Attribute) :
    Marks (readBankTransfer added registry attrs) := by
  refine (Marks.lift _).bind fun _ => (Marks.lift _).bind fun fields =>
    (Marks.lift _).bind fun sender => (Marks.lift _).bind fun recipient =>
    (Marks.lift _).bind fun party? => ?_
  cases party? with
  | none => exact .pure _
  | some party =>
    exact (Marks.lift _).bind fun text => (Marks.lift _).bind fun coins =>
      (marks_place party _ _).bind fun _ => .pure _

/-! ## Whole transactions -/

namespace Profile

theorem marks_findings (p : Profile) (height : Int) (registry : Registry) (tx : RawTx) (e : Entry) :
    Marks (p.findings height registry tx e) := by
  have htokens : Marks (p.tokenTransfers height registry tx [e]) :=
    (Marks.mapM (marks_readToken _ registry) _).bind fun _ => .pure _
  have hcoins : Marks (p.bankTransfers registry tx [p.prepare e]) :=
    (Marks.mapM (marks_readBankTransfer 0 registry) _).bind fun _ => .pure _
  exact (Marks.lift _).bind fun _ => (Marks.lift _).bind fun _ => htokens.bind fun _ =>
    hcoins.bind fun _ => .pure _

theorem marks_allFindings (p : Profile) (height : Int) (registry : Registry) (tx : RawTx)
    (entries : List Entry) : Marks (p.allFindings height registry tx entries) := by
  induction entries with
  | nil => exact .pure _
  | cons e rest ih =>
    exact (marks_findings p height registry tx e).bind fun _ => ih.bind fun _ => .pure _

/-! ## Reading again -/

theorem afterCreations_afterCreations (registry : Registry) (created : List Record) :
    (registry.afterCreations created).afterCreations created = registry.afterCreations created :=
  registry.insertAll_insertAll _

/-- **Reading a transaction again comes to the same and leaves what is known as it is.** So what
comes of it is what would come of it if the pairs that it creates had been registered before. -/
theorem extract_again (p : Profile) (height : Int) (tx : RawTx) (known : Knowledge) :
    p.extract height tx (p.extract height tx known).2 = p.extract height tx known ∧
      ∀ created, p.creations tx tx.entries = .ok created →
        p.extract height tx { known with registry := known.registry.afterCreations created } =
          p.extract height tx known := by
  cases hcreated : p.creations tx tx.entries with
  | error e =>
    have hextract (known : Knowledge) : p.extract height tx known = (.error e, known) := by
      rw [extract, hcreated]
    exact ⟨by rw [hextract, hextract], nofun⟩
  | ok created =>
    have hregistry := afterCreations_afterCreations known.registry created
    rcases hall : p.allFindings height (known.registry.afterCreations created) tx tx.entries
      known.flags with ⟨outcome, flags⟩
    have hagain := (marks_allFindings p height (known.registry.afterCreations created) tx
      tx.entries).again known.flags
    rw [hall] at hagain
    constructor
    · simp only [extract, hcreated, hregistry, hall, hagain]
    · intro created' heq
      obtain rfl := Except.ok.inj heq
      simp only [extract, hcreated, hregistry, hall]

end Profile

end PoolLedger
