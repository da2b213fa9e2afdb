import PoolLedger.Proofs.JsonText
import PoolLedger.Proofs.Origin
import PoolLedger.Proofs.Unrelated
import PoolLedger.Store.Row

/-!
# What rows keep of records

A row holds the tax, the refund and the notes of a record as JSON texts. The notes of all
records that are extracted are strings (`Record.HasPlainNotes`), so these texts can be told
apart, and none of them stands for something absent. `stored_records_lose_nothing` says what
follows: rows that agree are those of records that agree in everything but their time, if a
refund of nothing counts as none.
-/

namespace PoolLedger

/-! ## Notes of strings -/

/-- Members whose values are strings. -/
def Members.ofTexts (l : List (String × String)) : Members :=
  l.map fun (key, value) => (Text.ofString key, .str (Text.ofString value))

theorem Members.exists_put_ofTexts (l : List (String × String)) (key value : String) :
    ∃ m, (ofTexts l).put key (.str value) = ofTexts m := by
  induction l with
  | nil => exact ⟨[(key, value)], rfl⟩
  | cons p l ih =>
    obtain ⟨m, hm⟩ := ih
    show ∃ m, put ((Text.ofString p.1, .str (Text.ofString p.2)) :: ofTexts l) key (.str value) =
        ofTexts m
    rw [put]
    split
    · exact ⟨(p.1, value) :: l, rfl⟩
    · exact ⟨p :: m, congrArg _ hm⟩

/-- What is noted in a record are strings. -/
def Record.HasPlainNotes (r : Record) : Prop :=
  ∃ l, r.notes = Members.ofTexts l

theorem Party.hasPlainNotes_of_place {p : Party} {legs : List Asset} {r r' : Record}
    {flags flags' : Flags} (h : p.place legs r flags = (.ok r', flags')) (hr : r.HasPlainNotes) :
    r'.HasPlainNotes := by
  induction legs generalizing r flags with
  | nil =>
    obtain ⟨rfl, -⟩ := run_pure_eq_ok.1 h
    exact hr
  | cons leg rest ih =>
    rw [place] at h
    obtain ⟨amount, _, -, h⟩ := run_bind_eq_ok.1 h
    split_ifs at h
    · exact ih h hr
    · exact ih h hr
    · obtain ⟨-, _, -, h⟩ := run_bind_eq_ok.1 h
      obtain ⟨l, hl⟩ := hr
      obtain ⟨m, hm⟩ := Members.exists_put_ofTexts l leg.addr amount
      exact ih h ⟨m, hl ▸ hm⟩

theorem Strategy.notes_of_handle {s : Strategy} {action : String} {fields : Fields} {pair : Pair}
    {r : Record} (h : s.handle action fields pair = .ok r) : r.notes = [] := by
  have hplain {r : Record} (h : plainSwap fields pair = .ok r) : r.notes = [] := by
    obtain ⟨_, _, _, _, _, _, _, -, -, -, -, -, -, -, rfl⟩ := plainSwap_eq_ok h
    rfl
  rcases (handle_eq_ok h).2 with ⟨-, hswap, -⟩ | ⟨-, hprovide, -⟩ | ⟨-, hwithdraw, -⟩
  · obtain hswap | ⟨plain, _, _, _, _, _, _, hswap', -, -, -, -, -, -, rfl⟩ := exists_of_swap hswap
    · exact hplain hswap
    · have hnotes := hplain hswap'
      split <;> exact hnotes
  · obtain hprovide | ⟨_, hprovide⟩ := exists_of_provide hprovide
    · obtain ⟨_, _, _, -, -, -, rfl⟩ := plainProvide_eq_ok hprovide
      rfl
    · obtain ⟨_, _, _, _, _, _, _, -, -, -, -, -, -, -, rfl⟩ := refundedProvide_eq_ok hprovide
      rfl
  · obtain ⟨_, _, _, -, -, -, rfl⟩ := withdraw_eq_ok hwithdraw
    rfl

/-- Whatever a record is read from, its notes are strings. -/
theorem Profile.Yields.hasPlainNotes {p : Profile} {height : Int} {registry : Registry} {tx : RawTx}
    {o : Origin} {r : Record} (h : p.Yields height registry tx o r) : r.HasPlainNotes := by
  cases h with
  | creation _ hread =>
    obtain ⟨_, _, _, _, rfl⟩ := readCreation_eq_ok hread
    exact ⟨[], rfl⟩
  | @action _ _ r _ _ hhandle =>
    show r.HasPlainNotes
    exact ⟨[], Strategy.notes_of_handle hhandle⟩
  | firstProvide _ hread =>
    obtain ⟨_, _, _, _, -, -, -, -, rfl⟩ := readFirstProvide_eq_ok hread
    exact ⟨[], rfl⟩
  | @transfer sender recipient _ _ _ _ r _ _ hrecord =>
    show r.HasPlainNotes
    exact Party.hasPlainNotes_of_place hrecord ⟨[("recipient", recipient)], rfl⟩

/-! ## Columns -/

namespace Json

theorem write_injective_of {α : Type} {f : α → Json}
    (h : SelfDelimiting fun a => Writer.value (f a)) :
    Function.Injective fun a => (f a).write := fun _ _ heq =>
  h.injective (String.ofList_injective heq)

namespace Writer

theorem members_ofTexts (l : List (String × String)) : members (Members.ofTexts l) =
    l.map fun p => string (Text.ofString p.1) ++ [':', ' '] ++ string (Text.ofString p.2) := by
  induction l with
  | nil => rfl
  | cons p l ih =>
    rw [List.map_cons, ← ih, List.append_assoc]
    rfl

theorem items_map {α : Type} (f : α → Json) (l : List α) :
    items (l.map f) = l.map fun a => value (f a) := by
  induction l with
  | nil => rfl
  | cons a l ih =>
    rw [List.map_cons, List.map_cons, ← ih]
    rfl

theorem selfDelimiting_texts : SelfDelimiting fun l => value (.obj (Members.ofTexts l)) := by
  have hmember := selfDelimiting_string.pair selfDelimiting_string [':', ' ']
  have hclosing : '}' ≠ '"' := by decide
  simp only [value, members_ofTexts]
  exact selfDelimiting_separated hmember (fun p => ⟨_, rfl⟩) hclosing (by decide) '{'

theorem selfDelimiting_asset : SelfDelimiting fun a : Asset => value a.toJson :=
  selfDelimiting_texts.comp (e := fun a : Asset => [("addr", a.addr), ("amount", a.amount)])
    fun a b h => Asset.ext_iff.2 (by simpa using h)

theorem selfDelimiting_assets :
    SelfDelimiting fun l : List Asset => value (.arr (l.map Asset.toJson)) := by
  have hclosing : ']' ≠ '{' := by decide
  simp only [value, items_map]
  exact selfDelimiting_separated selfDelimiting_asset (fun a => ⟨_, rfl⟩) hclosing (by decide) '['

end Writer

end Json

theorem refundText_eq_iff {refund refund' : Option (List Asset)} :
    refundText refund = refundText refund' ↔ refund.getD [] = refund'.getD [] := by
  have hinj := Json.write_injective_of Json.Writer.selfDelimiting_assets
  have htext (refund : Option (List Asset)) : refundText refund =
      if refund.getD [] = [] then none
      else some (Json.arr ((refund.getD []).map Asset.toJson)).write := by
    rcases refund with _ | _ | _ <;> rfl
  rw [htext, htext]
  generalize refund.getD [] = assets
  generalize refund'.getD [] = assets'
  constructor
  · intro h
    split_ifs at h with hnone hnone'
    · rw [hnone, hnone']
    · exact hinj (Option.some.inj h)
  · rintro rfl
    rfl

theorem notesText_ofTexts_eq_iff {l m : List (String × String)} :
    notesText (Members.ofTexts l) = notesText (Members.ofTexts m) ↔ l = m := by
  have hinj := Json.write_injective_of Json.Writer.selfDelimiting_texts
  constructor
  · intro h
    cases l with
    | nil =>
      cases m with
      | nil => rfl
      | cons q m => cases h
    | cons p l =>
      cases m with
      | nil => cases h
      | cons q m => exact hinj (Option.some.inj h)
  · rintro rfl
    rfl

/-! ## Rows -/

/-- Two rows agree in the columns that describe a record. -/
structure RecordRow.Agrees (row row' : RecordRow) : Prop where
  kind : row.kind.name = row'.kind.name
  hash : row.hash = row'.hash
  sender : row.sender = row'.sender
  contract : row.contract = row'.contract
  asset0 : row.asset0 = row'.asset0 ∧ row.asset0Amount = row'.asset0Amount
  asset1 : row.asset1 = row'.asset1 ∧ row.asset1Amount = row'.asset1Amount
  share : row.share = row'.share ∧ row.shareAmount = row'.shareAmount
  commission : row.commission = row'.commission
  tax : row.tax = row'.tax
  refund : row.refund = row'.refund
  notes : row.notes = row'.notes

/-- A record without its time, in which an absent refund is one of nothing. -/
def Record.timeless (r : Record) : Record :=
  { r with timestamp := none, refund := some (r.refund.getD []) }

theorem RecordKind.name_injective : Function.Injective RecordKind.name := fun k l h => by
  cases k <;> cases l <;> first | rfl | exact absurd h (by decide)

/-- The rows of records whose notes are strings agree exactly if the records do. -/
theorem RecordRow.agrees_iff {chain : String} {height : Int} {r r' : Record} (hr : r.HasPlainNotes)
    (hr' : r'.HasPlainNotes) :
    (ofRecord chain height r).Agrees (ofRecord chain height r') ↔ r.timeless = r'.timeless := by
  obtain ⟨l, hl⟩ := hr
  obtain ⟨l', hl'⟩ := hr'
  constructor
  · intro h
    have hkind := RecordKind.name_injective h.kind
    have hrefund := refundText_eq_iff.1 h.refund
    have htax := Option.map_injective
      (Json.write_injective_of Json.Writer.selfDelimiting_asset) h.tax
    -- The notes are told apart by their text, as they hold nothing but strings.
    have hnotes : r.notes = r'.notes := by
      have htexts : notesText r.notes = notesText r'.notes := h.notes
      rw [hl, hl', notesText_ofTexts_eq_iff] at htexts
      rw [hl, hl', htexts]
    have hlegs : r.legs = r'.legs :=
      Legs.ext (Asset.ext h.asset0.1 h.asset0.2) (Asset.ext h.asset1.1 h.asset1.2)
    exact Record.ext hkind h.hash rfl h.sender h.contract hlegs h.share.1 h.share.2
      h.commission htax
      (congrArg some hrefund) hnotes
  · intro h
    obtain ⟨hkind, hhash, -, hsender, hcontract, hlegs, hshare, hshareAmount, hcommission, htax,
      hrefund, hnotes⟩ := Record.ext_iff.1 h
    obtain ⟨hfirst, hsecond⟩ := Legs.ext_iff.1 hlegs
    exact {
      kind := congrArg RecordKind.name hkind
      hash := hhash
      sender := hsender
      contract := hcontract
      asset0 := Asset.ext_iff.1 hfirst
      asset1 := Asset.ext_iff.1 hsecond
      share := ⟨hshare, hshareAmount⟩
      commission := hcommission
      tax := congrArg (Option.map fun a : Asset => a.toJson.write) htax
      refund := refundText_eq_iff.2 (Option.some.inj hrefund)
      notes := congrArg notesText hnotes }

/-- **What is stored of records loses nothing.** What is noted in the records that are extracted are
strings, and the rows of two such records agree exactly if the records do: in everything but their
time, a refund of nothing being none. -/
theorem stored_records_lose_nothing :
    (∀ (p : Profile) height tx known known' records,
      p.extract height tx known = (.ok records, known') →
      ∀ r ∈ records, r.HasPlainNotes) ∧
    ∀ chain height (r r' : Record), r.HasPlainNotes → r'.HasPlainNotes →
      ((RecordRow.ofRecord chain height r).Agrees (RecordRow.ofRecord chain height r') ↔
        r.timeless = r'.timeless) := by
  refine ⟨fun p height tx known known' records h r hr => ?_,
    fun chain height r r' => RecordRow.agrees_iff⟩
  obtain ⟨o, hyields⟩ := Profile.yields_of_extract h hr
  exact hyields.hasPlainNotes

/-! A transfer of a coin that the pair does not hold, under a name with a quote and a
character of two units. -/

def tipTx : RawTx where
  hash := "A1"
  entries := [{
    kind := "transfer"
    attributes := [⟨"recipient", "terra1pair"⟩, ⟨"sender", "terra1user"⟩,
      ⟨"amount", "5uluna,7\"😀"⟩] }]

def tipRecord : Record where
  kind := .transfer
  hash := "A1"
  sender := "terra1user"
  contract := "terra1pair"
  legs := { first := { addr := "uluna", amount := "5" }, second := { addr := "terra1token" } }
  notes := [("recipient", .str "terra1pair"), ("\"😀", .str "7")]

/-- The transfer is noted, a refund of nothing does not show in its row, and a tax of nothing
does. -/
theorem tipRecord_stored :
    phoenixProfile.extract 1 tipTx onePair =
      (.ok [tipRecord], { onePair with flags := ["terra1pair"] }) ∧
    (RecordRow.ofRecord "phoenix-1" 1 tipRecord).notes =
      some "\x7b\"recipient\": \"terra1pair\", \"\\\"\\ud83d\\ude00\": \"7\"\x7d" ∧
    (RecordRow.ofRecord "phoenix-1" 1 { tipRecord with refund := some [] }).Agrees
      (.ofRecord "phoenix-1" 1 tipRecord) ∧
    ¬(RecordRow.ofRecord "phoenix-1" 1 { tipRecord with tax := some {} }).Agrees
      (.ofRecord "phoenix-1" 1 tipRecord) := by
  have hextract : phoenixProfile.extract 1 tipTx onePair =
      (.ok [tipRecord], { onePair with flags := ["terra1pair"] }) := by decide +kernel
  obtain ⟨hextracted, hstored⟩ := stored_records_lose_nothing
  have hplain : tipRecord.HasPlainNotes :=
    hextracted _ _ _ _ _ _ hextract tipRecord List.mem_cons_self
  have hrefund := (hstored "phoenix-1" 1 { tipRecord with refund := some [] } tipRecord hplain
    hplain).2 rfl
  refine ⟨hextract, by decide +kernel, hrefund, fun h => ?_⟩
  have htimeless := (hstored "phoenix-1" 1 { tipRecord with tax := some {} } tipRecord hplain
    hplain).1 h
  exact nomatch (congrArg Record.tax htimeless : some ({} : Asset) = none)

end PoolLedger
