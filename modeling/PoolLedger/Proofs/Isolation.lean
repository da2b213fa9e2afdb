import PoolLedger.Proofs.ChainPart
import PoolLedger.Proofs.Sessions

/-!
# Chains that share a store

**Theorem (`chains_isolated`).** However the calls of many chains are interleaved in a session, as
long as nothing is undone each chain gets the answers that it would get alone, and leaves the rows
that it would leave alone. Neither does the block of one chain move the height of another one on or
stand in for its predecessor, nor does it matter which contracts another chain has.

A block that is given up half way leaves rows pending, and whoever calls next writes them. So
the two sessions are compared as they will be once everything pending is written
(`Session.ComesTo`): a call answers and acts as a pure function of that store
(`StoreCall.perform_of_comesTo`), and the part of a chain determines what comes of a call of the
chain (`StoreCall.answer_part`, `StoreCall.next_part`).
-/

namespace PoolLedger

/-! ## Calls -/

/-- What may be asked about a chain. -/
inductive StoreQuestion where
  | registry
  | impliedPools (first last : Int)
  | exemptions
  | failures (resolved : Option Bool) (limit : Int)
  | failureCounts

/-- What may be added to a chain besides blocks. -/
inductive StoreAddition where
  | exemption (contract : String)
  | failure (height : Int) (hash category : String) (message stack : Option String)

/-- What may be done with a store on behalf of a chain. -/
inductive StoreCall where
  | syncedHeight
  | ask (question : StoreQuestion)
  | add (addition : StoreAddition)
  | insert (height : Int) (records : List Record) (pools : List Pool) (pairs : List Pair)
  | commit

/-- What a call answers. -/
inductive StoreAnswer where
  | done
  | height (height : Int)
  | registry (registry : Registry)
  | pools (pools : List Pool)
  | contracts (contracts : List String)
  | failures (rows : List FailureRow)
  | counts (counts : List (String × Nat))
deriving DecidableEq, Repr

def StoreQuestion.answer (chain : String) (s : Store) :
    StoreQuestion → Except StoreError StoreAnswer
  | registry => .ok (.registry (s.registry chain))
  | impliedPools first last => (s.impliedPools chain first last).map .pools
  | exemptions => .ok (.contracts (s.exemptions chain))
  | failures resolved limit => (s.listFailures chain resolved limit).map .failures
  | failureCounts => .ok (.counts (s.failureCounts chain))

def StoreAddition.addTo (chain : String) (s : Store) : StoreAddition → Except StoreError Store
  | exemption contract => s.addExemption chain contract
  | failure height hash category message stack =>
    s.addFailure { chain, height, hash, category, message, stack }

namespace StoreCall

/-- A call in a session. -/
def perform (chain : String) : StoreCall → InSession StoreAnswer
  | syncedHeight => .height <$> Session.syncedHeight chain
  | ask question => Session.query fun s => question.answer chain s
  | add addition => (fun _ => .done) <$> Session.write fun s => addition.addTo chain s
  | insert height records pools pairs =>
    (fun _ => .done) <$> Session.insert chain height records pools pairs
  | commit => (fun _ => .done) <$> Session.commit

/-- What a call answers on a store. -/
def answer (chain : String) (s : Store) : StoreCall → Except StoreError StoreAnswer
  | syncedHeight => .ok (.height (s.syncedHeight chain).1)
  | ask question => question.answer chain s
  | add addition => (addition.addTo chain s).map fun _ => .done
  | insert height records pools pairs =>
    (s.insert chain height records pools pairs).map fun _ => .done
  | commit => .ok .done

/-- What a call makes of a store, once everything pending is written. -/
def next (chain : String) (s : Store) : StoreCall → Except StoreError Store
  | syncedHeight => .ok (s.syncedHeight chain).2
  | ask _ | commit => .ok s
  | add addition => addition.addTo chain s
  | insert height records pools pairs =>
    match s.insert chain height records pools pairs with
    | .ok s' => .ok s'
    | .error .missingAsset => (Pending.ofBlock chain height records pairs).write s
    | .error _ => .ok s

end StoreCall

/-- An outcome that does not undo what was done since the last commit. -/
def IsKept {α : Type} : Except StoreError α → Prop
  | .ok _ => True
  | .error e => e.undoes = false

instance {α : Type} (outcome : Except StoreError α) : Decidable (IsKept outcome) :=
  match outcome with
  | .ok _ => isTrue trivial
  | .error e => inferInstanceAs (Decidable (e.undoes = false))

/-- Calls of many chains, one after the other. -/
def performAll :
    List (String × StoreCall) → Session → List (String × Except StoreError StoreAnswer) × Session
  | [], session => ([], session)
  | (chain, call) :: calls, session =>
    let (answer, session) := call.perform chain session
    let (answers, session) := performAll calls session
    ((chain, answer) :: answers, session)

/-- Those of a chain among calls, or answers, of many. -/
def ofChain {α : Type} (chain : String) (l : List (String × α)) : List (String × α) :=
  l.filter (·.1 == chain)

theorem ofChain_cons_own {α : Type} (chain : String) (a : α) (l : List (String × α)) :
    ofChain chain ((chain, a) :: l) = (chain, a) :: ofChain chain l :=
  List.filter_cons_of_pos (beq_self_eq_true chain)

theorem ofChain_cons_other {α : Type} {chain other : String} (hne : other ≠ chain) (a : α)
    (l : List (String × α)) : ofChain chain ((other, a) :: l) = ofChain chain l :=
  List.filter_cons_of_neg fun heq => hne (beq_iff_eq.1 heq)

theorem performAll_cons (chain : String) (call : StoreCall) (calls : List (String × StoreCall))
    (session : Session) : performAll ((chain, call) :: calls) session =
      ((chain, (call.perform chain session).1) ::
        (performAll calls (call.perform chain session).2).1,
        (performAll calls (call.perform chain session).2).2) := rfl

/-! ## What a call comes to -/

namespace StoreAddition

variable {chain other : String} {s s' : Store} {e : StoreError} {addition : StoreAddition}

theorem addTo_records (addition : StoreAddition) (chain : String) (t : Store)
    (rows : List RecordRow) :
    addition.addTo chain { t with records := t.records ++ rows } =
      (addition.addTo chain t).map fun t' => { t' with records := t'.records ++ rows } := by
  cases addition with
  | exemption contract =>
    show (if (t.exemptions chain).contains contract then _ else _) = _
    rw [addTo, Store.addExemption]
    split <;> rfl
  | failure height hash category message stack =>
    rw [addTo, Store.addFailure, addTo, Store.addFailure]
    split <;> rfl

theorem undoes_of_addTo (h : addition.addTo chain s = .error e) : e.undoes := by
  cases addition with
  | exemption contract =>
    rw [addTo, Store.addExemption] at h
    split at h
    · obtain rfl := Except.error.inj h
      rfl
    · cases h
  | failure height hash category message stack =>
    rw [addTo, Store.addFailure] at h
    split at h
    · cases h
    · obtain rfl := Except.error.inj h
      rfl

theorem addTo_part (addition : StoreAddition) (chain : String) (s : Store) :
    addition.addTo chain (s.part chain) = (addition.addTo chain s).map (·.part chain) := by
  cases addition with
  | exemption contract => exact s.addExemption_part chain contract
  | failure height hash category message stack => exact Store.addFailure_part rfl

theorem part_of_addTo (hne : other ≠ chain) (h : addition.addTo other s = .ok s') :
    s'.part chain = s.part chain := by
  cases addition with
  | exemption contract => exact Store.part_of_addExemption hne h
  | failure height hash category message stack => exact Store.part_of_addFailure hne h

end StoreAddition

theorem StoreQuestion.answer_part (question : StoreQuestion) (chain : String) (s : Store) :
    question.answer chain (s.part chain) = question.answer chain s := by
  cases question with
  | registry => rw [answer, s.registry_part, answer]
  | impliedPools first last => rw [answer, s.impliedPools_part, answer]
  | exemptions => rw [answer, s.exemptions_part, answer]
  | failures resolved limit => rw [answer, s.listFailures_part, answer]
  | failureCounts => rw [answer, s.failureCounts_part, answer]

namespace StoreCall

variable {session : Session} {s s' : Store} {chain other : String} {call : StoreCall}

/-- **A call acts as a function of the store** that the session comes to. -/
theorem perform_of_comesTo (h : session.ComesTo s) :
    (call.perform chain session).1 = call.answer chain s ∧
      (IsKept (call.answer chain s) → (call.perform chain session).2.isBroken = false ∧
        (call.perform chain session).2.flushed = call.next chain s) := by
  have hclean (s' : Store) : ({ session with current := s', pending := {} } : Session).isBroken =
      false ∧
      ({ session with current := s', pending := {} } : Session).flushed = .ok s' :=
    ⟨h.sound, Session.flushed_of_pending rfl⟩
  cases call with
  | syncedHeight =>
    rw [perform, run_map, h.syncedHeight]
    exact ⟨rfl, fun _ => hclean _⟩
  | ask question =>
    rw [perform, h.query]
    exact ⟨rfl, fun _ => hclean _⟩
  | commit =>
    rw [perform, run_map, h.commit]
    exact ⟨rfl, fun _ => ⟨rfl, Session.flushed_of_pending rfl⟩⟩
  | add addition =>
    rw [perform, run_map, h.write (addition.addTo_records chain), answer, next]
    cases hadd : addition.addTo chain s with
    | ok s' => exact ⟨rfl, fun _ => hclean _⟩
    | error e =>
      refine ⟨rfl, fun hkept => ?_⟩
      exact nomatch (StoreAddition.undoes_of_addTo hadd).symm.trans hkept
  | insert height records pools pairs =>
    rw [perform, run_map, h.insert, answer, next]
    rcases s.insert chain height records pools pairs with e | s'
    · -- A missing asset leaves the rows of the block pending, and undoes nothing.
      cases e with
      | missingAsset => exact ⟨rfl, fun _ => ⟨h.sound, Session.flushed_eq _⟩⟩
      | duplicate | unstorable => exact ⟨rfl, fun hkept => nomatch hkept⟩
      | _ => exact ⟨rfl, fun _ => hclean _⟩
    · exact ⟨rfl, fun _ => hclean _⟩

/-- If what is pending cannot be written, a call undoes what was done since the last commit. -/
theorem not_isKept_of_not_flushed {e : StoreError} (hsound : session.isBroken = false)
    (h : session.flushed = .error e) : ¬IsKept (call.perform chain session).1 := by
  suffices hfails : ∃ e', (call.perform chain session).1 = .error e' ∧ e'.undoes by
    obtain ⟨e', houtcome, hundoes⟩ := hfails
    rw [houtcome]
    intro hkept
    exact nomatch hundoes.symm.trans hkept
  -- Every call writes what is pending, and so fails as that does.
  cases call with
  | syncedHeight =>
    obtain ⟨e', houtcome, hundoes⟩ := Session.flush_bind_of_not_flushed hsound h _
    exact ⟨e', by rw [perform, run_map, Session.syncedHeight, houtcome]; rfl, hundoes⟩
  | ask question => exact Session.flush_bind_of_not_flushed hsound h _
  | add addition =>
    obtain ⟨e', houtcome, hundoes⟩ := Session.write_of_not_flushed hsound h
      fun t e => StoreAddition.undoes_of_addTo
    exact ⟨e', by rw [perform, run_map, houtcome]; rfl, hundoes⟩
  | insert height records pools pairs =>
    obtain ⟨e', houtcome, hundoes⟩ := Session.flush_bind_of_not_flushed hsound h _
    exact ⟨e', by rw [perform, run_map, Session.insert, houtcome]; rfl, hundoes⟩
  | commit =>
    obtain ⟨e', houtcome, hundoes⟩ := Session.flush_bind_of_not_flushed hsound h _
    exact ⟨e', by rw [perform, run_map, Session.commit, houtcome]; rfl, hundoes⟩

/-! ## What a call has to do with the chains -/

theorem answer_part (call : StoreCall) (chain : String) (s : Store) :
    call.answer chain (s.part chain) = call.answer chain s := by
  cases call with
  | syncedHeight => rw [answer, s.syncedHeight_part, answer]
  | ask question => rw [answer, question.answer_part, answer]
  | add addition =>
    rw [answer, addition.addTo_part, answer]
    cases addition.addTo chain s <;> rfl
  | insert height records pools pairs =>
    rw [answer, s.insert_part, answer]
    cases s.insert chain height records pools pairs <;> rfl
  | commit => rfl

/-- Rows of a chain that are written late are written as if the chain had the store for itself. -/
theorem writePending_part (chain : String) (height : Int) (records : List Record)
    (pairs : List Pair) (s : Store) :
    (Pending.ofBlock chain height records pairs).write (s.part chain) =
      ((Pending.ofBlock chain height records pairs).write s).map (·.part chain) := by
  simp only [Pending.write, Pending.ofBlock, Pending.writePairs, s.addPairs_part]
  cases Store.addPairs s.pairs (pairs.map (.ofPair chain)) with
  | error e => rfl
  | ok rows =>
    show Pending.writeRecords _ _ = (Pending.writeRecords _ _).map (Store.part · chain)
    unfold Pending.writeRecords
    split
    · refine congrArg Except.ok ?_
      simp only [Store.part, List.filter_append, Store.filter_ofRecord_own]
    · rfl

theorem part_of_writePending {height : Int} {records : List Record} {pairs : List Pair}
    (hne : other ≠ chain) (h : (Pending.ofBlock other height records pairs).write s = .ok s') :
    s'.part chain = s.part chain := by
  obtain ⟨t, hpairs, hrecords⟩ := bind_eq_ok.1 h
  obtain ⟨rows, hrows, hpairs⟩ := bind_eq_ok.1 hpairs
  obtain rfl := pure_eq_ok.1 hpairs
  rw [Store.addPairs_eq_ok hrows] at hrecords
  unfold Pending.writeRecords at hrecords
  split at hrecords
  · obtain rfl := Except.ok.inj hrecords
    simp only [Pending.ofBlock, Store.part, List.filter_append, Store.filter_ofPair_foreign hne,
      Store.filter_ofRecord_foreign hne, List.append_nil]
  · cases hrecords

theorem next_part (call : StoreCall) (chain : String) (s : Store) :
    call.next chain (s.part chain) = (call.next chain s).map (·.part chain) := by
  cases call with
  | syncedHeight => rw [next, s.syncedHeight_part, next]; rfl
  | ask question => rfl
  | add addition => exact addition.addTo_part chain s
  | insert height records pools pairs =>
    rw [next, s.insert_part, next]
    rcases s.insert chain height records pools pairs with e | s'
    · cases e with
      | missingAsset => exact writePending_part chain height records pairs s
      | _ => rfl
    · rfl
  | commit => rfl

theorem part_of_next (hne : other ≠ chain) (h : call.next other s = .ok s') :
    s'.part chain = s.part chain := by
  cases call with
  | syncedHeight =>
    obtain rfl := Except.ok.inj h
    exact Store.part_syncedHeight hne
  | ask question =>
    obtain rfl := Except.ok.inj h
    rfl
  | add addition => exact StoreAddition.part_of_addTo hne h
  | insert height records pools pairs =>
    rw [next] at h
    cases hinsert : s.insert other height records pools pairs with
    | ok s₁ =>
      rw [hinsert] at h
      obtain rfl := Except.ok.inj h
      exact Store.part_of_insert hne hinsert
    | error e =>
      rw [hinsert] at h
      -- A missing asset leaves the rows of the block pending; any other failure leaves nothing.
      cases e with
      | missingAsset => exact part_of_writePending hne h
      | _ =>
        obtain rfl := Except.ok.inj h
        rfl
  | commit =>
    obtain rfl := Except.ok.inj h
    rfl

end StoreCall

/-! ## Two runs -/

/-- A session of many chains, and one that has the same rows of one of them. -/
structure Mirrors (chain : String) (session own : Session) : Prop where
  sound : session.isBroken = false
  own_sound : own.isBroken = false
  part : ∀ s, session.flushed = .ok s → ∃ s', own.flushed = .ok s' ∧ s'.part chain = s.part chain

section

variable {chain other : String} {call : StoreCall} {session own : Session}

/-- A call is answered by a session that can write what is pending, unless something is undone. -/
theorem Mirrors.comesTo (h : Mirrors chain session own)
    (hkept : IsKept (call.perform other session).1) :
    ∃ s s', session.ComesTo s ∧ own.ComesTo s' ∧ s'.part chain = s.part chain := by
  cases hflushed : session.flushed with
  | error e => exact absurd hkept (StoreCall.not_isKept_of_not_flushed h.sound hflushed)
  | ok s =>
    obtain ⟨s', hown, hpart⟩ := h.part s hflushed
    exact ⟨s, s', ⟨h.sound, hflushed⟩, ⟨h.own_sound, hown⟩, hpart⟩

/-- **A call of the chain is answered alike**, and leaves the same rows of the chain. -/
theorem Mirrors.perform_own (h : Mirrors chain session own)
    (hkept : IsKept (call.perform chain session).1) :
    (call.perform chain own).1 = (call.perform chain session).1 ∧
      Mirrors chain (call.perform chain session).2 (call.perform chain own).2 := by
  obtain ⟨s, s', hs, hs', hpart⟩ := h.comesTo hkept
  obtain ⟨hanswer, hnext⟩ := @StoreCall.perform_of_comesTo session s chain call hs
  obtain ⟨hanswer', hnext'⟩ := @StoreCall.perform_of_comesTo own s' chain call hs'
  have hsame : call.answer chain s' = call.answer chain s := by
    rw [← call.answer_part, hpart, call.answer_part]
  rw [hanswer] at hkept
  obtain ⟨hsound, hflushed⟩ := hnext hkept
  obtain ⟨hsound', hflushed'⟩ := hnext' (hsame ▸ hkept)
  refine ⟨by rw [hanswer, hanswer', hsame], hsound, hsound', ?_⟩
  intro t ht
  -- What the call makes of either store has the same part of the chain.
  have hparts : (call.next chain s').map (·.part chain) = .ok (t.part chain) := by
    rw [← call.next_part, hpart, call.next_part, ← hflushed, ht]
    rfl
  obtain ⟨t', ht', hpart'⟩ := map_eq_ok.1 hparts
  exact ⟨t', hflushed'.trans ht', hpart'⟩

theorem Mirrors.perform_other (h : Mirrors chain session own) (hne : other ≠ chain)
    (hkept : IsKept (call.perform other session).1) :
    Mirrors chain (call.perform other session).2 own := by
  obtain ⟨s, s', hs, hs', hpart⟩ := h.comesTo hkept
  obtain ⟨hanswer, hnext⟩ := @StoreCall.perform_of_comesTo session s other call hs
  rw [hanswer] at hkept
  obtain ⟨hsound, hflushed⟩ := hnext hkept
  refine ⟨hsound, h.own_sound, ?_⟩
  intro t ht
  rw [hflushed] at ht
  exact ⟨s', hs'.flushed, hpart.trans (StoreCall.part_of_next hne ht).symm⟩

/-- **The answers that a chain gets among many are those that it gets alone**, and so are
the rows that it leaves. -/
theorem Mirrors.run {calls : List (String × StoreCall)} (h : Mirrors chain session own)
    (hkept : ∀ answer ∈ (performAll calls session).1, IsKept answer.2) :
    (performAll (ofChain chain calls) own).1 = ofChain chain (performAll calls session).1 ∧
      Mirrors chain (performAll calls session).2 (performAll (ofChain chain calls) own).2 := by
  induction calls generalizing session own with
  | nil => exact ⟨rfl, h⟩
  | cons entry calls ih =>
    obtain ⟨other, call⟩ := entry
    rw [performAll_cons] at hkept ⊢
    have hfirst : IsKept (call.perform other session).1 := hkept _ List.mem_cons_self
    have hlater : ∀ answer ∈ (performAll calls (call.perform other session).2).1,
        IsKept answer.2 := by
      intro answer hanswer
      exact hkept answer (List.mem_cons_of_mem _ hanswer)
    by_cases hown : other = chain
    · subst hown
      obtain ⟨hanswer, hmirrors⟩ := h.perform_own hfirst
      obtain ⟨hanswers, hmirrors⟩ := ih hmirrors hlater
      rw [ofChain_cons_own, ofChain_cons_own, performAll_cons, hanswer, hanswers]
      exact ⟨rfl, hmirrors⟩
    · obtain ⟨hanswers, hmirrors⟩ := ih (h.perform_other hown hfirst) hlater
      rw [ofChain_cons_other hown, ofChain_cons_other hown, hanswers]
      exact ⟨rfl, hmirrors⟩

theorem Mirrors.commit (h : Mirrors chain session own) {after : Session}
    (hcommit : Session.commit session = (.ok (), after)) :
    ∃ own', Session.commit own = (.ok (), own') ∧
      own'.committed.part chain = after.committed.part chain := by
  have hkept : IsKept (StoreCall.commit.perform chain session).1 := by
    rw [StoreCall.perform, run_map, hcommit]
    trivial
  obtain ⟨s, s', hs, hs', hpart⟩ := h.comesTo hkept
  obtain rfl : Session.on s = after := congrArg Prod.snd (hs.commit.symm.trans hcommit)
  exact ⟨_, hs'.commit, hpart⟩

end

/-- **Chains that share a store do not see each other.** If nothing is undone, a chain gets the
answers that it would get alone, and a commit keeps the rows that it would keep alone. Its blocks
are written, or refused, as if it had the store for itself, and leave the rows and the height of
every other chain as they are. -/
theorem chains_isolated (s : Store) (chain : String) (calls : List (String × StoreCall))
    (hkept : ∀ answer ∈ (performAll calls (.on s)).1, IsKept answer.2) :
    (performAll (ofChain chain calls) (.on s)).1 = ofChain chain (performAll calls (.on s)).1 ∧
      (∀ after, Session.commit (performAll calls (.on s)).2 = (.ok (), after) →
        ∃ own, Session.commit (performAll (ofChain chain calls) (.on s)).2 = (.ok (), own) ∧
          own.committed.part chain = after.committed.part chain) ∧
      (∀ height records pools pairs, (s.part chain).insert chain height records pools pairs =
        (s.insert chain height records pools pairs).map (·.part chain)) ∧
      ∀ other, other ≠ chain → ∀ height records pools pairs s',
        s.insert other height records pools pairs = .ok s' →
          s'.part chain = s.part chain ∧ s'.height? chain = s.height? chain := by
  have hstart : Mirrors chain (.on s) (.on s) := by
    refine ⟨rfl, rfl, ?_⟩
    intro t ht
    exact ⟨t, ht, rfl⟩
  obtain ⟨hanswers, hmirrors⟩ := hstart.run hkept
  refine ⟨hanswers, fun after => hmirrors.commit, s.insert_part chain, ?_⟩
  intro other hne height records pools pairs s' hinsert
  have hpart : s'.part chain = s.part chain := Store.part_of_insert hne hinsert
  refine ⟨hpart, ?_⟩
  rw [← s'.height?_part, hpart, s.height?_part]

/-- A pair that two chains have. -/
def sharedPair : Pair where
  contract := "terra1pair"
  share := "terra1share"
  first := "uluna"
  second := "terra1token"

/-- Calls of two chains; the second one skips a block at first. -/
def sharedCalls : List (String × StoreCall) :=
  [("phoenix-1", .syncedHeight), ("pisco-1", .syncedHeight),
    ("phoenix-1", .insert 1 [] [] [sharedPair]), ("pisco-1", .insert 2 [] [] [sharedPair]),
    ("pisco-1", .insert 1 [] [] [sharedPair]), ("phoenix-1", .add (.exemption "terra1pair")),
    ("pisco-1", .ask .exemptions), ("pisco-1", .ask .registry), ("phoenix-1", .commit)]

/-- The second chain is refused the block that it skips to, and has the pair that the first one
has. -/
theorem shared_pair_isolated :
    (∀ answer ∈ (performAll sharedCalls (.on {})).1, IsKept answer.2) ∧
      (performAll (ofChain "pisco-1" sharedCalls) (.on {})).1 =
        [("pisco-1", .ok (.height 0)), ("pisco-1", .error (.noPredecessor "pisco-1" 2)),
          ("pisco-1", .ok .done), ("pisco-1", .ok (.contracts [])),
          ("pisco-1", .ok (.registry (.ofList [sharedPair])))] := by
  have hkept : ∀ answer ∈ (performAll sharedCalls (.on {})).1, IsKept answer.2 := by decide +kernel
  refine ⟨hkept, ?_⟩
  rw [(chains_isolated {} "pisco-1" sharedCalls hkept).1]
  decide +kernel

end PoolLedger
