import PoolLedger.Proofs.Sync.ExactlyOnce
import PoolLedger.Source.Script

/-!
# Validation is not skipped

Validation follows upon the writing of a block, so a failure in between leaves a block that has not
been validated. `checked_before_next` says that the next block is not written before that has been
made up for, in whatever order runs fail and are started anew. Every step keeps that: what is
written has been checked for (`Follower.Step`), and the rest writes nothing.
-/

namespace PoolLedger

variable {σ : Type}

/-! ## What comes before a moment -/

/-- Something holds of every moment of a journal and those before it. -/
def Always (P : List Moment → Moment → Prop) (journal : List Moment) : Prop :=
  ∀ before m after, journal = before ++ m :: after → P before m

namespace Always

variable {P : List Moment → Moment → Prop} {journal : List Moment}

theorem nil : Always P [] := by
  intro before m after h
  exact absurd h.symm (List.append_ne_nil_of_right_ne_nil _ (List.cons_ne_nil _ _))

theorem append {more : List Moment} (h : Always P journal)
    (hmore : ∀ m ∈ more, ∀ before, P before m) : Always P (journal ++ more) := by
  intro before m after heq
  rcases List.append_eq_append_iff.1 heq with ⟨_, -, hmem⟩ | ⟨rest, hjournal, hrest⟩
  · exact hmore m (hmem ▸ List.mem_append_right _ List.mem_cons_self) before
  · cases rest with
    | nil =>
      rw [List.nil_append] at hrest
      exact hmore m (hrest ▸ List.mem_cons_self) before
    | cons m' rest =>
      obtain ⟨rfl, -⟩ := List.cons.inj hrest
      exact h before m rest hjournal

theorem concat {m : Moment} (h : Always P journal) (hm : P journal m) :
    Always P (journal ++ [m]) := by
  intro before m' after heq
  rcases List.eq_nil_or_concat after with rfl | ⟨after, last, rfl⟩
  · obtain ⟨rfl, hlast⟩ := List.append_inj' heq rfl
    exact List.singleton_inj.1 hlast ▸ hm
  · rw [List.concat_eq_append, ← List.cons_append, ← List.append_assoc] at heq
    exact h before m' after (List.append_inj' heq rfl).1

end Always

namespace Follower

/-- If a block is written, and validation was due at the height before, that has been done. -/
def ChecksFirst (f : Follower σ) (before : List Moment) (m : Moment) : Prop :=
  ∀ height, m.deed = .wrote (height + 1) → f.IsDue height → f.Checked height before

theorem Reached.always_checksFirst {f : Follower σ} {s : Store} {journal : List Moment}
    (h : f.Reached s journal) : Always f.ChecksFirst journal := by
  induction h with
  | start => exact .nil
  | opened _ ih => exact ih.concat nofun
  | step _ hstep ih =>
    -- Only the step that writes has something to show, and it carries the check.
    cases hstep with
    | plain _ _ _ hmore =>
      refine ih.append ?_
      intro m hm before height hdeed
      have hplain := (hmore m hm).2
      rw [hdeed] at hplain
      exact hplain.elim
    | @validated _ _ outcome =>
      refine ih.concat ?_
      intro height hdeed
      cases outcome <;> cases hdeed
    | @wrote height _ _ _ _ _ _ _ hchecked =>
      refine ih.concat ?_
      intro height' hdeed
      have hheight : height = height' := by
        have hsucc := Deed.wrote.inj hdeed
        omega
      exact hheight ▸ hchecked

/-- A block that the journal tells is written is one of those up to the height of the store. -/
theorem Synced.le_of_wrote {f : Follower σ} {s : Store} {reached height : Int}
    {journal : List Moment} {m : Moment} (h : f.Synced reached s journal) (hm : m ∈ journal)
    (hdeed : m.deed = .wrote height) : height ≤ reached := by
  have hmem : height ∈ heightsUpTo reached := by
    rw [← h.writes]
    exact List.mem_filterMap.2 ⟨m, hm, by rw [hdeed]; rfl⟩
  obtain ⟨n, hn, rfl⟩ := List.mem_map.1 hmem
  have hlt := List.mem_range.1 hn
  omega

/-- The turn in which a block is written leads to a store that holds it. -/
theorem at_of_wrote (f : Follower σ) (source : σ) (turns : List (Turn σ)) {height : Int}
    {m : Moment} (hm : m ∈ (f.history source turns).journal) (hdeed : m.deed = .wrote height) :
    ∃ reached, height ≤ reached ∧ f.At reached (f.worldAfter source turns).store := by
  have hreached := f.reached_history source turns
  rw [world_history] at hreached
  rcases hreached.synced with ⟨-, hnil⟩ | ⟨reached, hsynced⟩
  · rw [hnil] at hm
    cases hm
  · exact ⟨reached, hsynced.le_of_wrote hm hdeed, hsynced.progress⟩

/-- **A block is not written before the one ahead of it has been validated, if that was due.** In
every history of runs the journal up to there tells, within the same run, which pools the source
gave at the height ahead for exactly the pairs then in the store, and that these pools were
validated against all blocks up to there, with nothing wrong about them. That run is the one of some
turn, in the world that the turns before lead to: its part of the journal holds the listing, the
validation and the writing, and in the end the store is at the height that is written or beyond. -/
theorem checked_before_next (f : Follower σ) (source : σ) (turns : List (Turn σ)) {height : Int}
    {before after : List Moment} {store : Store}
    (hwrote : (f.history source turns).journal =
      before ++ { deed := .wrote (height + 1), store } :: after)
    (hdue : f.policy.validationInterval ∣ height) :
    ∃ earlier turn later early middle late listedAt validatedAt pools,
      before = early ++
        { deed := .listed height (validatedAt.registry f.chain).pairs pools, store := listedAt } ::
        (middle ++ { deed := .validated 0 height pools, store := validatedAt } :: late) ∧
      (∀ m ∈ middle ++ late, ¬m.deed.IsOpening) ∧
      f.At height validatedAt ∧
      (∃ s, (f.source.pools height (validatedAt.registry f.chain).pairs s).1 = .ok pools) ∧
      (∃ w w', f.validate 0 height pools w = (.ok (), w') ∧ w'.store = validatedAt) ∧
      turns = earlier ++ turn :: later ∧
      (f.history source earlier).journal <+: early ∧
      before ++ [{ deed := .wrote (height + 1), store }] <+:
        (f.history source (earlier ++ [turn])).journal ∧
      (f.history source (earlier ++ [turn])).world =
        (f.run (turn.enter (f.worldAfter source earlier))).2 ∧
      ∃ reached, height + 1 ≤ reached ∧
        f.At reached (f.run (turn.enter (f.worldAfter source earlier))).2.store := by
  have hreached := f.reached_history source turns
  have hchecked : f.Checked height before :=
    hreached.always_checksFirst before _ after hwrote height rfl hdue
  obtain ⟨earlier, turn, later, opening, hturns, hopening, hbegun, hnoted⟩ :=
    f.exists_run_of_journal source turns (m := { deed := .wrote (height + 1), store }) id hwrote
  obtain ⟨_, late, validatedAt, pools, rfl, hlate, hat, early, middle, listedAt, rfl, hmiddle⟩ :=
    hchecked
  have hwitnessed := hreached.witnessed
  rw [hwrote] at hwitnessed
  have hsame : ∀ m ∈ middle ++ late, ¬m.deed.IsOpening := by
    intro m hm
    exact (List.mem_append.1 hm).elim (hmiddle m) (hlate m)
  refine ⟨earlier, turn, later, early, middle, late, listedAt, validatedAt, pools, by simp, hsame,
    hat, ?_, ?_, hturns, ?_, hnoted, ?_, ?_⟩
  · exact hwitnessed ⟨.listed height (validatedAt.registry f.chain).pairs pools, listedAt⟩ (by simp)
  · exact hwitnessed ⟨.validated 0 height pools, validatedAt⟩ (by simp)
  · -- Nothing from the listing on opens a run, so the opening of this one comes before it.
    rw [List.append_assoc] at hbegun
    refine (List.prefix_append _ [opening]).trans (prefix_of_not_mem hbegun ?_)
    intro hmem
    simp only [List.cons_append, List.mem_cons, List.mem_append] at hmem
    rcases hmem with rfl | hmem | rfl | hmem
    · exact hopening
    · exact hmiddle opening hmem hopening
    · exact hopening
    · exact hlate opening hmem hopening
  · rw [world_history, worldAfter_append]
  · rw [← worldAfter_append]
    have hmem := hnoted.subset (List.mem_append_right _ (List.mem_singleton_self _))
    exact f.at_of_wrote source (earlier ++ [turn]) hmem rfl

end Follower

/-! A chain whose first block creates a pair, and a follower that validates after every block. -/

/-- A transaction in which the factory announces a pair. -/
def creatingTx : RawTx where
  hash := "A1"
  sender := "terra1user"
  entries := [{
    kind := "wasm"
    attributes := [⟨"_contract_address", "terra1factory"⟩, ⟨"action", "create_pair"⟩,
      ⟨"pair", "uluna-terra1token"⟩, ⟨"_contract_address", "terra1pair"⟩,
      ⟨"liquidity_token_addr", "terra1share"⟩] }]

/-- The pool of the new pair, which is empty. -/
def createdPool : Pool where
  contract := "terra1pair"
  assets := [{ addr := "uluna", amount := "0" }, { addr := "terra1token", amount := "0" }]

def creatingSource : ScriptedSource where
  height := 2
  blocks := [("1", some [creatingTx])]
  pools := [("1", [createdPool]), ("2", [createdPool])]

def carefulFollower : Follower ScriptedSource where
  profile := {
    deployment := .phoenix, chainId := "phoenix-1", factory := "terra1factory"
    factory_ne := by decide }
  source := ScriptedSource.source
  policy := { validationInterval := 1 }

def creatingJournal : List Moment :=
  (carefulFollower.history {} [{ source := creatingSource }]).journal

/-- The second block of the sample is the tenth moment, and the first has been validated by then. -/
theorem checked_before_second :
    carefulFollower.policy.validationInterval ∣ 1 ∧
      ∃ before store after, creatingJournal = before ++ { deed := .wrote (1 + 1), store } :: after ∧
        ∃ m ∈ before, ∃ pools, m.deed = .validated 0 1 pools ∧ carefulFollower.At 1 m.store := by
  have hdue : carefulFollower.policy.validationInterval ∣ 1 := by decide
  have hwrote : creatingJournal = creatingJournal.take 9 ++
      { deed := .wrote (1 + 1), store := (creatingJournal[9]?.map (·.store)).getD {} } ::
      creatingJournal.drop 10 := by decide +kernel
  obtain ⟨_, _, _, early, middle, late, listedAt, validatedAt, pools, hbefore, -, hat, -⟩ :=
    carefulFollower.checked_before_next {} [{ source := creatingSource }] hwrote hdue
  refine ⟨hdue, _, _, _, hwrote, ⟨.validated 0 1 pools, validatedAt⟩, ?_, pools, rfl, hat⟩
  rw [hbefore]
  simp

end PoolLedger
