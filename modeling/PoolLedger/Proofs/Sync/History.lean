import PoolLedger.Proofs.Sync.Walk

/-!
# What holds in every history

A run opens the chain and goes by steps from there (`path_of_run`). However many runs there
were, wherever they failed, and whether or not the follower was started anew in between: a
history is `Reached` by opening runs and taking steps (`reached_history`), and what both
keep holds in every history.

`Reached.witnessed` is the first use: the journal is to be trusted.
-/

namespace PoolLedger

variable {σ α : Type}

namespace Follower

variable {f : Follower σ} {t : Trail σ}

/-! ## Opening a run -/

/-- No chain has been followed yet, or only that of the follower. -/
def Sound (f : Follower σ) (s : Store) : Prop :=
  s.progress = [] ∨ ∃ height, f.At height s

theorem At.syncedHeight_eq {s : Store} (hat : f.At height s) :
    s.syncedHeight f.chain = (height, s) := by
  have hheight : s.height? f.chain = some height := by
    rw [Store.height?, hat, List.find?_singleton, if_pos (beq_self_eq_true f.chain)]
    rfl
  rw [Store.syncedHeight, hheight]

theorem syncedHeight_of_progress_nil {s : Store} (h : s.progress = []) (chain : String) :
    s.syncedHeight chain = (0, { s with progress := [{ chain, height := 0 }] }) := by
  rw [Store.syncedHeight, Store.height?, h]
  rfl

/-- The trail when a run has been opened. -/
def opened (f : Follower σ) (t : Trail σ) : Trail σ where
  world := { t.world with store := (t.world.store.syncedHeight f.chain).2 }
  journal := t.journal ++ [{
    deed := .opened (t.world.store.syncedHeight f.chain).1
    store := (t.world.store.syncedHeight f.chain).2 }]

theorem journaledRun_eq (f : Follower σ) (t : Trail σ) :
    f.journaledRun t = f.journaledRest (t.world.store.syncedHeight f.chain).1 (f.opened t) := by
  have hopen : noted f.openChain (fun height => some (.opened height)) t =
      (.ok (t.world.store.syncedHeight f.chain).1, f.opened t) := noted_ok rfl
  rw [journaledRun, run_bind, hopen]

theorem Sound.at_opened {s : Store} (h : f.Sound s) :
    f.At (s.syncedHeight f.chain).1 (s.syncedHeight f.chain).2 := by
  rcases h with hnil | ⟨height, hat⟩
  · rw [syncedHeight_of_progress_nil hnil]
    rfl
  · rw [hat.syncedHeight_eq]
    exact hat

theorem Step.at_left {t' : Trail σ} (h : f.Step t t') : ∃ height, f.At height t.world.store := by
  cases h with
  | plain hat => exact ⟨_, hat⟩
  | validated hat => exact ⟨_, hat⟩
  | wrote hat => exact ⟨_, hat⟩

theorem Step.at_right {t' : Trail σ} (h : f.Step t t') : ∃ height, f.At height t'.world.store := by
  cases h with
  | @plain height _ _ hat hsame => exact ⟨height, hsame.progress.trans hat⟩
  | @validated height _ _ _ hat _ hstep =>
    exact ⟨height, (sameBlocks_of_validate hstep).progress.trans hat⟩
  | @wrote height _ _ _ _ _ _ hat _ _ _ _ hinsert => exact ⟨height + 1, (hat.insert hinsert).2⟩

theorem walks_opened (h : f.Sound t.world.store) :
    f.Walks (f.journaledRest (t.world.store.syncedHeight f.chain).1) (f.opened t) fun _ t' =>
      ∃ remote, (f.source.height t.world.source).1 = .ok remote ∧ f.At remote t'.world.store := by
  have hat : f.At (t.world.store.syncedHeight f.chain).1 (f.opened t).world.store := h.at_opened
  exact walks_rest hat

/-- **What a run does after it has been opened.** -/
theorem path_of_run (h : f.Sound t.world.store) :
    Relation.ReflTransGen f.Step (f.opened t) (f.journaledRun t).2 := by
  rw [journaledRun_eq]
  exact (walks_opened h).1

theorem at_of_run (h : f.Sound t.world.store) :
    ∃ height, f.At height (f.journaledRun t).2.world.store := by
  rcases Relation.ReflTransGen.cases_tail (path_of_run h) with heq | ⟨t', -, hstep⟩
  · rw [heq]
    exact ⟨_, h.at_opened⟩
  · exact hstep.at_right

/-- A run that succeeds leaves the store at the height that the source told. -/
theorem at_of_run_eq_ok (h : f.Sound t.world.store) {world : World σ}
    (hrun : f.run t.world = (.ok (), world)) :
    ∃ remote, (f.source.height t.world.source).1 = .ok remote ∧
      f.At remote (f.journaledRun t).2.world.store := by
  have hforget := f.reports_run.forgets t
  rw [hrun] at hforget
  have hok : (f.journaledRun t).1 = .ok () := congrArg Prod.fst hforget
  rw [journaledRun_eq] at hok ⊢
  exact (walks_opened h).2 () _ (Prod.ext hok rfl)

theorem Step.exists_more {t' : Trail σ} (h : f.Step t t') :
    ∃ more, t'.journal = t.journal ++ more ∧ ∀ m ∈ more, m.store = t'.world.store := by
  cases h with
  | plain _ _ _ hmore => exact ⟨_, rfl, fun m hm => (hmore m hm).1⟩
  | validated => exact ⟨_, rfl, fun m hm => by rw [List.mem_singleton.1 hm]⟩
  | wrote => exact ⟨_, rfl, fun m hm => by rw [List.mem_singleton.1 hm]⟩

theorem Step.prefix_journal {t' : Trail σ} (h : f.Step t t') : t.journal <+: t'.journal := by
  obtain ⟨more, hjournal, -⟩ := h.exists_more
  exact ⟨more, hjournal.symm⟩

/-- A run notes that it is opened, and goes on from there. -/
theorem prefix_opened_of_run (h : f.Sound t.world.store) :
    (f.opened t).journal <+: (f.journaledRun t).2.journal := by
  have hpath := path_of_run h
  generalize (f.journaledRun t).2 = t' at hpath ⊢
  induction hpath with
  | refl => exact List.prefix_refl _
  | tail _ hstep ih => exact ih.trans hstep.prefix_journal

theorem prefix_journal_of_run (h : f.Sound t.world.store) :
    t.journal <+: (f.journaledRun t).2.journal :=
  (List.prefix_append _ _).trans (prefix_opened_of_run h)

/-! ## What can be reached -/

/-- The stores and journals that come about when runs are opened and go by steps,
beginning with an empty store. -/
inductive Reached (f : Follower σ) : Store → List Moment → Prop
  | start : Reached f {} []
  | opened {s : Store} {journal : List Moment} :
      Reached f s journal → Reached f (s.syncedHeight f.chain).2 (journal ++ [{
        deed := .opened (s.syncedHeight f.chain).1, store := (s.syncedHeight f.chain).2 }])
  | step {t t' : Trail σ} :
      Reached f t.world.store t.journal → f.Step t t' → Reached f t'.world.store t'.journal

variable {s : Store} {journal : List Moment}

theorem Reached.sound (h : f.Reached s journal) : f.Sound s := by
  induction h with
  | start => exact .inl rfl
  | opened _ ih => exact .inr ⟨_, ih.at_opened⟩
  | step _ hstep => exact .inr hstep.at_right

theorem Reached.run (h : f.Reached t.world.store t.journal) :
    f.Reached (f.journaledRun t).2.world.store (f.journaledRun t).2.journal := by
  have hpath := path_of_run h.sound
  generalize (f.journaledRun t).2 = t' at hpath ⊢
  induction hpath with
  | refl => exact h.opened
  | tail _ hstep ih => exact ih.step hstep

/-- What is noted is noted with a store that is reached. -/
theorem Reached.of_mem (h : f.Reached s journal) {m : Moment} (hm : m ∈ journal) :
    ∃ before, f.Reached m.store before := by
  induction h with
  | start => cases hm
  | opened hreached ih =>
    rcases List.mem_append.1 hm with hm | hm
    · exact ih hm
    · rw [List.mem_singleton.1 hm]
      exact ⟨_, hreached.opened⟩
  | step hreached hstep ih =>
    obtain ⟨more, hjournal, hmore⟩ := hstep.exists_more
    rw [hjournal] at hm
    rcases List.mem_append.1 hm with hm | hm
    · exact ih hm
    · rw [hmore m hm]
      exact ⟨_, hreached.step hstep⟩

/-- **Every history is reached.** -/
theorem reached_history (f : Follower σ) (source : σ) (turns : List (Turn σ)) :
    f.Reached (f.history source turns).world.store (f.history source turns).journal := by
  induction turns using List.reverseRecOn with
  | nil => exact .start
  | append_singleton turns turn ih =>
    rw [← turn.enter_store] at ih
    rw [history_append]
    exact ih.run (t := { f.history source turns with
      world := turn.enter (f.history source turns).world })

/-- The last run of a history begins in the world that the runs before lead to. -/
theorem exists_last_run (f : Follower σ) (source : σ) (turns : List (Turn σ)) (turn : Turn σ) :
    ∃ t : Trail σ, t.world = turn.enter (f.worldAfter source turns) ∧
      t.journal = (f.history source turns).journal ∧ f.Reached t.world.store t.journal ∧
      f.history source (turns ++ [turn]) = (f.journaledRun t).2 := by
  refine ⟨{ f.history source turns with world := turn.enter (f.history source turns).world },
    ?_, rfl, ?_, f.history_append source turns turn⟩
  · rw [world_history]
  · show f.Reached (turn.enter (f.history source turns).world).store _
    rw [turn.enter_store]
    exact f.reached_history source turns

/-! ## The run that notes a moment -/

/-- What begins with some entries up to one that a later part does not hold begins with
them before that part. -/
theorem prefix_of_not_mem {as bs cs : List α} {a : α} (h : as ++ [a] <+: bs ++ cs) (ha : a ∉ cs) :
    as ++ [a] <+: bs := by
  rcases List.prefix_or_prefix_of_prefix h (List.prefix_append bs cs) with hle | hle
  · exact hle
  rcases List.prefix_concat_iff.1 hle with rfl | ⟨ds, rfl⟩
  · exact List.prefix_refl _
  · rw [List.append_assoc, List.prefix_append_right_inj] at h
    exact absurd (h.subset (List.mem_append_right ds (List.mem_singleton_self a))) ha

/-- Each turn adds to the journal, its opening first. -/
theorem exists_opening (f : Follower σ) (source : σ) (turns : List (Turn σ)) (turn : Turn σ) :
    ∃ opening, opening.deed.IsOpening ∧ (f.history source turns).journal ++ [opening] <+:
      (f.history source (turns ++ [turn])).journal := by
  obtain ⟨t, -, hjournal, hstart, hlast⟩ := f.exists_last_run source turns turn
  have hopened := prefix_opened_of_run hstart.sound
  rw [← hlast, opened, hjournal] at hopened
  refine ⟨_, ?_, hopened⟩
  trivial

/-- A moment of a history belongs to one of its runs: it comes after the opening of the run, if it
is not that, and is noted by the end of the run. -/
theorem exists_run_of_journal (f : Follower σ) (source : σ) (turns : List (Turn σ)) {m : Moment}
    {before after : List Moment} (hm : ¬m.deed.IsOpening)
    (h : (f.history source turns).journal = before ++ m :: after) :
    ∃ earlier turn later opening, turns = earlier ++ turn :: later ∧ opening.deed.IsOpening ∧
      (f.history source earlier).journal ++ [opening] <+: before ∧
      before ++ [m] <+: (f.history source (earlier ++ [turn])).journal := by
  induction turns using List.reverseRecOn generalizing after with
  | nil => exact absurd h.symm (List.append_ne_nil_of_right_ne_nil _ (List.cons_ne_nil _ _))
  | append_singleton turns turn ih =>
    obtain ⟨opening, hopening, hopened⟩ := f.exists_opening source turns turn
    have hnoted : before ++ [m] <+: (f.history source (turns ++ [turn])).journal :=
      ⟨after, by rw [h, List.append_assoc, List.singleton_append]⟩
    have hne : before ++ [m] ≠ (f.history source turns).journal ++ [opening] := fun heq =>
      hm (List.singleton_inj.1 (List.append_inj' heq rfl).2 ▸ hopening)
    -- Either the moment is noted before the last run is opened, or that run notes it.
    rcases List.prefix_or_prefix_of_prefix hnoted hopened with hle | hle
    · obtain ⟨rest, hrest⟩ := (List.prefix_concat_iff.1 hle).resolve_left hne
      rw [List.append_assoc, List.singleton_append] at hrest
      obtain ⟨earlier, turn', later, opening', rfl, hrun⟩ := ih hrest.symm
      exact ⟨earlier, turn', later ++ [turn], opening', by simp, hrun⟩
    · have hbefore := (List.prefix_concat_iff.1 hle).resolve_left hne.symm
      exact ⟨turns, turn, [], opening, rfl, hopening, hbefore, hnoted⟩

/-! ## What the journal tells -/

/-- What a moment tells has happened: the source did give the answer, and the
validation did succeed. -/
def Witnessed (f : Follower σ) (m : Moment) : Prop :=
  match m.deed with
  | .told height => ∃ s, (f.source.height s).1 = .ok height
  | .fetched height txs => ∃ s, (f.source.transactions height s).1 = .ok txs
  | .listed height pairs pools => ∃ s, (f.source.pools height pairs s).1 = .ok pools
  | .validated first last pools =>
    ∃ w w', f.validate first last pools w = (.ok (), w') ∧ w'.store = m.store
  | _ => True

theorem IsPlain.witnessed {f : Follower σ} {m : Moment} (h : f.IsPlain m.deed) : f.Witnessed m := by
  unfold Witnessed
  unfold IsPlain at h
  cases hdeed : m.deed <;> rw [hdeed] at h <;> first | exact h | trivial

/-- **What the journal tells has happened.** -/
theorem Reached.witnessed (h : f.Reached s journal) : ∀ m ∈ journal, f.Witnessed m := by
  induction h with
  | start => exact nofun
  | opened _ ih =>
    intro m hm
    rcases List.mem_append.1 hm with hm | hm
    · exact ih m hm
    · rw [List.mem_singleton.1 hm]
      trivial
  | @step t t' _ hstep ih =>
    intro m hm
    by_cases hold : m ∈ t.journal
    · exact ih m hold
    -- What is new in the journal is witnessed by the step that adds it.
    cases hstep with
    | plain _ _ _ hmore => exact (hmore m ((List.mem_append.1 hm).resolve_left hold)).2.witnessed
    | @validated height pools outcome world _ _ hvalidate =>
      obtain rfl := List.mem_singleton.1 ((List.mem_append.1 hm).resolve_left hold)
      cases outcome with
      | error e => trivial
      | ok _ => exact ⟨_, world, hvalidate, rfl⟩
    | wrote =>
      obtain rfl := List.mem_singleton.1 ((List.mem_append.1 hm).resolve_left hold)
      trivial

end Follower

end PoolLedger
