import Mathlib.Data.List.DropRight
import PoolLedger.Proofs.Sync.Quiet
import PoolLedger.Proofs.Sync.Validated

/-!
# When the source has stalled

A follower keeps only the height that the source reported last and how many times in a row it was
reported again. That is enough to know how long the run of equal heights at the end of all
reports is (`streak`, `World.Counts`), also after a failure, since a follower that gives up has
counted the report first.

`stalls_iff_last_heights_equal` says what this comes to: with a tolerance of `t` a report is one too
many exactly if the last `t + 2` heights, its own included, are the same.
-/

namespace PoolLedger

variable {σ : Type} {heights : List Int} {height other : Int}

/-! ## Runs of equal heights -/

/-- How often a height is repeated at the end of some heights. -/
def streak (height : Int) (heights : List Int) : ℕ :=
  (heights.rtakeWhile (· = height)).length

@[simp]
theorem streak_nil (height : Int) : streak height [] = 0 := rfl

theorem streak_concat (height last : Int) (heights : List Int) :
    streak height (heights ++ [last]) = if last = height then streak height heights + 1 else 0 := by
  unfold streak
  rw [List.rtakeWhile_concat]
  split_ifs with h h' h'
  · exact List.length_append
  · exact absurd (of_decide_eq_true h) h'
  · exact absurd (decide_eq_true h') h
  · rfl

@[simp]
theorem streak_concat_self (height : Int) (heights : List Int) :
    streak height (heights ++ [height]) = streak height heights + 1 := by
  rw [streak_concat, if_pos rfl]

theorem streak_concat_of_ne (h : other ≠ height) : streak other (heights ++ [height]) = 0 := by
  rw [streak_concat, if_neg h.symm]

theorem streak_append_replicate (height : Int) (heights : List Int) (k : ℕ) :
    streak height (heights ++ List.replicate k height) = streak height heights + k := by
  induction k with
  | zero => rw [List.replicate_zero, List.append_nil, Nat.add_zero]
  | succ k ih => rw [List.replicate_succ', ← List.append_assoc, streak_concat_self, ih,
    Nat.add_assoc]

/-- A positive height is repeated at the end if it is the last one. -/
theorem streak_pos_iff (hheight : 0 < height) :
    0 < streak height heights ↔ height = heights.getLastD 0 := by
  induction heights using List.reverseRecOn with
  | nil => simp [Int.ne_of_gt hheight]
  | append_singleton heights last _ =>
    rw [streak_concat, List.getLastD_concat]
    split_ifs with h
    · simp [h]
    · simp [Ne.symm h]

/-- How long a run is can be told from the heights that are last. -/
theorem le_streak_iff {k : ℕ} :
    k ≤ streak height heights ↔ k ≤ heights.length ∧ ∀ h ∈ heights.rtake k, h = height := by
  induction heights using List.reverseRecOn generalizing k with
  | nil => simp
  | append_singleton heights last ih =>
    cases k with
    | zero => simp
    | succ k =>
      rw [streak_concat, List.rtake_concat_succ, List.length_append, List.length_singleton]
      split_ifs with h
      · rw [Nat.add_le_add_iff_right, Nat.add_le_add_iff_right, ih]
        simp [h, or_imp]
      · refine iff_of_false (Nat.not_succ_le_zero k) fun hall => h (hall.2 last ?_)
        exact List.mem_append_right _ (List.mem_singleton_self last)

/-! ## What a follower counts -/

/-- What a follower knows of the heights that were reported since it was started. -/
structure World.Counts (w : World σ) (heights : List Int) : Prop where
  last : w.lastHeight = heights.getLastD 0
  same : w.sameCount = (streak w.lastHeight heights - 1 : ℕ)

variable {w : World σ}

theorem World.counts_restarted (w : World σ) : w.restarted.Counts [] where
  last := rfl
  same := rfl

namespace World.Counts

theorem again (hw : w.Counts heights) (hsame : height = w.lastHeight)
    (hrun : 0 < streak height heights) :
    w.sameCount + 1 = streak height heights ∧
    World.Counts { w with sameCount := w.sameCount + 1 } (heights ++ [height]) := by
  subst hsame
  have hcount : w.sameCount + 1 = streak w.lastHeight heights := by
    rw [hw.same]
    omega
  refine ⟨hcount, List.getLastD_concat.symm, ?_⟩
  show w.sameCount + 1 = (streak w.lastHeight (heights ++ [w.lastHeight]) - 1 : ℕ)
  rw [hcount, streak_concat_self, Nat.add_sub_cancel]

theorem anew (hrun : streak height heights = 0) :
    World.Counts { w with sameCount := 0, lastHeight := height } (heights ++ [height]) := by
  refine ⟨List.getLastD_concat.symm, ?_⟩
  show (0 : ℤ) = (streak height (heights ++ [height]) - 1 : ℕ)
  rw [streak_concat_self, hrun]
  rfl

end World.Counts

namespace Follower

/-- The world after some heights have been reported, whatever came of taking note of them. -/
def noteHeights (f : Follower σ) (heights : List Int) (w : World σ) : World σ :=
  heights.foldl (fun w height => (f.noteHeight height w).2) w

/-- What comes of taking note of a height after others. -/
def outcomeAfter (f : Follower σ) (before : List Int) (height : Int) (w : World σ) :
    Except SyncError Unit :=
  (f.noteHeight height (f.noteHeights before w)).1

variable {f : Follower σ}

theorem noteHeights_concat : f.noteHeights (heights ++ [height]) w =
    (f.noteHeight height (f.noteHeights heights w)).2 := by
  rw [noteHeights, noteHeights, List.foldl_concat]

/-- A follower that counts has counted the next height as well, and fails if the run is too long. -/
theorem noteHeight_of_counts (hw : w.Counts heights) (hheight : 0 < height)
    (htolerance : 0 ≤ f.policy.tolerance) :
    (f.noteHeight height w).1 =
      (if f.policy.tolerance < streak height heights then
        .error (.stalled height (streak height heights))
      else .ok ()) ∧
    (f.noteHeight height w).2.Counts (heights ++ [height]) := by
  have hpos : 0 < streak height heights ↔ height = w.lastHeight := by
    rw [hw.last]
    exact streak_pos_iff hheight
  rw [noteHeight_eq]
  by_cases hsame : height = w.lastHeight
  · obtain ⟨hcount, hcounts⟩ := hw.again hsame (hpos.2 hsame)
    rw [hcount] at hcounts
    rw [if_pos hsame, hcount]
    split_ifs
    · exact ⟨rfl, hcounts⟩
    · exact ⟨rfl, hcounts⟩
  · have hrun : streak height heights = 0 := Nat.eq_zero_of_not_pos (mt hpos.1 hsame)
    rw [if_neg hsame, hrun, if_neg (by omega)]
    exact ⟨rfl, .anew hrun⟩

/-- Whatever has been reported, the follower has counted it. -/
theorem counts_noteHeights (htolerance : 0 ≤ f.policy.tolerance) (hpos : ∀ h ∈ heights, 0 < h) :
    (f.noteHeights heights w.restarted).Counts heights := by
  induction heights using List.reverseRecOn with
  | nil => exact w.counts_restarted
  | append_singleton heights height ih =>
    have hbefore := ih fun h hmem => hpos h (List.mem_append_left _ hmem)
    rw [noteHeights_concat]
    exact (noteHeight_of_counts hbefore (hpos height (by simp)) htolerance).2

theorem outcomeAfter_eq (htolerance : 0 ≤ f.policy.tolerance) (hpos : ∀ h ∈ heights, 0 < h)
    (hheight : 0 < height) : f.outcomeAfter heights height w.restarted =
      if f.policy.tolerance < streak height heights then
        .error (.stalled height (streak height heights))
      else .ok () :=
  (noteHeight_of_counts (counts_noteHeights htolerance hpos) hheight htolerance).1

theorem outcomeAfter_eq_error (htolerance : 0 ≤ f.policy.tolerance) (hpos : ∀ h ∈ heights, 0 < h)
    (hheight : 0 < height) {e : SyncError} : f.outcomeAfter heights height w.restarted = .error e ↔
      f.policy.tolerance < streak height heights ∧ e = .stalled height (streak height heights) := by
  rw [outcomeAfter_eq htolerance hpos hheight]
  split_ifs with h
  · simp [h, eq_comm]
  · simp [h]

/-- **A follower gives up exactly if the last heights have all been the same**, two more of them
than it tolerates. Then it gives up again as long as the height stays the same, and starts to count
anew with the first other height, be it higher or lower. -/
theorem stalls_iff_last_heights_equal (f : Follower σ) (t : ℕ) (htolerance : f.policy.tolerance = t)
    (w : World σ) (before : List Int) (height : Int) (hpos : ∀ h ∈ before ++ [height], 0 < h) :
    ((∃ e, f.outcomeAfter before height w.restarted = .error e) ↔
      t + 2 ≤ (before ++ [height]).length ∧ ∀ h ∈ (before ++ [height]).rtake (t + 2), h = height) ∧
    (∀ e, f.outcomeAfter before height w.restarted = .error e →
      e = .stalled height (streak height before) ∧
      ∀ k, ∃ e', f.outcomeAfter (before ++ List.replicate (k + 1) height) height w.restarted =
        .error e') ∧
    (∀ other, 0 < other → other ≠ height →
      f.outcomeAfter (before ++ [height]) other w.restarted = .ok () ∧
      (f.noteHeights (before ++ [height, other]) w.restarted).sameCount = 0) := by
  have hnonneg : 0 ≤ f.policy.tolerance := htolerance ▸ Int.natCast_nonneg t
  have hbefore : ∀ h ∈ before, 0 < h := fun h hmem => hpos h (List.mem_append_left _ hmem)
  have hheight : 0 < height := hpos height (by simp)
  -- All three parts come down to the counter, which is the number of equal heights at the end.
  have hfails {k : ℕ} :
      (∃ e, f.outcomeAfter (before ++ List.replicate k height) height w.restarted = .error e) ↔
        t < streak height before + k := by
    have hpos' : ∀ h ∈ before ++ List.replicate k height, 0 < h := fun h hmem =>
      (List.mem_append.1 hmem).elim (hbefore h) fun hsame =>
        List.eq_of_mem_replicate hsame ▸ hheight
    simp only [outcomeAfter_eq_error hnonneg hpos' hheight, exists_and_left, exists_eq, and_true,
      htolerance, streak_append_replicate, Int.ofNat_lt]
  have hfails₀ : (∃ e, f.outcomeAfter before height w.restarted = .error e) ↔
      t < streak height before := by
    simpa using hfails (k := 0)
  refine ⟨?_, fun e he => ⟨?_, fun k => ?_⟩, fun other hother hne => ?_⟩
  · rw [hfails₀, ← le_streak_iff, streak_concat_self]
    omega
  · exact ((outcomeAfter_eq_error hnonneg hbefore hheight).1 he).2
  · have hlong := hfails₀.1 ⟨e, he⟩
    exact hfails.2 (by omega)
  · have hzero : streak other (before ++ [height]) = 0 := streak_concat_of_ne hne
    have hcounts : (f.noteHeights (before ++ [height, other]) w.restarted).Counts
        (before ++ [height, other]) :=
      counts_noteHeights hnonneg (by simpa [or_imp, forall_and, hheight, hother] using hbefore)
    refine ⟨?_, ?_⟩
    · rw [outcomeAfter_eq hnonneg hpos hother, hzero]
      exact if_neg (by simpa using hnonneg)
    · have hlast : (before ++ [height, other]).getLastD 0 = other := by simp
      have hsnoc : before ++ [height, other] = before ++ [height] ++ [other] := by simp
      rw [hcounts.same, hcounts.last, hlast, hsnoc, streak_concat_self, hzero]
      rfl

/-- A height is reported five times in a row where three repetitions are tolerated. -/
theorem carefulFollower_gives_up :
    carefulFollower.policy.tolerance = (3 : ℕ) ∧ (∀ h ∈ ([4, 5, 5, 5, 5, 5] : List Int), 0 < h) ∧
    carefulFollower.outcomeAfter [4, 5, 5, 5, 5] 5 (World.restarted { source := creatingSource }) =
      .error (.stalled 5 4) := by
  have hpos : ∀ h ∈ ([4, 5, 5, 5, 5, 5] : List Int), 0 < h := by decide
  obtain ⟨hgives, hcause, -⟩ :=
    stalls_iff_last_heights_equal carefulFollower 3 rfl { source := creatingSource }
    [4, 5, 5, 5, 5] 5 hpos
  obtain ⟨e, he⟩ := hgives.2 ⟨by decide, by decide⟩
  have hstreak : streak 5 [4, 5, 5, 5, 5] = 4 := by decide
  rw [(hcause e he).1, hstreak] at he
  exact ⟨rfl, hpos, he⟩

end Follower

end PoolLedger
