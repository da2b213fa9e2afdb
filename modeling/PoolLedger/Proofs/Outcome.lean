import Mathlib.Data.List.Forall2
import PoolLedger.Reading.Transfer

/-!
# Outcomes

Steps of the library either fail or give a value, and some of them carry a state along. What a
compound step gives is known from its parts: `bind_eq_ok` takes a step apart that only fails,
`run_bind_eq_ok` one with a state. `mapM_eq_ok`, `mapM_eq_error` and `run_mapM_mem` do so for steps
taken over a list. A step whose outcome does not depend on the state is `Steady`.

In what ways a compound step can fail is known from its parts too (`FailsOnly`, `RunFailsOnly`).
-/

namespace PoolLedger

variable {α β ε σ : Type}

/-! ## Steps that may fail -/

theorem bind_eq_ok {x : Except ε α} {k : α → Except ε β} {b : β} :
    x >>= k = .ok b ↔ ∃ a, x = .ok a ∧ k a = .ok b := by
  cases x with
  | error e => simp [bind, Except.bind]
  | ok a => simp [bind, Except.bind]

theorem bind_eq_error {x : Except ε α} {k : α → Except ε β} {e : ε} :
    x >>= k = .error e ↔ x = .error e ∨ ∃ a, x = .ok a ∧ k a = .error e := by
  cases x with
  | error e' => simp [bind, Except.bind]
  | ok a => simp [bind, Except.bind]

theorem pure_eq_ok {a b : α} : (pure a : Except ε α) = .ok b ↔ a = b := by
  simp [pure, Except.pure]

theorem eq_ok_getD {x : Except ε α} {a : α} (h : x.toOption.isSome) :
    x = .ok (x.toOption.getD a) := by
  cases x with
  | error e => cases h
  | ok a => rfl

theorem guard_eq_ok {c : Prop} [Decidable c] {e : ε} {k : PUnit → Except ε α} {a : α} :
    (if c then throw e >>= k else k ⟨⟩) = .ok a ↔ ¬c ∧ k ⟨⟩ = .ok a := by
  by_cases h : c
  · rw [if_pos h, bind_eq_ok]
    exact ⟨fun ⟨_, hthrow, _⟩ => (nomatch hthrow), fun hk => absurd h hk.1⟩
  · rw [if_neg h, and_iff_right h]

theorem mapError_eq_ok {ε' : Type} {x : Except ε α} {g : ε → ε'} {a : α} :
    x.mapError g = .ok a ↔ x = .ok a := by
  cases x <;> simp [Except.mapError]

theorem mapError_eq_error {ε' : Type} {x : Except ε α} {g : ε → ε'} {e' : ε'} :
    x.mapError g = .error e' ↔ ∃ e, x = .error e ∧ g e = e' := by
  cases x <;> simp [Except.mapError]

theorem map_eq_ok {x : Except ε α} {g : α → β} {b : β} :
    x.map g = .ok b ↔ ∃ a, x = .ok a ∧ g a = b := by
  cases x <;> simp [Except.map]

/-- Steps over a list succeed together when each of them does. -/
theorem mapM_eq_ok {k : α → Except ε β} {l : List α} {bs : List β} :
    l.mapM k = .ok bs ↔ List.Forall₂ (fun a b => k a = .ok b) l bs := by
  induction l generalizing bs with
  | nil => rw [List.mapM_nil, pure_eq_ok, List.forall₂_nil_left_iff, eq_comm]
  | cons a l ih =>
    simp only [List.mapM_cons, bind_eq_ok, ih, pure_eq_ok]
    constructor
    · rintro ⟨b, hb, bs', hbs, rfl⟩
      exact .cons hb hbs
    · rintro (_ | ⟨hb, hbs⟩)
      exact ⟨_, hb, _, hbs, rfl⟩

theorem mapM_cons_eq_ok {k : α → Except ε β} {a : α} {l : List α} {bs : List β} :
    (a :: l).mapM k = .ok bs ↔ ∃ b, k a = .ok b ∧ ∃ bs', l.mapM k = .ok bs' ∧ b :: bs' = bs := by
  simp only [List.mapM_cons, bind_eq_ok, pure_eq_ok]

/-- Steps over a list fail at the first one that does. -/
theorem mapM_eq_error {k : α → Except ε β} {l : List α} {e : ε} :
    l.mapM k = .error e ↔ ∃ before a after, l = before ++ a :: after ∧
      (∀ a' ∈ before, ∃ b, k a' = .ok b) ∧ k a = .error e := by
  induction l with
  | nil =>
    rw [List.mapM_nil]
    constructor
    · nofun
    · rintro ⟨before, a, after, hsplit, -⟩
      simp at hsplit
  | cons a l ih =>
    simp only [List.mapM_cons, bind_eq_error, ih]
    constructor
    · rintro (ha | ⟨b, hb, ⟨before, a', after, rfl, hbefore, ha'⟩ | ⟨bs, -, hpure⟩⟩)
      · exact ⟨[], a, l, rfl, nofun, ha⟩
      · exact ⟨a :: before, a', after, rfl, List.forall_mem_cons.2 ⟨⟨b, hb⟩, hbefore⟩, ha'⟩
      · cases hpure
    · rintro ⟨_ | ⟨first, before⟩, a', after, hsplit, hbefore, ha'⟩
      · cases hsplit
        exact .inl ha'
      · cases hsplit
        obtain ⟨⟨b, hb⟩, hbefore⟩ := List.forall_mem_cons.1 hbefore
        exact .inr ⟨b, hb, .inl ⟨before, a', after, rfl, hbefore, ha'⟩⟩

/-- Steps in two parts over a list succeed when the first parts do and then the second ones. -/
theorem mapM_bind_eq_ok {γ : Type} {k : α → Except ε β} {k' : β → Except ε γ} {l : List α}
    {cs : List γ} :
    (l.mapM fun a => k a >>= k') = .ok cs ↔ ∃ bs, l.mapM k = .ok bs ∧ bs.mapM k' = .ok cs := by
  induction l generalizing cs with
  | nil => simp [pure_eq_ok]
  | cons a l ih =>
    simp only [mapM_cons_eq_ok, bind_eq_ok, ih]
    constructor
    · rintro ⟨c, ⟨b, hb, hc⟩, cs, ⟨bs, hbs, hcs⟩, rfl⟩
      exact ⟨b :: bs, ⟨b, hb, bs, hbs, rfl⟩, mapM_cons_eq_ok.2 ⟨c, hc, cs, hcs, rfl⟩⟩
    · rintro ⟨_, ⟨b, hb, bs, hbs, rfl⟩, h⟩
      obtain ⟨c, hc, cs, hcs, rfl⟩ := mapM_cons_eq_ok.1 h
      exact ⟨c, ⟨b, hb, hc⟩, cs, ⟨bs, hbs, hcs⟩, rfl⟩

/-- What the steps keep of their items, they keep of the list. -/
theorem map_eq_of_mapM_eq_ok {γ : Type} {k : α → Except ε β} {l : List α} {bs : List β}
    {name : α → γ} {name' : β → γ} (hk : ∀ a b, k a = .ok b → name' b = name a)
    (h : l.mapM k = .ok bs) : bs.map name' = l.map name := by
  rw [mapM_eq_ok] at h
  induction h with
  | nil => rfl
  | cons hab _ ih => rw [List.map_cons, List.map_cons, hk _ _ hab, ih]

/-- Steps that succeed alike, item by item, succeed alike over the lists. -/
theorem mapM_eq_ok_congr {k : α → Except ε β} {l l' : List α}
    (h : List.Forall₂ (fun a a' => ∀ b, k a = .ok b ↔ k a' = .ok b) l l') (bs : List β) :
    l.mapM k = .ok bs ↔ l'.mapM k = .ok bs := by
  induction h generalizing bs with
  | nil => rfl
  | cons hab _ ih => simp only [mapM_cons_eq_ok, hab, ih]

theorem mapM_congr_of_forall₂ {m : Type → Type} [Monad m] [LawfulMonad m] {k : α → m β}
    {l l' : List α} (h : List.Forall₂ (fun a a' => k a = k a') l l') : l.mapM k = l'.mapM k := by
  induction h with
  | nil => rfl
  | cons hab _ ih =>
    simp only [List.mapM_cons]
    rw [hab, ih]

theorem exists_of_mem_mapM {k : α → Except ε β} {l : List α} {bs : List β} (h : l.mapM k = .ok bs)
    {b : β} (hb : b ∈ bs) : ∃ a ∈ l, k a = .ok b := by
  rw [mapM_eq_ok] at h
  induction h with
  | nil => cases hb
  | @cons a b' l bs hab _ ih =>
    rcases List.mem_cons.1 hb with rfl | hb
    · exact ⟨a, List.mem_cons_self, hab⟩
    · obtain ⟨a', ha', hk⟩ := ih hb
      exact ⟨a', List.mem_cons_of_mem _ ha', hk⟩

theorem exists_of_mapM_eq_ok {k : α → Except ε β} {l : List α} {bs : List β} (h : l.mapM k = .ok bs)
    {a : α} (ha : a ∈ l) : ∃ b, k a = .ok b := by
  rw [mapM_eq_ok] at h
  induction h with
  | nil => cases ha
  | cons hab _ ih =>
    rcases List.mem_cons.1 ha with rfl | ha
    · exact ⟨_, hab⟩
    · exact ih ha

theorem exists_mapM_eq_ok {k : α → Except ε β} {l : List α} (h : ∀ a ∈ l, ∃ b, k a = .ok b) :
    ∃ bs, l.mapM k = .ok bs := by
  induction l with
  | nil => exact ⟨[], rfl⟩
  | cons a l ih =>
    obtain ⟨b, hb⟩ := h a List.mem_cons_self
    obtain ⟨bs, hbs⟩ := ih fun a ha => h a (List.mem_cons_of_mem _ ha)
    exact ⟨b :: bs, mapM_eq_ok.2 (.cons hb (mapM_eq_ok.1 hbs))⟩

/-! ## Steps that may fail and carry a state -/

/-- A step is followed by the next one only if it succeeds; the state is kept in either case. -/
theorem run_bind (m : ExceptT ε (StateM σ) α) (k : α → ExceptT ε (StateM σ) β) (s : σ) :
    (m >>= k) s = match m s with
      | (.ok a, s₁) => k a s₁
      | (.error e, s₁) => (.error e, s₁) := by
  show (match m s with | (a, s₁) => ExceptT.bindCont k a s₁) = _
  rcases m s with ⟨_ | _, _⟩ <;> rfl

theorem run_map (g : α → β) (m : ExceptT ε (StateM σ) α) (s : σ) :
    (g <$> m) s = ((m s).1.map g, (m s).2) := by
  show (m >>= fun a => pure (g a)) s = _
  rw [run_bind]
  rcases m s with ⟨_ | _, _⟩ <;> rfl

theorem run_get (s : σ) : (get : ExceptT ε (StateM σ) σ) s = (.ok s, s) := rfl

theorem run_bind_eq_ok {m : ExceptT ε (StateM σ) α} {k : α → ExceptT ε (StateM σ) β} {s s' : σ}
    {b : β} :
    (m >>= k) s = (.ok b, s') ↔ ∃ a s₁, m s = (.ok a, s₁) ∧ k a s₁ = (.ok b, s') := by
  rw [run_bind]
  rcases m s with ⟨e | a, s₁⟩
  · exact ⟨nofun, fun ⟨_, _, h, _⟩ => nomatch h⟩
  · exact ⟨fun h => ⟨a, s₁, rfl, h⟩, fun ⟨_, _, h, hb⟩ => by cases h; exact hb⟩

theorem run_pure_eq_ok {a b : α} {s s' : σ} :
    (pure a : ExceptT ε (StateM σ) α) s = (.ok b, s') ↔ a = b ∧ s = s' := by
  show ((Except.ok a, s) : Except ε α × σ) = _ ↔ _
  simp

theorem run_lift_eq_ok {x : Except ε α} {b : α} {s s' : σ} :
    (liftM x : ExceptT ε (StateM σ) α) s = (.ok b, s') ↔ x = .ok b ∧ s = s' := by
  cases x with
  | error e =>
    show ((Except.error e, s) : Except ε α × σ) = _ ↔ _
    simp
  | ok a =>
    show ((Except.ok a, s) : Except ε α × σ) = _ ↔ _
    simp

theorem lift_bind_of_eq_ok {x : Except ε α} {a : α} (h : x = .ok a)
    (k : α → ExceptT ε (StateM σ) β) :
    (liftM x >>= k) = k a := by
  subst h
  funext s
  rw [run_bind]
  rfl

theorem run_mapM_mem {k : α → ExceptT ε (StateM σ) β} {l : List α} {bs : List β} {s s' : σ}
    (h : l.mapM k s = (.ok bs, s')) {b : β} (hb : b ∈ bs) :
    ∃ a ∈ l, ∃ s₁ s₂, k a s₁ = (.ok b, s₂) := by
  induction l generalizing bs s s' with
  | nil =>
    rw [List.mapM_nil, run_pure_eq_ok] at h
    rw [← h.1] at hb
    cases hb
  | cons a l ih =>
    rw [List.mapM_cons] at h
    obtain ⟨b', s₁, ha, h⟩ := run_bind_eq_ok.1 h
    obtain ⟨bs', s₂, hl, h⟩ := run_bind_eq_ok.1 h
    obtain ⟨rfl, -⟩ := run_pure_eq_ok.1 h
    rcases List.mem_cons.1 hb with rfl | hb
    · exact ⟨a, List.mem_cons_self, s, s₁, ha⟩
    · obtain ⟨a', ha', hk⟩ := ih hl hb
      exact ⟨a', List.mem_cons_of_mem _ ha', hk⟩

/-! ## Outcomes that do not depend on the state -/

/-- Whatever the state, the step comes to the same. -/
def Steady (m : ExceptT ε (StateM σ) α) : Prop :=
  ∀ s s', (m s).1 = (m s').1

/-! ## Steps that fail only in certain ways -/

/-- Whenever the step fails, it fails in one of the given ways. -/
def FailsOnly (P : ε → Prop) (x : Except ε α) : Prop :=
  ∀ e, x = .error e → P e

/-- Whatever the state, the step fails only in one of the given ways. -/
def RunFailsOnly (P : ε → Prop) (m : ExceptT ε (StateM σ) α) : Prop :=
  ∀ s, FailsOnly P (m s).1

variable {ι : Type} {P Q : ε → Prop}

namespace FailsOnly

variable {x : Except ε α} {k : α → Except ε β}

theorem of_eq_ok {a : α} (h : x = .ok a) : FailsOnly P x := fun _ he => nomatch h.symm.trans he

theorem error {e : ε} (h : P e) : FailsOnly P (.error e : Except ε α) :=
  fun _ he => Except.error.inj he ▸ h

theorem mono (h : FailsOnly P x) (hPQ : ∀ e, P e → Q e) : FailsOnly Q x :=
  fun e he => hPQ e (h e he)

theorem bind (hx : FailsOnly P x) (hk : ∀ a, x = .ok a → FailsOnly P (k a)) :
    FailsOnly P (x >>= k) := by
  intro e he
  rcases bind_eq_error.1 he with he | ⟨a, ha, he⟩
  · exact hx e he
  · exact hk a ha e he

/-- What is done with the value in the end cannot fail. -/
theorem bind_pure (hx : FailsOnly P x) (g : α → β) : FailsOnly P (x >>= fun a => pure (g a)) :=
  hx.bind fun _ _ => of_eq_ok rfl

theorem map (hx : FailsOnly P x) (g : α → β) : FailsOnly P (x.map g) := by
  cases x with
  | error e => exact error (hx e rfl)
  | ok a => exact of_eq_ok rfl

theorem mapM {k : ι → Except ε β} {l : List ι} (h : ∀ i ∈ l, FailsOnly P (k i)) :
    FailsOnly P (l.mapM k) := by
  induction l with
  | nil => exact of_eq_ok List.mapM_nil
  | cons i l ih =>
    rw [List.mapM_cons]
    exact (h i List.mem_cons_self).bind fun b _ =>
      (ih fun j hj => h j (List.mem_cons_of_mem _ hj)).bind_pure (b :: ·)

end FailsOnly

namespace RunFailsOnly

variable {m : ExceptT ε (StateM σ) α} {k : α → ExceptT ε (StateM σ) β}

theorem pure (a : α) : RunFailsOnly P (pure a : ExceptT ε (StateM σ) α) := fun _ => .of_eq_ok rfl

theorem bind (hm : RunFailsOnly P m) (hk : ∀ a, RunFailsOnly P (k a)) :
    RunFailsOnly P (m >>= k) := by
  intro s
  have h := hm s
  rw [run_bind]
  cases hrun : m s with
  | mk outcome s' =>
    rw [hrun] at h
    cases outcome with
    | error e => exact .error (h e rfl)
    | ok a => exact hk a s'

theorem lift_bind {x : Except ε α} (hx : FailsOnly P x)
    (hk : ∀ a, x = .ok a → RunFailsOnly P (k a)) :
    RunFailsOnly P (liftM x >>= k) := by
  intro s
  rw [run_bind]
  cases x with
  | error e => exact .error (hx e rfl)
  | ok a => exact hk a rfl s

theorem mapM {k : ι → ExceptT ε (StateM σ) β} {l : List ι} (h : ∀ i ∈ l, RunFailsOnly P (k i)) :
    RunFailsOnly P (l.mapM k) := by
  induction l with
  | nil =>
    rw [List.mapM_nil]
    exact .pure _
  | cons i l ih =>
    rw [List.mapM_cons]
    exact (h i List.mem_cons_self).bind fun _ =>
      (ih fun j hj => h j (List.mem_cons_of_mem _ hj)).bind fun _ => .pure _

end RunFailsOnly

end PoolLedger
