import Mathlib.Data.List.Forall2
import Mathlib.Data.List.Perm.Basic

/- Computations that may fail. One that succeeds is opened into the computations it is put together
   from, in the order in which they ran. -/
namespace DataLayer.Outcome
variable {ε α β : Type}

theorem bind_eq_ok {x : Except ε α} {f : α → Except ε β} {b : β} :
    x >>= f = .ok b ↔ ∃ a, x = .ok a ∧ f a = .ok b := by
  cases x <;> simp [bind, Except.bind]

theorem bind_ok {x : Except ε α} {f : α → Except ε β} {a : α} {b : β} (first : x = .ok a)
    (rest : f a = .ok b) : x >>= f = .ok b :=
  bind_eq_ok.mpr ⟨a, first, rest⟩

theorem pure_eq_ok {a b : α} : (pure a : Except ε α) = .ok b ↔ a = b := by
  simp [pure, Except.pure]

theorem throw_ne_ok {e : ε} {b : α} : (throw e : Except ε α) ≠ .ok b := by
  simp [throw, throwThe, MonadExceptOf.throw]

theorem map_eq_ok {x : Except ε α} {f : α → β} {b : β} :
    x.map f = .ok b ↔ ∃ a, x = .ok a ∧ f a = b := by
  cases x <;> simp [Except.map]

theorem map_eq_error {x : Except ε α} {f : α → β} {e : ε} :
    x.map f = .error e ↔ x = .error e := by
  cases x <;> simp [Except.map]

theorem bind_pure_eq_error {x : Except ε α} {f : α → β} {e : ε} :
    (x >>= fun a => pure (f a)) = .error e ↔ x = .error e := by
  cases x <;> simp [bind, Except.bind, pure, Except.pure]

theorem mapResult_bind {γ : Type} {x : Except ε α} {f : α → Except ε β} {g : β → γ} :
    (x >>= f).map g = x >>= fun a => (f a).map g := by
  cases x <;> rfl

theorem bind_mapResult {γ : Type} {x : Except ε α} {f : α → β} {g : β → Except ε γ} :
    x.map f >>= g = x >>= fun a => g (f a) := by
  cases x <;> rfl

theorem mapResult_pure {a : α} {f : α → β} : (pure a : Except ε α).map f = pure (f a) := rfl

theorem mapResult_mapM {γ : Type} {f : α → Except ε β} {g : β → γ} {xs : List α} :
    (xs.mapM f).map (List.map g) = xs.mapM fun x => (f x).map g := by
  induction xs with
  | nil => rfl
  | cons x xs ih =>
    simp only [List.mapM_cons, ← ih, mapResult_bind, bind_mapResult, mapResult_pure, List.map_cons]

theorem mapError_eq_ok {φ : Type} {x : Except ε α} {f : ε → φ} {a : α} :
    x.mapError f = .ok a ↔ x = .ok a := by
  cases x <;> simp [Except.mapError]

theorem eq_ok_of_toOption {x : Except ε α} {a : α} (some : x.toOption = some a) : x = .ok a := by
  cases x with
  | error e => simp [Except.toOption] at some
  | ok b =>
    simp only [Except.toOption, Option.some.injEq] at some
    rw [some]

theorem mapM_eq_ok {f : α → Except ε β} {xs : List α} {ys : List β} :
    xs.mapM f = .ok ys ↔ List.Forall₂ (fun x y => f x = .ok y) xs ys := by
  induction xs generalizing ys with
  | nil => cases ys <;> simp [pure_eq_ok]
  | cons x xs ih =>
    rw [List.mapM_cons, bind_eq_ok, List.forall₂_cons_left_iff]
    constructor
    · rintro ⟨y, head, run⟩
      obtain ⟨rest, tail, same⟩ := bind_eq_ok.mp run
      exact ⟨y, rest, head, ih.mp tail, (pure_eq_ok.mp same).symm⟩
    · rintro ⟨y, rest, head, tail, rfl⟩
      exact ⟨y, head, bind_eq_ok.mpr ⟨rest, ih.mpr tail, rfl⟩⟩

theorem forM_eq_ok {f : α → Except ε Unit} {xs : List α} :
    xs.forM f = .ok () ↔ ∀ x ∈ xs, f x = .ok () := by
  induction xs with
  | nil => simp [List.forM, pure, Except.pure]
  | cons x xs ih =>
    have open_cons : (x :: xs).forM f = (f x >>= fun _ => xs.forM f) := rfl
    rw [open_cons, bind_eq_ok]
    constructor
    · rintro ⟨_, head, tail⟩ y mem
      rcases List.mem_cons.mp mem with rfl | mem
      · exact head
      · exact ih.mp tail y mem
    · intro each
      exact ⟨_, each x (by simp), ih.mpr fun y mem => each y (by simp [mem])⟩

theorem bind_congr {x : Except ε α} {f g : α → Except ε β} (same : ∀ a, x = .ok a → f a = g a) :
    x >>= f = x >>= g := by
  cases run : x with
  | error e => rfl
  | ok a => exact same a run

theorem mapM_congr {f g : α → Except ε β} {xs : List α} (same : ∀ x ∈ xs, f x = g x) :
    xs.mapM f = xs.mapM g := by
  induction xs with
  | nil => rfl
  | cons x xs ih =>
    rw [List.mapM_cons, List.mapM_cons, same x List.mem_cons_self,
      ih fun y mem => same y (List.mem_cons_of_mem _ mem)]

theorem forM_congr {f g : α → Except ε Unit} {xs : List α} (same : ∀ x ∈ xs, f x = g x) :
    xs.forM f = xs.forM g := by
  induction xs with
  | nil => rfl
  | cons x xs ih =>
    have tail := ih fun y mem => same y (List.mem_cons_of_mem _ mem)
    change (f x >>= fun _ => xs.forM f) = (g x >>= fun _ => xs.forM g)
    rw [same x List.mem_cons_self, tail]

theorem exists_left_of_mem {R : α → β → Prop} {xs : List α} {ys : List β}
    (each : List.Forall₂ R xs ys) {y : β} (mem : y ∈ ys) : ∃ x ∈ xs, R x y := by
  induction each with
  | nil => simp at mem
  | cons head _ ih =>
    rcases List.mem_cons.mp mem with rfl | mem
    · exact ⟨_, by simp, head⟩
    · obtain ⟨x, there, related⟩ := ih mem
      exact ⟨x, by simp [there], related⟩

theorem exists_right_of_mem {R : α → β → Prop} {xs : List α} {ys : List β}
    (each : List.Forall₂ R xs ys) {x : α} (mem : x ∈ xs) : ∃ y ∈ ys, R x y :=
  exists_left_of_mem (R := fun y x => R x y) each.flip mem

theorem forall_mem_iff_of_forall₂ {R : α → β → Prop} {P : α → Prop} {Q : β → Prop} {xs : List α}
    {ys : List β} (each : List.Forall₂ R xs ys) (alike : ∀ x y, R x y → (Q y ↔ P x)) :
    (∀ y ∈ ys, Q y) ↔ ∀ x ∈ xs, P x := by
  induction each with
  | nil => simp
  | cons here _ ih => rw [List.forall_mem_cons, List.forall_mem_cons, ih, alike _ _ here]

theorem map_eq_map_of_forall₂ {γ : Type} {f : α → γ} {g : β → γ} {xs : List α} {ys : List β}
    (each : List.Forall₂ (fun x y => f x = g y) xs ys) : xs.map f = ys.map g := by
  rw [← List.forall₂_eq_eq_eq, List.forall₂_map_left_iff, List.forall₂_map_right_iff]
  exact each

theorem perm_of_forall₂ {R : α → β → Prop} (unique : Relator.RightUnique R) {xs us : List α}
    {ys vs : List β} (order : xs.Perm us) (here : List.Forall₂ R xs ys)
    (there : List.Forall₂ R us vs) : ys.Perm vs := by
  obtain ⟨ws, given, moved⟩ := List.perm_comp_forall₂ order there
  have same : ys = ws := unique.forall₂ here given
  exact same ▸ moved

/-- A fold whose every step adds one element at the end of what it builds. -/
theorem foldlM_appends {σ : Type} {step : σ → α → Except ε σ} (view : σ → List β)
    (added : α → β → Prop)
    (appends : ∀ {s a t}, step s a = .ok t → ∃ b, added a b ∧ view t = view s ++ [b])
    {xs : List α} {s t : σ} (run : xs.foldlM step s = .ok t) :
    ∃ ys, List.Forall₂ added xs ys ∧ view t = view s ++ ys := by
  induction xs generalizing s with
  | nil =>
    cases pure_eq_ok.mp run
    exact ⟨[], .nil, by simp⟩
  | cons x xs ih =>
    rw [List.foldlM_cons] at run
    obtain ⟨middle, first, rest⟩ := bind_eq_ok.mp run
    obtain ⟨y, here, one⟩ := appends first
    obtain ⟨ys, there, all⟩ := ih rest
    exact ⟨y :: ys, .cons here there, by simp [all, one]⟩

/-- A fold that gets through if every step keeps what the elements left ask of it. -/
theorem foldlM_reaches {σ : Type} {step : σ → α → Except ε σ} (Admits : σ → List α → Prop)
    (each : ∀ {s a rest}, Admits s (a :: rest) → ∃ t, step s a = .ok t ∧ Admits t rest)
    {xs : List α} {s : σ} (start : Admits s xs) :
    ∃ t, xs.foldlM step s = .ok t ∧ Admits t [] := by
  induction xs generalizing s with
  | nil => exact ⟨s, rfl, start⟩
  | cons x xs ih =>
    obtain ⟨next, first, admits⟩ := each start
    obtain ⟨t, rest, reached⟩ := ih admits
    exact ⟨t, by rw [List.foldlM_cons, bind_ok first rest], reached⟩

def FailsOnly (P : ε → Prop) (x : Except ε α) : Prop := ∀ e, x = .error e → P e

section FailsOnly
variable {P : ε → Prop}

theorem failsOnly_ok (a : α) : FailsOnly P (.ok a : Except ε α) := by
  intro e failed
  contradiction

theorem failsOnly_error {e : ε} (allowed : P e) : FailsOnly P (.error e : Except ε α) := by
  intro other failed
  cases failed
  exact allowed

theorem failsOnly_bind {x : Except ε α} {f : α → Except ε β} (first : FailsOnly P x)
    (rest : ∀ a, x = .ok a → FailsOnly P (f a)) : FailsOnly P (x >>= f) := by
  intro e failed
  cases run : x with
  | error other =>
    rw [run] at failed
    cases failed
    exact first e run
  | ok a =>
    rw [run] at failed
    exact rest a run e failed

theorem failsOnly_map {x : Except ε α} (first : FailsOnly P x) (f : α → β) :
    FailsOnly P (x.map f) := by
  intro e failed
  cases run : x with
  | error other =>
    rw [run] at failed
    cases failed
    exact first e run
  | ok a =>
    rw [run] at failed
    contradiction

theorem failsOnly_mapM {f : α → Except ε β} {xs : List α} (each : ∀ x ∈ xs, FailsOnly P (f x)) :
    FailsOnly P (xs.mapM f) := by
  induction xs with
  | nil => exact failsOnly_ok []
  | cons x xs ih =>
    rw [List.mapM_cons]
    refine failsOnly_bind (each x List.mem_cons_self) fun y _ => ?_
    refine failsOnly_bind (ih fun z mem => each z (List.mem_cons_of_mem _ mem)) fun ys _ => ?_
    exact failsOnly_ok _

end FailsOnly

def Succeeds (x : Except ε α) : Prop := ∃ a, x = .ok a

section Succeeds

theorem succeeds_ok (a : α) : Succeeds (.ok a : Except ε α) := ⟨a, rfl⟩

theorem not_succeeds_error (e : ε) : ¬ Succeeds (.error e : Except ε α) := by
  rintro ⟨a, same⟩
  contradiction

theorem failsOnly_of_succeeds {P : ε → Prop} {x : Except ε α} (succeeds : Succeeds x) :
    FailsOnly P x := by
  obtain ⟨a, rfl⟩ := succeeds
  exact failsOnly_ok a

theorem succeeds_bind {x : Except ε α} {f : α → Except ε β} :
    Succeeds (x >>= f) ↔ ∃ a, x = .ok a ∧ Succeeds (f a) := by
  simp only [Succeeds, bind_eq_ok]
  constructor
  · rintro ⟨b, a, first, rest⟩
    exact ⟨a, first, b, rest⟩
  · rintro ⟨a, first, b, rest⟩
    exact ⟨b, a, first, rest⟩

theorem succeeds_bind_of_eq_ok {x : Except ε α} {f : α → Except ε β} {a : α} (first : x = .ok a) :
    Succeeds (x >>= f) ↔ Succeeds (f a) := by
  rw [first]
  rfl

/-- Where what follows depends on nothing that has been computed, each part has to succeed. -/
theorem succeeds_bind_of_iff {x : Except ε α} {f : α → Except ε β} {p : Prop}
    (rest : ∀ a, x = .ok a → (Succeeds (f a) ↔ p)) : Succeeds (x >>= f) ↔ Succeeds x ∧ p := by
  rw [succeeds_bind]
  constructor
  · rintro ⟨a, first, after⟩
    exact ⟨⟨a, first⟩, (rest a first).mp after⟩
  · rintro ⟨⟨a, first⟩, after⟩
    exact ⟨a, first, (rest a first).mpr after⟩

theorem succeeds_bind_pure {x : Except ε α} {f : α → β} :
    Succeeds (x >>= fun a => pure (f a)) ↔ Succeeds x := by
  have rest : ∀ a, x = .ok a → (Succeeds (pure (f a) : Except ε β) ↔ True) :=
    fun a _ => iff_true_intro (succeeds_ok (f a))
  rw [succeeds_bind_of_iff rest, and_true]

theorem succeeds_map {x : Except ε α} {f : α → β} : Succeeds (x.map f) ↔ Succeeds x := by
  simp [Succeeds, map_eq_ok]

theorem succeeds_mapM {f : α → Except ε β} {xs : List α} :
    Succeeds (xs.mapM f) ↔ ∀ x ∈ xs, Succeeds (f x) := by
  induction xs with
  | nil => exact iff_of_true (succeeds_ok []) (by simp)
  | cons x xs ih =>
    have rest : ∀ y, f x = .ok y →
        (Succeeds (xs.mapM f >>= fun ys => pure (y :: ys)) ↔ ∀ z ∈ xs, Succeeds (f z)) :=
      fun y _ => succeeds_bind_pure.trans ih
    rw [List.mapM_cons, succeeds_bind_of_iff rest, List.forall_mem_cons]

theorem mapM_eq_error {f : α → Except ε β} {xs : List α} {e : ε} :
    xs.mapM f = .error e ↔ ∃ before x behind, xs = before ++ x :: behind ∧
      (∀ y ∈ before, Succeeds (f y)) ∧ f x = .error e := by
  induction xs with
  | nil => simp [pure, Except.pure]
  | cons first rest ih =>
    cases run : f first with
    | error other =>
      have failed : (first :: rest).mapM f = .error other := by rw [List.mapM_cons, run]; rfl
      rw [failed]
      constructor
      · intro same
        cases same
        exact ⟨[], first, rest, rfl, by simp, run⟩
      · rintro ⟨before, x, behind, whole, fine, fails⟩
        cases before with
        | nil =>
          cases whole
          rw [run, Except.error.injEq] at fails
          rw [fails]
        | cons y before =>
          cases whole
          have fine := fine first List.mem_cons_self
          rw [run] at fine
          exact absurd fine (not_succeeds_error other)
    | ok b =>
      have later : (first :: rest).mapM f = .error e ↔ rest.mapM f = .error e := by
        rw [List.mapM_cons, run]
        exact bind_pure_eq_error
      rw [later, ih]
      constructor
      · rintro ⟨before, x, behind, rfl, fine, fails⟩
        refine ⟨first :: before, x, behind, rfl, ?_, fails⟩
        exact List.forall_mem_cons.mpr ⟨⟨b, run⟩, fine⟩
      · rintro ⟨before, x, behind, whole, fine, fails⟩
        cases before with
        | nil =>
          cases whole
          rw [run] at fails
          contradiction
        | cons y before =>
          cases whole
          exact ⟨before, x, behind, rfl, (List.forall_mem_cons.mp fine).2, fails⟩

end Succeeds

end DataLayer.Outcome
