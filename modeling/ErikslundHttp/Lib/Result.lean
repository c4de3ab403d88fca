import Mathlib.Logic.Basic

/-!
# Computations that may fail

`Except ε` models the source's `std::expected`.  `ensure` and `orFail` are the two ways a check
ends a computation early; the lemmas below say when a computation succeeds, so that a success can
be taken apart step by step.  A loop of steps that may fail is `List.foldlM` over `Option`.
-/

namespace ErikslundHttp

variable {ε α β : Type}

/-- Fail with `error` unless `condition` holds. -/
def ensure (condition : Bool) (error : ε) : Except ε Unit :=
  if condition then .ok () else .error error

/-- The value of an option, or the failure `error`. -/
def orFail (error : ε) : Option α → Except ε α
  | some value => .ok value
  | none => .error error

@[simp] theorem bind_eq_ok {x : Except ε α} {f : α → Except ε β} {b : β} :
    (x >>= f) = .ok b ↔ ∃ a, x = .ok a ∧ f a = .ok b := by
  cases x <;> simp [Bind.bind, Except.bind]

/-- A step that answers nothing. -/
theorem unit_bind_eq_ok {x : Except ε Unit} {f : Unit → Except ε β} {b : β} :
    (x >>= f) = .ok b ↔ x = .ok () ∧ f () = .ok b := by
  cases x <;> simp [Bind.bind, Except.bind]

@[simp] theorem ensure_eq_ok {condition : Bool} {error : ε} {u : Unit} :
    ensure condition error = .ok u ↔ condition = true := by
  cases condition <;> simp [ensure]

@[simp] theorem orFail_eq_ok {error : ε} {x : Option α} {a : α} :
    orFail error x = .ok a ↔ x = some a := by
  cases x <;> simp [orFail]

@[simp] theorem pure_eq_ok {a b : α} : (pure a : Except ε α) = .ok b ↔ a = b := by
  simp [pure, Except.pure]

@[simp] theorem map_eq_ok {x : Except ε α} {f : α → β} {b : β} :
    x.map f = .ok b ↔ ∃ a, x = .ok a ∧ f a = b := by
  cases x <;> simp [Except.map]

@[simp] theorem map_eq_error {x : Except ε α} {f : α → β} {e : ε} :
    x.map f = .error e ↔ x = .error e := by
  cases x <;> simp [Except.map]

theorem ok_bind (a : α) (f : α → Except ε β) : (Except.ok a >>= f) = f a := rfl

theorem map_bind_eq {γ : Type} (x : Except ε α) (f : α → Except ε β) (g : β → γ) :
    (x >>= f).map g = x >>= fun a => (f a).map g := by
  cases x <;> rfl

theorem bind_map_eq {γ : Type} (x : Except ε α) (f : α → β) (g : β → Except ε γ) :
    x.map f >>= g = x >>= fun a => g (f a) := by
  cases x <;> rfl

/-! ### Loops -/

theorem exists_mapM_eq_ok_iff {f : α → Except ε β} {items : List α} :
    (∃ results, items.mapM f = .ok results) ↔ ∀ item ∈ items, ∃ result, f item = .ok result := by
  induction items with
  | nil => simp
  | cons item items ih =>
    rw [List.forall_mem_cons, ← ih]
    simp only [List.mapM_cons, bind_eq_ok, pure_eq_ok]
    constructor
    · rintro ⟨_, result, hresult, results, hresults, -⟩
      exact ⟨⟨result, hresult⟩, results, hresults⟩
    · rintro ⟨⟨result, hresult⟩, results, hresults⟩
      exact ⟨_, result, hresult, results, hresults, rfl⟩

/-- The results are those of the items. -/
theorem exists_mem_of_mapM_eq_ok_iff {f : α → Except ε β} {items : List α} {results : List β}
    (h : items.mapM f = .ok results) (P : β → Prop) :
    (∃ result ∈ results, P result) ↔ ∃ item ∈ items, ∃ result, f item = .ok result ∧ P result := by
  induction items generalizing results with
  | nil =>
    simp only [List.mapM_nil, pure_eq_ok] at h
    simp [← h]
  | cons item items ih =>
    simp only [List.mapM_cons, bind_eq_ok, pure_eq_ok] at h
    obtain ⟨result, hresult, results, hresults, rfl⟩ := h
    simp [ih hresults, hresult]

theorem mapM_eq_ok_nil_iff {f : α → Except ε β} {items : List α} {results : List β}
    (h : items.mapM f = .ok results) : results = [] ↔ items = [] := by
  cases items with
  | nil =>
    simp only [List.mapM_nil, pure_eq_ok] at h
    simp [← h]
  | cons item items =>
    simp only [List.mapM_cons, bind_eq_ok, pure_eq_ok] at h
    obtain ⟨result, -, results, -, rfl⟩ := h
    simp

theorem forM_eq_ok_iff {f : α → Except ε Unit} {items : List α} :
    forM items f = .ok () ↔ ∀ item ∈ items, f item = .ok () := by
  induction items with
  | nil => simp
  | cons item items ih =>
    rw [List.forM_cons, bind_eq_ok, List.forall_mem_cons, ← ih]
    exact ⟨fun ⟨_, hitem, hitems⟩ => ⟨hitem, hitems⟩, fun ⟨hitem, hitems⟩ => ⟨(), hitem, hitems⟩⟩

/-! ### Errors that cannot come up -/

/-- The computation does not fail with `error`. -/
def Avoids (error : ε) (x : Except ε α) : Prop := x ≠ .error error

theorem avoids_ok (error : ε) (a : α) : Avoids error (.ok a) := nofun

theorem avoids_pure (error : ε) (a : α) : Avoids error (pure a : Except ε α) := nofun

theorem avoids_error {error error' : ε} (h : error' ≠ error) :
    Avoids error (.error error' : Except ε α) := fun heq => h (Except.error.inj heq)

theorem avoids_ensure {error error' : ε} (h : error' ≠ error) (condition : Bool) :
    Avoids error (ensure condition error') := by
  cases condition with
  | true => exact avoids_ok error ()
  | false => exact avoids_error h

theorem avoids_orFail {error error' : ε} (h : error' ≠ error) (x : Option α) :
    Avoids error (orFail error' x) := by
  cases x with
  | none => exact avoids_error h
  | some a => exact avoids_ok error a

theorem Avoids.bind {error : ε} {x : Except ε α} (hx : Avoids error x) {f : α → Except ε β}
    (hf : ∀ a, Avoids error (f a)) : Avoids error (x >>= f) := by
  cases x with
  | error e => exact avoids_error fun he => hx (congrArg Except.error he)
  | ok a => exact hf a

theorem map_pure_eq (a : α) (g : α → β) : (pure a : Except ε α).map g = pure (g a) := rfl

/-! ### Loops -/

/-- What the steps of a loop keep, the loop keeps. -/
theorem foldlM_invariant {I : β → Prop} {f : β → α → Option β} {items : List α}
    (hf : ∀ s, ∀ x ∈ items, ∀ s', I s → f s x = some s' → I s') {s s' : β} (hs : I s)
    (h : items.foldlM f s = some s') : I s' := by
  induction items generalizing s with
  | nil =>
    cases h
    exact hs
  | cons x items ih =>
    rw [List.foldlM_cons, Option.bind_eq_bind, Option.bind_eq_some_iff] at h
    obtain ⟨s₁, hstep, hrest⟩ := h
    refine ih (fun s y hy => hf s y (List.mem_cons_of_mem x hy)) ?_ hrest
    exact hf s x List.mem_cons_self s₁ hs hstep

/-! ### Computations that throw

A member function may throw, and its object is then as the writes before that have left it. -/

variable {σ : Type}

/-- A computation on a state; what it has written stays when it throws. -/
abbrev Throwing (ε σ : Type) := ExceptT ε (StateM σ)

/-- What a call answers, and the state it leaves, if it writes nothing before it throws. -/
def answered (s : σ) : Except ε (α × σ) → Except ε α × σ
  | .ok (a, s') => (.ok a, s')
  | .error e => (.error e, s)

theorem run_getThe_bind (s : σ) (f : σ → Throwing ε σ α) :
    (getThe σ >>= f).run.run s = (f s).run.run s := rfl

theorem run_liftM_bind (s : σ) (x : Except ε α) (f : α → Throwing ε σ β)
    (g : α → Except ε (β × σ)) (h : ∀ a, (f a).run.run s = answered s (g a)) :
    ((liftM x : Throwing ε σ α) >>= f).run.run s = answered s (x >>= g) := by
  cases x with
  | ok a => exact h a
  | error e => rfl

theorem run_map_of_answered {s : σ} {x : Throwing ε σ α} {y : Except ε (α × σ)}
    (h : x.run.run s = answered s y) (f : α → β) :
    (f <$> x).run.run s = answered s (y.map fun (a, s') => (f a, s')) := by
  rw [ExceptT.run_map, StateT.run_map, h]
  cases y <;> rfl

end ErikslundHttp
