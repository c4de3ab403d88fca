import Mathlib.Logic.Relation

/-!
# Programs over a shared state

A program makes calls, one after the other, and goes on with what each of them answers.  The calls
act on a state that others act on as well, between any two of them.

* `Meets` is what a program keeps to in such company: if the others only do what `rely` allows, then
  every call does what `guar` allows, and the result and the state satisfy `post` in the end and from
  then on.
* `meets_call`: a proof of it goes through the program call by call, with an assertion for the state
  before each that `rely` keeps.
* `Meets.bind`: it composes.
-/

namespace ErikslundHttp

/-- `A c` is what the call `c` may answer. -/
inductive Program {C : Type} (A : C → Type) (α : Type) : Type where
  | done (result : α)
  | call (c : C) (next : A c → Program A α)

namespace Program

variable {C : Type} {A : C → Type} {α β ε : Type}

/-- The program goes on with the result of another. -/
def bind (program : Program A α) (f : α → Program A β) : Program A β :=
  match program with
  | .done result => f result
  | .call c next => .call c fun answer => (next answer).bind f

instance : Monad (Program A) where
  pure := .done
  bind := .bind

/-- Just the call. -/
def request (c : C) : Program A (A c) :=
  .call c .done

theorem run_bind (program : ExceptT ε (Program A) α) (f : α → ExceptT ε (Program A) β) :
    (program >>= f).run = program.run.bind fun
      | .ok result => (f result).run
      | .error error => .done (.error error) := by
  show program.run.bind (ExceptT.bindCont f) = _
  congr 1
  funext result
  cases result with
  | ok => rfl
  | error => rfl

/-! ### Rely and guarantee -/

section

variable {S : Type} (exec : S → (c : C) → A c → S → Prop) (rely guar : S → S → Prop)

/-- Whatever is answered, and whatever others do between the calls, each call is guaranteed and the
result is as it should be. -/
def Meets (post : α → S → Prop) : Program A α → S → Prop
  | .done result, s => ∀ s', Relation.ReflTransGen rely s s' → post result s'
  | .call c next, s => ∀ s₁, Relation.ReflTransGen rely s s₁ → ∀ answer s₂,
      exec s₁ c answer s₂ → guar s₁ s₂ ∧ Meets post (next answer) s₂

/-- What the others cannot make false. -/
def Stable (P : S → Prop) : Prop :=
  ∀ s s', P s → rely s s' → P s'

/-- Some calls of the program, with nobody else there, and the program that is left. -/
inductive Run : Program A α → S → Program A α → S → Prop
  | nil (program : Program A α) (s : S) : Run program s program s
  | call {c : C} {next : A c → Program A α} {program : Program A α} {s s' s'' : S} {answer : A c}
      (hexec : exec s c answer s') (hrest : Run (next answer) s' program s'') :
      Run (.call c next) s program s''

end

variable {S : Type} {exec : S → (c : C) → A c → S → Prop} {rely guar : S → S → Prop}
  {post post' : α → S → Prop} {program : Program A α} {P : S → Prop} {s s' : S}

theorem Stable.run (h : Stable rely P) (hs : P s) (hrely : Relation.ReflTransGen rely s s') :
    P s' := by
  induction hrely with
  | refl => exact hs
  | tail _ hlast ih => exact h _ _ ih hlast

theorem Stable.and {Q : S → Prop} (hP : Stable rely P) (hQ : Stable rely Q) :
    Stable rely fun s => P s ∧ Q s :=
  fun s s' hs hrely => ⟨hP s s' hs.1 hrely, hQ s s' hs.2 hrely⟩

/-! What a program still meets. -/

theorem Meets.of_rely (h : Meets exec rely guar post program s) (hrely : rely s s') :
    Meets exec rely guar post program s' := by
  cases program with
  | done result => exact fun s₁ h₁ => h s₁ (.head hrely h₁)
  | call c next => exact fun s₁ h₁ => h s₁ (.head hrely h₁)

theorem Meets.of_exec {c : C} {next : A c → Program A α} {answer : A c}
    (h : Meets exec rely guar post (.call c next) s) (hexec : exec s c answer s') :
    guar s s' ∧ Meets exec rely guar post (next answer) s' :=
  h s .refl answer s' hexec

theorem Meets.of_done {result : α} (h : Meets exec rely guar post (.done result) s) :
    post result s :=
  h s .refl

theorem Meets.of_run {program' : Program A α} (h : Meets exec rely guar post program s)
    (hrun : Run exec program s program' s') : Meets exec rely guar post program' s' := by
  induction hrun with
  | nil => exact h
  | call hexec _ ih => exact ih (h.of_exec hexec).2

/-- What every call keeps, a run keeps. -/
theorem Meets.invariant {program' : Program A α} (h : Meets exec rely guar post program s)
    (hrun : Run exec program s program' s') {I : S → Prop} (hs : I s)
    (hguar : ∀ s s', I s → guar s s' → I s') : I s' := by
  induction hrun with
  | nil => exact hs
  | call hexec _ ih =>
    obtain ⟨hcall, hnext⟩ := h.of_exec hexec
    exact ih hnext (hguar _ _ hs hcall)

/-! How to show it. -/

theorem meets_done {result : α} (hstable : Stable rely (post result)) (hs : post result s) :
    Meets exec rely guar post (.done result) s :=
  fun _ hrely => hstable.run hs hrely

theorem meets_call {c : C} {next : A c → Program A α} (P : S → Prop) (hstable : Stable rely P)
    (hs : P s) (h : ∀ s₁, P s₁ → ∀ answer s₂, exec s₁ c answer s₂ →
      guar s₁ s₂ ∧ Meets exec rely guar post (next answer) s₂) :
    Meets exec rely guar post (.call c next) s :=
  fun s₁ hrely => h s₁ (hstable.run hs hrely)

theorem Meets.mono (h : Meets exec rely guar post program s)
    (hpost : ∀ result s, post result s → post' result s) :
    Meets exec rely guar post' program s := by
  induction program generalizing s with
  | done result => exact fun s' hrely => hpost result s' (h s' hrely)
  | call c next ih =>
    intro s₁ hrely answer s₂ hexec
    obtain ⟨hguar, hnext⟩ := h s₁ hrely answer s₂ hexec
    exact ⟨hguar, ih answer hnext⟩

/-- One program after the other. -/
theorem Meets.bind {f : α → Program A β} {post : β → S → Prop}
    (h : Meets exec rely guar (fun result => Meets exec rely guar post (f result)) program s) :
    Meets exec rely guar post (program.bind f) s := by
  induction program generalizing s with
  | done result => exact h s .refl
  | call c next ih =>
    intro s₁ hrely answer s₂ hexec
    obtain ⟨hguar, hnext⟩ := h s₁ hrely answer s₂ hexec
    exact ⟨hguar, ih answer hnext⟩

end Program

end ErikslundHttp
