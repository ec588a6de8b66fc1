import Mathlib.Tactic.TypeStar

/-!
Computations that end with a result, or because a request is refused or the process gives
up, or with an access that has no meaning. What is proved of a computation is what holds of
its result, when it may give up, and that no access is without meaning.
-/

namespace Mgw

set_option autoImplicit false

inductive Attempt (α : Type*) where
  | done (result : α)
  | refused
  | aborted
  | stuck
  deriving DecidableEq

namespace Attempt

variable {α β : Type*}

def bind (first : Attempt α) (next : α → Attempt β) : Attempt β :=
  match first with
  | done result => next result
  | refused => refused
  | aborted => aborted
  | stuck => stuck

instance : Monad Attempt where
  pure := done
  bind := bind

/-- An access that may have no meaning. -/
def read : Option α → Attempt α
  | some result => done result
  | none => stuck

/-- A request that may be refused, which ends the process. -/
def demand : Option α → Attempt α
  | some result => done result
  | none => refused

/-- The result is as it should be, and unless a request is refused the process gives up only
where it may. -/
def Returns (mayAbort : Prop) (post : α → Prop) : Attempt α → Prop
  | done result => post result
  | refused => True
  | aborted => mayAbort
  | stuck => False

section Rules

variable {mayAbort : Prop} {attempt : Attempt α}

@[simp] theorem bind_done {γ δ : Type} (result : γ) (next : γ → Attempt δ) :
    (done result >>= next) = next result := rfl

theorem bind_assoc {γ δ ε : Type} (first : Attempt γ) (next : γ → Attempt δ)
    (last : δ → Attempt ε) :
    (first >>= next) >>= last = first >>= fun result => next result >>= last := by
  cases first with
  | done result => rfl
  | refused => rfl
  | aborted => rfl
  | stuck => rfl

@[simp] theorem pure_done {γ : Type} (result : γ) : (pure result : Attempt γ) = done result := rfl

@[simp] theorem read_some (result : α) : read (some result) = done result := rfl

@[simp] theorem demand_some (result : α) : demand (some result) = done result := rfl

/-- A computation has a result where its parts have. -/
theorem bind_eq_done {γ δ : Type} {first : Attempt γ} {next : γ → Attempt δ} {result : δ}
    (ends : (first >>= next) = done result) :
    ∃ middle, first = done middle ∧ next middle = done result := by
  cases first with
  | done middle => exact ⟨middle, rfl, ends⟩
  | refused => contradiction
  | aborted => contradiction
  | stuck => contradiction

theorem returns_done {post : α → Prop} {result : α} (holds : post result) :
    Returns mayAbort post (done result) := holds

theorem returns_bind {γ δ : Type} {first : Attempt γ} {next : γ → Attempt δ} {middle : γ → Prop}
    {post : δ → Prop} (before : Returns mayAbort middle first)
    (rest : ∀ result, middle result → Returns mayAbort post (next result)) :
    Returns mayAbort post (first >>= next) := by
  cases first with
  | done result => exact rest result before
  | refused => trivial
  | aborted => exact before
  | stuck => exact before

theorem returns_mono {post post' : α → Prop} (returns : Returns mayAbort post attempt)
    (weaker : ∀ result, post result → post' result) : Returns mayAbort post' attempt := by
  cases attempt with
  | done result => exact weaker result returns
  | refused => trivial
  | aborted => exact returns
  | stuck => exact returns

theorem returns_abort {mayAbort' : Prop} {post : α → Prop} (returns : Returns mayAbort post attempt)
    (weaker : mayAbort → mayAbort') : Returns mayAbort' post attempt := by
  cases attempt with
  | done result => exact returns
  | refused => trivial
  | aborted => exact weaker returns
  | stuck => exact returns

theorem returns_demand {post : α → Prop} {request : Option α}
    (granted : ∀ result, request = some result → post result) : Returns mayAbort post (demand request) := by
  cases request with
  | some result => exact granted result rfl
  | none => trivial

end Rules

end Attempt

end Mgw
