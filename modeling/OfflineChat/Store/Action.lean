import OfflineChat.Store.Error

/-! # Actions

An action on a state either gives a value or fails with a store error, and leaves a state in both
cases: what was done before a failure stays done. Main definitions: `Action` with its monad, and
`Action.get`, `Action.modify` and `Action.lift` (an action on a part of the state). -/

set_option autoImplicit false

namespace OfflineChat

/-- A step on a state that may fail. -/
def Action (σ α : Type) : Type := σ → Except StoreError α × σ

namespace Action

variable {σ τ α β : Type}

/-- Gives a value and leaves the state as it is. -/
def give (a : α) : Action σ α := fun s => (.ok a, s)

/-- Fails and leaves the state as it is. -/
def fail (e : StoreError) : Action σ α := fun s => (.error e, s)

/-- One action after another; a failure of the first ends both. -/
def andThen (x : Action σ α) (f : α → Action σ β) : Action σ β := fun s =>
  match x s with
  | (.ok a, s) => f a s
  | (.error e, s) => (.error e, s)

instance : Monad (Action σ) where
  pure := give
  bind := andThen

@[simp] theorem pure_apply (a : α) (s : σ) : (pure a : Action σ α) s = (.ok a, s) := rfl

theorem bind_apply (x : Action σ α) (f : α → Action σ β) (s : σ) :
    (x >>= f) s = match x s with
      | (.ok a, s) => f a s
      | (.error e, s) => (.error e, s) := rfl

theorem bind_apply_ok {x : Action σ α} {f : α → Action σ β} {s t : σ} {a : α}
    (h : x s = (.ok a, t)) : (x >>= f) s = f a t := by
  rw [bind_apply, h]

theorem bind_apply_error {x : Action σ α} {f : α → Action σ β} {s t : σ} {e : StoreError}
    (h : x s = (.error e, t)) : (x >>= f) s = (.error e, t) := by
  rw [bind_apply, h]

/-- The state. -/
def get : Action σ σ := fun s => (.ok s, s)

/-- Changes the state. -/
def modify (f : σ → σ) : Action σ Unit := fun s => (.ok (), f s)

/-- Changes the state and gives a value. -/
def update (f : σ → α × σ) : Action σ α := fun s => (.ok (f s).1, (f s).2)

@[simp] theorem get_apply (s : σ) : (get : Action σ σ) s = (.ok s, s) := rfl

@[simp] theorem modify_apply (f : σ → σ) (s : σ) : modify f s = (.ok (), f s) := rfl

@[simp] theorem update_apply (f : σ → α × σ) (s : σ) : update f s = (.ok (f s).1, (f s).2) := rfl

/-- An action on a part of a larger state. -/
def lift (part : τ → σ) (withPart : τ → σ → τ) (x : Action σ α) : Action τ α := fun t =>
  ((x (part t)).1, withPart t (x (part t)).2)

end Action

end OfflineChat
