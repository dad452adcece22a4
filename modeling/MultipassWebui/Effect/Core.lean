import Mathlib.Data.List.Basic

/-!
# Computations with state and exceptions

A computation threads a state that survives a raised exception: what was done
before the exception stays done.  `rescue` and `ensure` have the meaning of the
Ruby clauses of the same name, and `synchronize` is a non-reentrant lock, which
raises when the running thread already holds it and is released on every exit.
-/

namespace MultipassWebui.Effect

universe u

variable {σ ε α β : Type u}

/-- A computation over the state `σ` that returns an `α` or raises an `ε`. -/
def Exec (σ ε α : Type u) := σ → Except ε α × σ

namespace Exec

protected def pure (value : α) : Exec σ ε α := fun state => (.ok value, state)

protected def bind (first : Exec σ ε α) (next : α → Exec σ ε β) : Exec σ ε β := fun state =>
  match first state with
  | (.ok value, middle) => next value middle
  | (.error raised, middle) => (.error raised, middle)

instance : Monad (Exec σ ε) where
  pure := Exec.pure
  bind := Exec.bind

/-- Raise an exception. -/
def raise (error : ε) : Exec σ ε α := fun state => (.error error, state)

/-- Read a function of the state. -/
def gets (read : σ → α) : Exec σ ε α := fun state => (.ok (read state), state)

/-- Raise what a pure computation raised, or return what it returned. -/
def ofExcept : Except ε α → Exec σ ε α
  | .ok value => fun state => (.ok value, state)
  | .error raised => fun state => (.error raised, state)

/-- Update the state. -/
def modify (update : σ → σ) : Exec σ ε PUnit := fun state => (.ok ⟨⟩, update state)

/-- `begin body rescue`: exceptions that `handler` accepts are handled, the
others pass through. -/
def rescue (body : Exec σ ε α) (handler : ε → Option (Exec σ ε α)) : Exec σ ε α := fun state =>
  match body state with
  | (.ok value, middle) => (.ok value, middle)
  | (.error raised, middle) =>
      match handler raised with
      | some handled => handled middle
      | none => (.error raised, middle)

/-- `begin body ensure final end`: `final` runs on every exit, and an exception
it raises replaces the outcome of the body. -/
def ensure (body : Exec σ ε α) (final : Exec σ ε PUnit) : Exec σ ε α := fun state =>
  match final (body state).2 with
  | (.ok _, last) => ((body state).1, last)
  | (.error raised, last) => (.error raised, last)

/-- A database transaction: an exception undoes the body. -/
def transaction (body : Exec σ ε α) : Exec σ ε α := fun state =>
  match body state with
  | (.ok value, last) => (.ok value, last)
  | (.error raised, _) => (.error raised, state)

/-- Run a computation on a part of the state. -/
def zoom {τ : Type u} (part : σ → τ) (setPart : τ → σ → σ) (body : Exec τ ε α) : Exec σ ε α :=
  fun state =>
    let (outcome, last) := body (part state)
    (outcome, setPart last state)

/-- Run the body while holding a lock kept in the state. -/
def synchronize (held : σ → Bool) (setHeld : Bool → σ → σ) (recursive : ε)
    (body : Exec σ ε α) : Exec σ ε α := fun state =>
  if held state then (.error recursive, state)
  else
    let (outcome, last) := body (setHeld true state)
    (outcome, setHeld false last)

@[simp]
theorem pure_apply (value : α) (state : σ) :
    (pure value : Exec σ ε α) state = (.ok value, state) :=
  rfl

theorem bind_apply (first : Exec σ ε α) (next : α → Exec σ ε β) (state : σ) :
    (first >>= next) state =
      match first state with
      | (.ok value, middle) => next value middle
      | (.error raised, middle) => (.error raised, middle) :=
  rfl

theorem bind_ok {first : Exec σ ε α} {state middle : σ} {value : α}
    (returned : first state = (.ok value, middle)) (next : α → Exec σ ε β) :
    (first >>= next) state = next value middle := by
  rw [bind_apply, returned]

theorem bind_error {first : Exec σ ε α} {state middle : σ} {raised : ε}
    (failed : first state = (.error raised, middle)) (next : α → Exec σ ε β) :
    (first >>= next) state = (.error raised, middle) := by
  rw [bind_apply, failed]

theorem bind_assoc {γ : Type u} (first : Exec σ ε α) (next : α → Exec σ ε β)
    (last : β → Exec σ ε γ) :
    first >>= next >>= last = first >>= fun value => next value >>= last := by
  funext state
  rw [bind_apply, bind_apply, bind_apply]
  rcases first state with ⟨outcome, middle⟩
  cases outcome <;> rfl

theorem pure_bind (value : α) (next : α → Exec σ ε β) : pure value >>= next = next value :=
  rfl

/-- A function of what a computation returns leaves its state alone. -/
theorem bind_pure_apply (body : Exec σ ε α) (f : α → β) (state : σ) :
    (body >>= fun value => pure (f value)) state = ((body state).1.map f, (body state).2) := by
  rw [bind_apply]
  rcases body state with ⟨outcome, middle⟩
  cases outcome <;> rfl

/-- What follows does not touch the state. -/
theorem bind_state {first : Exec σ ε α} {next : α → Exec σ ε β}
    (quiet : ∀ value state, (next value state).2 = state) (state : σ) :
    ((first >>= next) state).2 = (first state).2 := by
  rw [bind_apply]
  rcases first state with ⟨outcome, middle⟩
  cases outcome with
  | ok value => exact quiet value middle
  | error raised => rfl

@[simp]
theorem raise_apply (error : ε) (state : σ) :
    (raise error : Exec σ ε α) state = (.error error, state) :=
  rfl

@[simp]
theorem gets_apply (read : σ → α) (state : σ) :
    (gets read : Exec σ ε α) state = (.ok (read state), state) :=
  rfl

@[simp]
theorem ofExcept_apply (outcome : Except ε α) (state : σ) :
    (ofExcept outcome : Exec σ ε α) state = (outcome, state) := by
  cases outcome <;> rfl

/-- Two pure steps are one. -/
theorem ofExcept_bind (first : Except ε α) (next : α → Except ε β) :
    (ofExcept first >>= fun value => ofExcept (next value) : Exec σ ε β) =
      ofExcept (first >>= next) := by
  cases first with
  | error raised => rfl
  | ok value => rfl

@[simp]
theorem modify_apply (update : σ → σ) (state : σ) :
    (modify update : Exec σ ε PUnit) state = (.ok ⟨⟩, update state) :=
  rfl

theorem zoom_apply {τ : Type u} (part : σ → τ) (setPart : τ → σ → σ) (body : Exec τ ε α)
    (state : σ) :
    zoom part setPart body state =
      ((body (part state)).1, setPart (body (part state)).2 state) :=
  rfl

theorem rescue_ok {body : Exec σ ε α} {state middle : σ} {value : α}
    (returned : body state = (.ok value, middle)) (handler : ε → Option (Exec σ ε α)) :
    rescue body handler state = (.ok value, middle) := by
  rw [rescue, returned]

theorem rescue_error {body : Exec σ ε α} {state middle : σ} {raised : ε}
    (failed : body state = (.error raised, middle)) (handler : ε → Option (Exec σ ε α)) :
    rescue body handler state =
      match handler raised with
      | some handled => handled middle
      | none => (.error raised, middle) := by
  rw [rescue, failed]

theorem ensure_ok {body : Exec σ ε α} {final : Exec σ ε PUnit} {state last : σ}
    (returned : final (body state).2 = (.ok ⟨⟩, last)) :
    ensure body final state = ((body state).1, last) := by
  rw [ensure, returned]

theorem ensure_error {body : Exec σ ε α} {final : Exec σ ε PUnit} {state last : σ} {raised : ε}
    (failed : final (body state).2 = (.error raised, last)) :
    ensure body final state = (.error raised, last) := by
  rw [ensure, failed]

theorem ensure_state (body : Exec σ ε α) (final : Exec σ ε PUnit) (state : σ) :
    (ensure body final state).2 = (final (body state).2).2 := by
  unfold ensure
  rcases final (body state).2 with ⟨raised | _, last⟩
  · rfl
  · rfl

/-- A transaction does what its body does, or nothing. -/
theorem transaction_state (body : Exec σ ε α) (state : σ) :
    (transaction body state).2 = (body state).2 ∨ (transaction body state).2 = state := by
  unfold transaction
  rcases body state with ⟨outcome, last⟩
  cases outcome with
  | ok _ => exact Or.inl rfl
  | error _ => exact Or.inr rfl

section Lock

variable {held : σ → Bool} {setHeld : Bool → σ → σ} {recursive : ε}

/-- Taking a lock that the running thread holds raises and changes nothing. -/
theorem synchronize_held {state : σ} (locked : held state = true) (body : Exec σ ε α) :
    synchronize held setHeld recursive body state = (.error recursive, state) := by
  simp [synchronize, locked]

theorem synchronize_free {state : σ} (free : held state = false) (body : Exec σ ε α) :
    synchronize held setHeld recursive body state =
      ((body (setHeld true state)).1, setHeld false (body (setHeld true state)).2) := by
  simp [synchronize, free]

end Lock

end Exec

end MultipassWebui.Effect
