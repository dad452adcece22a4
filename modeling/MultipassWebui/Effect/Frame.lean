import Mathlib.Order.Defs.Unbundled
import MultipassWebui.Effect.Core

/-!
# What a computation keeps

A computation keeps a relation if the relation holds between the state it is
run in and the state it leaves, whether it returns or raises.  For a preorder
the rules follow the constructors of computations.
-/

namespace MultipassWebui.Effect.Exec

universe u

variable {σ ε α β : Type u}

/-- Every run of the computation leads from a state to a related one. -/
def Keeps (R : σ → σ → Prop) (body : Exec σ ε α) : Prop := ∀ state, R state (body state).2

section Rules

variable {R : σ → σ → Prop} [IsPreorder σ R]

theorem keeps_pure (value : α) : Keeps R (pure value : Exec σ ε α) :=
  fun state => Std.Refl.refl state

theorem keeps_raise (error : ε) : Keeps R (raise error : Exec σ ε α) :=
  fun state => Std.Refl.refl state

theorem keeps_gets (read : σ → α) : Keeps R (gets read : Exec σ ε α) :=
  fun state => Std.Refl.refl state

theorem keeps_ofExcept (outcome : Except ε α) : Keeps R (ofExcept outcome : Exec σ ε α) := by
  intro state
  rw [ofExcept_apply]
  exact Std.Refl.refl state

theorem keeps_bind {first : Exec σ ε α} {next : α → Exec σ ε β} (keepsFirst : Keeps R first)
    (keepsNext : ∀ value, Keeps R (next value)) : Keeps R (first >>= next) := by
  intro state
  have before := keepsFirst state
  rw [bind_apply]
  cases ran : first state with
  | mk outcome middle =>
      rw [ran] at before
      cases outcome with
      | ok value => exact IsTrans.trans _ _ _ before (keepsNext value middle)
      | error raised => exact before

/-- What follows a pure computation knows its value. -/
theorem keeps_ofExcept_bind {outcome : Except ε α} {next : α → Exec σ ε β}
    (keepsNext : ∀ value, outcome = .ok value → Keeps R (next value)) :
    Keeps R (ofExcept outcome >>= next) := by
  intro state
  rw [bind_apply, ofExcept_apply]
  cases outcome with
  | ok value => exact keepsNext value rfl state
  | error raised => exact Std.Refl.refl state

theorem keeps_rescue {body : Exec σ ε α} {handler : ε → Option (Exec σ ε α)}
    (keepsBody : Keeps R body)
    (keepsHandler : ∀ error, ∀ handled ∈ handler error, Keeps R handled) :
    Keeps R (rescue body handler) := by
  intro state
  have before := keepsBody state
  cases ran : body state with
  | mk outcome middle =>
      rw [ran] at before
      cases outcome with
      | ok value =>
          rw [rescue_ok ran]
          exact before
      | error raised =>
          rw [rescue_error ran]
          cases handles : handler raised with
          | none => exact before
          | some handled =>
              exact IsTrans.trans _ _ _ before (keepsHandler raised handled handles middle)

end Rules

/-- A computation on a part keeps what every change of the part keeps. -/
theorem keeps_zoom {τ : Type u} {R : σ → σ → Prop} {S : τ → τ → Prop} {part : σ → τ}
    {setPart : τ → σ → σ} {body : Exec τ ε α} (keepsBody : Keeps S body)
    (lift : ∀ state last, S (part state) last → R state (setPart last state)) :
    Keeps R (zoom part setPart body) :=
  fun state => lift state _ (keepsBody (part state))

end MultipassWebui.Effect.Exec
