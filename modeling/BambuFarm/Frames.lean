-- Frame rules for fallible state programs. A program of `EStateM` ends with
-- a value or an error, and with a state in both cases. `Keeps` says that a
-- part of the state is the same at the end.
import Mathlib.Logic.Basic

namespace frames

universe u v

variable {ε σ α β : Type u} {γ : Type v}

/-- The state at the end of a program, also when it fails. -/
def finalState : EStateM.Result ε σ α → σ
  | .ok _ s => s
  | .error _ s => s

/-- The program leaves the part `π` of the state as it was. -/
def Keeps (π : σ → γ) (x : EStateM ε σ α) : Prop :=
  ∀ s, π (finalState (x.run s)) = π s

theorem Keeps.pure (π : σ → γ) (a : α) : Keeps π (pure a : EStateM ε σ α) :=
  fun _ => rfl

theorem Keeps.throw (π : σ → γ) (e : ε) : Keeps π (throw e : EStateM ε σ α) :=
  fun _ => rfl

theorem Keeps.modify {π : σ → γ} {f : σ → σ} (h : ∀ s, π (f s) = π s) :
    Keeps π (modify f : EStateM ε σ PUnit) :=
  fun s => h s

theorem Keeps.bind {π : σ → γ} {x : EStateM ε σ α} {f : α → EStateM ε σ β}
    (hx : Keeps π x) (hf : ∀ a, Keeps π (f a)) : Keeps π (x >>= f) := by
  intro s
  have hxs := hx s
  rw [EStateM.run_bind]
  cases h : x.run s with
  | ok a s' =>
    rw [h] at hxs
    exact (hf a s').trans hxs
  | error e s' =>
    rw [h] at hxs
    exact hxs

@[simp] theorem run_ofExcept_ok (a : α) (s : σ) :
    (MonadExcept.ofExcept (.ok a : Except ε α) : EStateM ε σ α).run s = .ok a s :=
  rfl

@[simp] theorem run_ofExcept_error (e : ε) (s : σ) :
    (MonadExcept.ofExcept (.error e : Except ε α) : EStateM ε σ α).run s = .error e s :=
  rfl

end frames
