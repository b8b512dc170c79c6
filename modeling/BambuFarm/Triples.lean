-- Triples for fallible state programs. A program of `EStateM` ends with a value or an
-- error, so a triple has a postcondition for each of them.
import BambuFarm.Frames

open frames

namespace triples

universe u

variable {ε δ σ α β : Type u}

/-- From a state of `P` the program ends with a value and a state of `Q`, or with an error in
a state of `E`. -/
def Triple (P : σ → Prop) (x : EStateM ε σ α) (Q : α → σ → Prop) (E : σ → Prop) : Prop :=
  ∀ s, P s → match x.run s with
    | .ok a s' => Q a s'
    | .error _ s' => E s'

variable {P P' : σ → Prop} {Q Q' : α → σ → Prop} {R : β → σ → Prop} {E E' : σ → Prop}
  {x : EStateM ε σ α}

theorem Triple.ok (h : Triple P x Q E) {s s' : σ} {a : α} (hs : P s) (hrun : x.run s = .ok a s') :
    Q a s' := by
  have hx := h s hs
  rwa [hrun] at hx

theorem Triple.error (h : Triple P x Q E) {s s' : σ} {e : ε} (hs : P s)
    (hrun : x.run s = .error e s') : E s' := by
  have hx := h s hs
  rwa [hrun] at hx

theorem Triple.pure {a : α} (h : ∀ s, P s → Q a s) : Triple P (pure a : EStateM ε σ α) Q E :=
  h

/-- The rule of consequence. -/
theorem Triple.weaken (h : Triple P x Q E) (hP : ∀ s, P' s → P s) (hQ : ∀ a s, Q a s → Q' a s)
    (hE : ∀ s, E s → E' s) : Triple P' x Q' E' := by
  intro s hs
  cases hrun : x.run s with
  | ok a s' => exact hQ a s' (h.ok (hP s hs) hrun)
  | error e s' => exact hE s' (h.error (hP s hs) hrun)

theorem Triple.bind {f : α → EStateM ε σ β} (hx : Triple P x Q E)
    (hf : ∀ a, Triple (Q a) (f a) R E) : Triple P (x >>= f) R E := by
  intro s hs
  rw [EStateM.run_bind]
  cases hrun : x.run s with
  | ok a s' => exact hf a s' (hx.ok hs hrun)
  | error e s' => exact hx.error hs hrun

theorem run_tryCatch (x : EStateM ε σ α) (handler : ε → EStateM ε σ α) (s : σ) :
    (tryCatch x handler).run s = match x.run s with
      | .ok a s' => .ok a s'
      | .error e s' => (handler e).run s' := by
  change EStateM.tryCatch x handler s = _
  unfold EStateM.tryCatch EStateM.run
  cases x s <;> rfl

/-- A program whose error is handled. -/
theorem Triple.handle {handler : ε → EStateM ε σ α} {F : σ → Prop} (hx : Triple P x Q F)
    (hh : ∀ e, Triple F (handler e) Q E) : Triple P (tryCatch x handler) Q E := by
  intro s hs
  rw [run_tryCatch]
  cases hrun : x.run s with
  | ok a s' => exact hx.ok hs hrun
  | error e s' => exact hh e s' (hx.error hs hrun)

/-- A part of the state that the program and its handler keep. -/
theorem keeps_handle {γ : Type*} {π : σ → γ} {handler : ε → EStateM ε σ α} (hx : Keeps π x)
    (hh : ∀ e, Keeps π (handler e)) : Keeps π (tryCatch x handler) := by
  intro s
  have hxs := hx s
  rw [run_tryCatch]
  cases hrun : x.run s with
  | ok a s' =>
    rw [hrun] at hxs
    exact hxs
  | error e s' =>
    rw [hrun] at hxs
    exact (hh e s').trans hxs

/-- A program that keeps a part of the state, as a triple. -/
theorem triple_of_keeps {γ : Type*} {π : σ → γ} (h : Keeps π x) (old : γ) :
    Triple (fun s => π s = old) x (fun _ s => π s = old) (fun s => π s = old) := by
  intro s hs
  have hkeeps := h s
  cases hrun : x.run s with
  | ok a s' =>
    rw [hrun] at hkeeps
    exact hkeeps.trans hs
  | error e s' =>
    rw [hrun] at hkeeps
    exact hkeeps.trans hs

end triples
