-- Runs of an event system. A run is the list of its events, oldest first.
-- A law of a run holds after each prefix, and a condition on a run is asked
-- of each event with the events before it.
import Mathlib.Data.List.Induction

namespace runs

variable {σ ε : Type*}

/-- The state after the events. -/
def after (step : σ → ε → σ) (start : σ) (es : List ε) : σ := es.foldl step start

@[simp] theorem after_nil (step : σ → ε → σ) (start : σ) : after step start [] = start := rfl

@[simp] theorem after_snoc (step : σ → ε → σ) (start : σ) (es : List ε) (e : ε) :
    after step start (es ++ [e]) = step (after step start es) e := by
  simp [after]

theorem after_append (step : σ → ε → σ) (start : σ) (es fs : List ε) :
    after step start (es ++ fs) = after step (after step start es) fs := by
  simp [after]

@[simp] theorem after_cons (step : σ → ε → σ) (start : σ) (e : ε) (es : List ε) :
    after step start (e :: es) = after step (step start e) es := rfl

/-- `P` holds at the start of the run and after each of its events. -/
def Always (P : List ε → Prop) (es : List ε) : Prop :=
  ∀ i, i ≤ es.length → P (es.take i)

/-- Each event of the run meets `C`, given the events before it. -/
def Steps (C : List ε → ε → Prop) (es : List ε) : Prop :=
  ∀ i (h : i < es.length), C (es.take i) es[i]

instance (P : List ε → Prop) [DecidablePred P] (es : List ε) : Decidable (Always P es) :=
  Nat.decidableBallLE _ _

instance (C : List ε → ε → Prop) [∀ pre e, Decidable (C pre e)] (es : List ε) :
    Decidable (Steps C es) :=
  Nat.decidableBallLT _ _

@[simp] theorem always_nil (P : List ε → Prop) : Always P [] ↔ P [] := by
  constructor
  · intro h
    exact h 0 (by simp)
  · intro h i _
    simpa using h

@[simp] theorem steps_nil (C : List ε → ε → Prop) : Steps C [] := by
  intro i h
  simp at h

@[simp] theorem always_snoc (P : List ε → Prop) (es : List ε) (e : ε) :
    Always P (es ++ [e]) ↔ Always P es ∧ P (es ++ [e]) := by
  constructor
  · intro h
    refine ⟨fun i hi => ?_, ?_⟩
    · have := h i (by simp; omega)
      rwa [List.take_append_of_le_length hi] at this
    · have := h (es.length + 1) (by simp)
      rwa [List.take_of_length_le (by simp)] at this
  · rintro ⟨h, he⟩ i hi
    simp only [List.length_append, List.length_singleton] at hi
    by_cases hlt : i ≤ es.length
    · rw [List.take_append_of_le_length hlt]
      exact h i hlt
    · rw [List.take_of_length_le (by simp; omega)]
      exact he

@[simp] theorem steps_snoc (C : List ε → ε → Prop) (es : List ε) (e : ε) :
    Steps C (es ++ [e]) ↔ Steps C es ∧ C es e := by
  constructor
  · intro h
    refine ⟨fun i hi => ?_, ?_⟩
    · have := h i (by simp; omega)
      rwa [List.take_append_of_le_length (by omega), List.getElem_append_left hi] at this
    · have := h es.length (by simp)
      simpa using this
  · rintro ⟨h, he⟩ i hi
    simp only [List.length_append, List.length_singleton] at hi
    by_cases hlt : i < es.length
    · rw [List.take_append_of_le_length (by omega), List.getElem_append_left hlt]
      exact h i hlt
    · have hi' : i = es.length := by omega
      subst hi'
      simpa using he

theorem Always.last {P : List ε → Prop} {es : List ε} (h : Always P es) : P es := by
  have := h es.length (Nat.le_refl _)
  rwa [List.take_length] at this

theorem Always.mono {P Q : List ε → Prop} {es : List ε} (h : Always P es)
    (hPQ : ∀ pre, P pre → Q pre) : Always Q es :=
  fun i hi => hPQ _ (h i hi)

theorem steps_split {C : List ε → ε → Prop} {pre post : List ε} {e : ε}
    (h : Steps C (pre ++ e :: post)) : Steps C pre ∧ C pre e := by
  refine ⟨fun i hi => ?_, ?_⟩
  · have := h i (by simp; omega)
    rwa [List.take_append_of_le_length (by omega), List.getElem_append_left hi] at this
  · have := h pre.length (by simp)
    simpa using this

theorem Steps.and {C D : List ε → ε → Prop} {es : List ε} (hC : Steps C es) (hD : Steps D es) :
    Steps (fun pre e => C pre e ∧ D pre e) es :=
  fun i h => ⟨hC i h, hD i h⟩

theorem Steps.mono {C D : List ε → ε → Prop} {es : List ε} (h : Steps C es)
    (hCD : ∀ pre e, C pre e → D pre e) : Steps D es :=
  fun i hi => hCD _ _ (h i hi)

theorem Steps.take {C : List ε → ε → Prop} {es : List ε} (h : Steps C es) (n : Nat) :
    Steps C (es.take n) := by
  intro i hi
  have hi' : i < n ∧ i < es.length := by
    rw [List.length_take] at hi
    omega
  have he := h i hi'.2
  rw [List.getElem_take, List.take_take, Nat.min_eq_left (Nat.le_of_lt hi'.1)]
  exact he

/-- Two conditions that agree on each event of a run agree on the run. -/
theorem steps_congr {L C D : List ε → ε → Prop} {es : List ε}
    (hstep : ∀ es e, Steps L es → L es e → (C es e ↔ D es e)) (hL : Steps L es) :
    Steps C es ↔ Steps D es := by
  induction es using List.reverseRecOn with
  | nil => simp
  | append_singleton es e ih =>
    rw [steps_snoc] at hL
    rw [steps_snoc, steps_snoc, ih hL.1, hstep es e hL.1 hL.2]

/-- The invariant rule: what each event that meets `C` preserves holds at every point
of a run of such events. -/
theorem always_of_steps {P : List ε → Prop} {C : List ε → ε → Prop} {es : List ε}
    (h0 : P []) (hstep : ∀ es e, Steps C es → P es → C es e → P (es ++ [e]))
    (h : Steps C es) : Always P es := by
  induction es using List.reverseRecOn with
  | nil => simpa using h0
  | append_singleton es e ih =>
    rw [steps_snoc] at h
    have hes := ih h.1
    rw [always_snoc]
    exact ⟨hes, hstep es e h.1 hes.last h.2⟩

/-- The exact rule: when a law that held so far holds after the next event just in case
the event meets `C`, the law holds of the whole run just in case each event meets `C`. -/
theorem always_iff_steps {P : List ε → Prop} {L C : List ε → ε → Prop} {es : List ε}
    (h0 : P [])
    (hstep : ∀ es e, Steps L es → L es e → Always P es → (P (es ++ [e]) ↔ C es e))
    (hL : Steps L es) : Always P es ↔ Steps C es := by
  induction es using List.reverseRecOn with
  | nil => simpa using h0
  | append_singleton es e ih =>
    rw [steps_snoc] at hL
    rw [always_snoc, steps_snoc, ← ih hL.1]
    constructor
    · rintro ⟨hes, he⟩
      exact ⟨hes, (hstep es e hL.1 hL.2 hes).mp he⟩
    · rintro ⟨hes, he⟩
      exact ⟨hes, (hstep es e hL.1 hL.2 hes).mpr he⟩

/-- The rule of a law that is not regained: when it holds after the next event just in case
it held before and the event meets `C`, it holds at the end of a run just in case each event
meets `C`. -/
theorem last_iff_steps {P : List ε → Prop} {L C : List ε → ε → Prop} {es : List ε}
    (h0 : P []) (hstep : ∀ es e, Steps L es → L es e → (P (es ++ [e]) ↔ P es ∧ C es e))
    (hL : Steps L es) : P es ↔ Steps C es := by
  induction es using List.reverseRecOn with
  | nil => simpa using h0
  | append_singleton es e ih =>
    rw [steps_snoc] at hL
    rw [steps_snoc, hstep es e hL.1 hL.2, ih hL.1]

/-- The rule of a one-shot: what is off at the start of some events and on after them was
switched on by one of them. -/
theorem exists_switch {step : σ → ε → σ} {On : σ → Prop} {Switch : σ → ε → Prop}
    (hstep : ∀ s e, ¬ On s → On (step s e) → Switch s e) {s : σ} {es : List ε} (h0 : ¬ On s)
    (h : On (after step s es)) :
    ∃ pre e post, es = pre ++ e :: post ∧ Switch (after step s pre) e := by
  induction es using List.reverseRecOn with
  | nil => exact absurd h h0
  | append_singleton es e ih =>
    rw [after_snoc] at h
    by_cases hes : On (after step s es)
    · obtain ⟨pre, e', post, rfl, he'⟩ := ih hes
      exact ⟨pre, e', post ++ [e], by simp, he'⟩
    · exact ⟨es, e, [], rfl, hstep _ _ hes h⟩

/-- The rule of a rank: when each event that meets `C` keeps `P` and lowers the rank, a run of
such events is no longer than the rank that it spends. -/
theorem length_le_rank {step : σ → ε → σ} {P : σ → Prop} {C : σ → ε → Prop} {rank : σ → Nat}
    (hstep : ∀ s e, P s → C s e → P (step s e) ∧ rank (step s e) < rank s) {s : σ} {es : List ε}
    (h0 : P s) (h : Steps (fun pre e => C (after step s pre) e) es) :
    P (after step s es) ∧ es.length + rank (after step s es) ≤ rank s := by
  induction es using List.reverseRecOn with
  | nil => simpa using h0
  | append_singleton es e ih =>
    rw [steps_snoc] at h
    obtain ⟨hes, hle⟩ := ih h.1
    obtain ⟨he, hlt⟩ := hstep _ e hes h.2
    rw [after_snoc, List.length_append, List.length_singleton]
    exact ⟨he, by omega⟩

end runs
