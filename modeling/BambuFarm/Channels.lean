-- What flows through a queue over a run. Each event of a run may put items
-- into a queue and take items out of it. When each event conserves the items,
-- what a run has taken out, followed by what is still queued, is what it has
-- put in, in the same order.
import BambuFarm.Runs

open runs

namespace channels

variable {σ ε α : Type*} {step : σ → ε → σ}

/-- The items that the events of a run move, by what each of them moves in the state that
it finds. -/
def flow (step : σ → ε → σ) (moves : σ → ε → List α) (s : σ) (es : List ε) : List α :=
  (after (fun (p : σ × List α) e => (step p.1 e, p.2 ++ moves p.1 e)) (s, []) es).2

@[simp] theorem flow_nil (moves : σ → ε → List α) (s : σ) : flow step moves s [] = [] := rfl

theorem flow_state (moves : σ → ε → List α) (s : σ) (es : List ε) :
    (after (fun (p : σ × List α) e => (step p.1 e, p.2 ++ moves p.1 e)) (s, []) es).1 =
      after step s es := by
  induction es using List.reverseRecOn with
  | nil => rfl
  | append_singleton es e ih => simp [ih]

@[simp] theorem flow_snoc (moves : σ → ε → List α) (s : σ) (es : List ε) (e : ε) :
    flow step moves s (es ++ [e]) = flow step moves s es ++ moves (after step s es) e := by
  simp [flow, flow_state]

/-- A function that goes through lists item by item goes through a flow. -/
theorem flow_hom {β : Type*} (g : List α → List β) (hnil : g [] = [])
    (happend : ∀ l m, g (l ++ m) = g l ++ g m) (moves : σ → ε → List α) (s : σ) (es : List ε) :
    flow step (fun s e => g (moves s e)) s es = g (flow step moves s es) := by
  induction es using List.reverseRecOn with
  | nil => exact hnil.symm
  | append_singleton es e ih => rw [flow_snoc, flow_snoc, happend, ih]

/-- The event takes from the front of the queue what it takes, and puts at its end what it
puts. -/
def Conserves (step : σ → ε → σ) (queue : σ → List α) (puts takes : σ → ε → List α) (s : σ)
    (e : ε) : Prop :=
  takes s e ++ queue (step s e) = queue s ++ puts s e

/-- The law of a queue over a run. -/
theorem conservation {queue : σ → List α} {puts takes : σ → ε → List α} (s : σ) (es : List ε)
    (h : ∀ s, ∀ e ∈ es, Conserves step queue puts takes s e) :
    flow step takes s es ++ queue (after step s es) = queue s ++ flow step puts s es := by
  induction es using List.reverseRecOn with
  | nil => simp
  | append_singleton es e ih =>
    have hes := ih fun s e he => h s e (by simp [he])
    have he := h (after step s es) e (by simp)
    rw [flow_snoc, flow_snoc, after_snoc, List.append_assoc, he, ← List.append_assoc, hes,
      List.append_assoc]

end channels
