-- The failure budget of the two loops of a connection. Both count failures
-- and end when more than three have come in a row. The receive loop counts
-- as it should; the send loop sets its count to zero at each answer, also at
-- one that says no, and so never spends it.
import BambuFarm.Channels
import BambuFarm.ConnectionWorker
import BambuFarm.Pipeline
import Mathlib.Data.List.DropRight

open runs channels bambu_farm
open bambu_farm_client.connection (Item Phase Worker WorkerStep loop_top received)

namespace bambu_farm_client.failure_budget

/-! ## Failures in a row -/

/-- The failures at the end of a list of attempts, of which `true` is a success. -/
def inARow (attempts : List Bool) : Nat := (attempts.rtakeWhile (!·)).length

@[simp] theorem inARow_nil : inARow [] = 0 := rfl

@[simp] theorem inARow_success (attempts : List Bool) : inARow (attempts ++ [true]) = 0 := by
  unfold inARow
  rw [List.rtakeWhile_concat_neg _ _ _ (by simp)]
  rfl

@[simp] theorem inARow_failure (attempts : List Bool) :
    inARow (attempts ++ [false]) = inARow attempts + 1 := by
  unfold inARow
  rw [List.rtakeWhile_concat_pos _ _ _ (by simp)]
  simp

/-- The last `n` attempts have failed. -/
def Failed (n : Nat) (attempts : List Bool) : Prop := List.replicate n false <:+ attempts

theorem failed_iff (n : Nat) (attempts : List Bool) : Failed n attempts ↔ n ≤ inARow attempts := by
  unfold Failed
  induction attempts using List.reverseRecOn generalizing n with
  | nil => simp
  | append_singleton attempts success ih =>
    cases n with
    | zero => simp
    | succ n =>
      rw [List.replicate_succ', List.suffix_concat_iff]
      cases success with
      | true => simp
      | false => simp [ih]

/-! ## The receive loop -/

/-- Why the receive loop ended: its failures are spent, its cancel channel has changed, or
the printer is not connected any more. -/
inductive ReceiveEnd
  | failures
  | changed (canceled : Bool)
  | disconnected
  deriving DecidableEq

/-- The receive loop at its `select!`, with its failures so far, or at its end. -/
inductive ReceiveLoop
  | receiving (failures : Nat)
  | ended (why : ReceiveEnd)
  deriving DecidableEq

/-- What the `select!` of the receive loop gives: a change of the cancel channel, or an item
of the stream. -/
inductive ReceiveArm
  | changed (canceled : Bool)
  | item (recv_message : Item)
  deriving DecidableEq

namespace ReceiveLoop

/-- The count is a `u32`, and ends at `4`. -/
def top (failures : Nat) : ReceiveLoop :=
  if failures > 3 then .ended .failures else .receiving failures

def step : ReceiveLoop → ReceiveArm → ReceiveLoop
  | .receiving _, .changed canceled => .ended (.changed canceled)
  | .receiving _, .item (.message m) =>
    let failures := 0
    if m.connected then top failures else .ended .disconnected
  | .receiving failures, .item .failure => top (failures + 1)
  | .ended why, _ => .ended why

end ReceiveLoop

/-- An item is an attempt, and a message is a success. -/
def ReceiveArm.attempt : ReceiveArm → Option Bool
  | .item (.message _) => some true
  | .item .failure => some false
  | .changed _ => none

def receiveLoop (arms : List ReceiveArm) : ReceiveLoop := after ReceiveLoop.step (.top 0) arms

@[simp] theorem receiveLoop_snoc (arms : List ReceiveArm) (arm : ReceiveArm) :
    receiveLoop (arms ++ [arm]) = (receiveLoop arms).step arm := by
  simp [receiveLoop]

/-- What the receive loop took until it ended. -/
structure ReceiveRun where
  arms : List ReceiveArm
  running : Steps (fun before _ => ∃ failures, receiveLoop before = .receiving failures) arms

/-! ## The send loop -/

/-- Why the send loop ended: its failures are spent, it was canceled, its channel is closed,
or a call of `send_message` has failed. -/
inductive SendEnd
  | failures
  | canceled
  | closed
  | error
  deriving DecidableEq

inductive SendLoop
  | sending (failures : Nat)
  | ended (why : SendEnd)
  deriving DecidableEq

/-- What a round of the send loop gives: a change of the cancel channel, the end of the
channel of messages, or the outcome of a `send_message`. -/
inductive SendArm
  | changed (canceled : Bool)
  | closed
  | response (success : Bool)
  | error
  deriving DecidableEq

namespace SendLoop

def top (failures : Nat) : SendLoop :=
  if failures > 3 then .ended .failures else .sending failures

def step : SendLoop → SendArm → SendLoop
  | .sending failures, .changed canceled => if canceled then .ended .canceled else top failures
  | .sending _, .closed => .ended .closed
  | .sending _, .response success =>
    -- any answer sets the count to zero, before its `success` is looked at
    let failures := 0
    top (if success then failures else failures + 1)
  | .sending _, .error => .ended .error
  | .ended why, _ => .ended why

end SendLoop

/-- An answer is an attempt. -/
def SendArm.attempt : SendArm → Option Bool
  | .response success => some success
  | _ => none

def sendLoop (arms : List SendArm) : SendLoop := after SendLoop.step (.top 0) arms

@[simp] theorem sendLoop_snoc (arms : List SendArm) (arm : SendArm) :
    sendLoop (arms ++ [arm]) = (sendLoop arms).step arm := by
  simp [sendLoop]

structure SendRun where
  arms : List SendArm
  running : Steps (fun before _ => ∃ failures, sendLoop before = .sending failures) arms

/-! ## The rule -/

/-- The receive loop is stopped by its failures exactly when the last four items failed. -/
def ReceiveBudget (arms : List ReceiveArm) : Prop :=
  receiveLoop arms = .ended .failures ↔ Failed 4 (arms.filterMap ReceiveArm.attempt)

def SendBudget (arms : List SendArm) : Prop :=
  sendLoop arms = .ended .failures ↔ Failed 4 (arms.filterMap SendArm.attempt)

/-- Four answers in a row said no. -/
def RefusedFourTimes (arms : List SendArm) : Prop :=
  List.replicate 4 false <:+: arms.filterMap SendArm.attempt

/-! ## The receive loop keeps it -/

/-- What a receive loop says of the attempts so far. -/
def ReceiveLoop.Counts (attempts : List Bool) : ReceiveLoop → Prop
  | .receiving failures => inARow attempts = failures ∧ failures ≤ 3
  | .ended .failures => inARow attempts = 4
  | .ended _ => inARow attempts ≤ 3

theorem ReceiveLoop.Counts.top {attempts : List Bool} (h : inARow attempts ≤ 4) :
    (ReceiveLoop.top (inARow attempts)).Counts attempts := by
  unfold ReceiveLoop.top
  split
  · show inARow attempts = 4
    omega
  · exact ⟨rfl, by omega⟩

theorem ReceiveLoop.Counts.step {attempts : List Bool} {failures : Nat}
    (h : (ReceiveLoop.receiving failures).Counts attempts) (arm : ReceiveArm) :
    ((ReceiveLoop.receiving failures).step arm).Counts (attempts ++ arm.attempt.toList) := by
  obtain ⟨hrow, hfew⟩ := h
  cases arm with
  | changed canceled =>
    show inARow (attempts ++ []) ≤ 3
    rw [List.append_nil]
    omega
  | item item =>
    cases item with
    | message m =>
      have hzero : inARow (attempts ++ [true]) = 0 := inARow_success attempts
      show (if m.connected then ReceiveLoop.top 0 else .ended .disconnected).Counts
        (attempts ++ [true])
      split
      · rw [← hzero]
        exact Counts.top (by omega)
      · show inARow (attempts ++ [true]) ≤ 3
        omega
    | failure =>
      have hmore : inARow (attempts ++ [false]) = failures + 1 := by
        rw [inARow_failure, hrow]
      show (ReceiveLoop.top (failures + 1)).Counts (attempts ++ [false])
      rw [← hmore]
      exact Counts.top (by omega)

theorem filterMap_snoc {α β : Type*} (f : α → Option β) (xs : List α) (x : α) :
    (xs ++ [x]).filterMap f = xs.filterMap f ++ (f x).toList := by
  rw [List.filterMap_append]
  cases h : f x with
  | none => simp [h]
  | some y => simp [h]

theorem receive_counts {arms : List ReceiveArm}
    (h : Steps (fun before _ => ∃ failures, receiveLoop before = .receiving failures) arms) :
    (receiveLoop arms).Counts (arms.filterMap ReceiveArm.attempt) := by
  refine (always_of_steps
    (P := fun arms => (receiveLoop arms).Counts (arms.filterMap ReceiveArm.attempt))
    ?_ ?_ h).last
  · exact ⟨rfl, by omega⟩
  · rintro arms arm - hcounts ⟨failures, hrunning⟩
    rw [hrunning] at hcounts
    rw [receiveLoop_snoc, hrunning, filterMap_snoc]
    exact hcounts.step arm

/-- The receive loop stops for failures exactly when four items in a row have failed. -/
theorem the_receive_loop_keeps_its_budget (r : ReceiveRun) : Always ReceiveBudget r.arms := by
  intro i _
  have hcounts := receive_counts (r.running.take i)
  unfold ReceiveBudget
  rw [failed_iff]
  generalize (r.arms.take i).filterMap ReceiveArm.attempt = attempts at hcounts ⊢
  cases hloop : receiveLoop (r.arms.take i) with
  | receiving failures =>
    rw [hloop] at hcounts
    obtain ⟨hrow, hfew⟩ := hcounts
    constructor
    · intro h
      cases h
    · intro h
      omega
  | ended why =>
    rw [hloop] at hcounts
    cases why with
    | failures =>
      have hfour : inARow attempts = 4 := hcounts
      exact ⟨fun _ => by omega, fun _ => rfl⟩
    | changed canceled =>
      have hfew : inARow attempts ≤ 3 := hcounts
      exact iff_of_false (by simp) (by omega)
    | disconnected =>
      have hfew : inARow attempts ≤ 3 := hcounts
      exact iff_of_false (by simp) (by omega)

/-! ## The send loop never spends it -/

/-- The count of the send loop never gets past `1`. -/
def SendLoop.Low : SendLoop → Prop
  | .sending failures => failures ≤ 1
  | .ended why => why ≠ .failures

theorem SendLoop.Low.top {failures : Nat} (h : failures ≤ 1) : (SendLoop.top failures).Low := by
  unfold SendLoop.top
  rw [if_neg (by omega)]
  exact h

theorem SendLoop.Low.step {loop : SendLoop} (h : loop.Low) (arm : SendArm) :
    (loop.step arm).Low := by
  cases loop with
  | ended why => exact h
  | sending failures =>
    cases arm with
    | changed canceled =>
      cases canceled with
      | true => exact (by decide : SendEnd.canceled ≠ .failures)
      | false => exact Low.top h
    | closed => exact (by decide : SendEnd.closed ≠ .failures)
    | response success =>
      apply Low.top
      split <;> omega
    | error => exact (by decide : SendEnd.error ≠ .failures)

theorem sendLoop_low (arms : List SendArm) : (sendLoop arms).Low := by
  induction arms using List.reverseRecOn with
  | nil => exact Nat.zero_le 1
  | append_singleton arms arm ih =>
    rw [sendLoop_snoc]
    exact ih.step arm

theorem the_send_loop_never_stops_for_failures (arms : List SendArm) :
    sendLoop arms ≠ .ended .failures := by
  intro h
  have hlow := sendLoop_low arms
  rw [h] at hlow
  exact hlow rfl

/-- The rule holds at each point exactly if there never were four refusals in a row. -/
theorem always_sendBudget_iff (arms : List SendArm) :
    Always SendBudget arms ↔ ¬ RefusedFourTimes arms := by
  have hpoint : ∀ arms, SendBudget arms ↔ ¬ Failed 4 (arms.filterMap SendArm.attempt) := by
    intro arms
    unfold SendBudget
    exact iff_false_left (the_send_loop_never_stops_for_failures arms)
  induction arms using List.reverseRecOn with
  | nil =>
    rw [always_nil, hpoint]
    unfold Failed RefusedFourTimes
    simp
  | append_singleton arms arm ih =>
    rw [always_snoc, hpoint]
    refine (and_congr_left' ih).trans ?_
    unfold Failed RefusedFourTimes
    rw [filterMap_snoc]
    cases arm.attempt with
    | none =>
      simp only [Option.toList_none, List.append_nil, and_iff_left_iff_imp]
      intro hinfix hsuffix
      exact hinfix hsuffix.isInfix
    | some success =>
      rw [Option.toList_some, List.infix_concat_iff]
      tauto

/-- The two loops have one rule, and both keep it exactly as long as the server does not
refuse four messages in a row. -/
theorem the_loops_keep_one_failure_budget_iff (receiving : ReceiveRun) (sending : SendRun) :
    Always ReceiveBudget receiving.arms ∧ Always SendBudget sending.arms ↔
      ¬ RefusedFourTimes sending.arms := by
  rw [always_sendBudget_iff]
  exact and_iff_right (the_receive_loop_keeps_its_budget receiving)

theorem the_send_loop_outlasts_any_refusals (n : Nat) :
    sendLoop (List.replicate n (.response false)) = .sending (min n 1) := by
  induction n with
  | zero => rfl
  | succ n ih =>
    rw [List.replicate_succ', sendLoop_snoc, ih, Nat.min_eq_right (by omega : 1 ≤ n + 1)]
    rfl

/-- A server that refuses `n` messages, and the loop that goes on. -/
def refusing (n : Nat) : SendRun where
  arms := List.replicate n (.response false)
  running := by
    intro i hi
    rw [List.length_replicate] at hi
    rw [List.take_replicate]
    exact ⟨_, the_send_loop_outlasts_any_refusals _⟩

theorem four_refusals_do_not_stop_the_send_loop :
    sendLoop (refusing 4).arms = .sending 1 ∧ Failed 4 ((refusing 4).arms.filterMap SendArm.attempt) ∧
      ¬ Always SendBudget (refusing 4).arms := by
  refine ⟨the_send_loop_outlasts_any_refusals 4, ⟨[], rfl⟩, ?_⟩
  rw [always_sendBudget_iff]
  exact not_not_intro ⟨[], [], rfl⟩

/-! ## The loops of the workers -/

/-- Where the worker stands with its receive loop. -/
def ReceiveLoop.phase : ReceiveLoop → Phase
  | .receiving failures => .receiving failures
  | .ended .failures => .clearing
  | .ended (.changed canceled) => if canceled then .checking 2 "Disconnected" else .clearing
  | .ended .disconnected => .checking 2 "Disconnected"

theorem phase_top (failures : Nat) : (ReceiveLoop.top failures).phase = loop_top failures := by
  unfold ReceiveLoop.top loop_top
  split
  · rfl
  · rfl

/-- What a step of a worker is for its receive loop. -/
def receiveArm : WorkerStep → Option ReceiveArm
  | .receive item => some (.item item)
  | .canceled => some (.changed true)
  | _ => none

/-- A worker that receives does what the receive loop does. -/
theorem phase_of_step {x : Worker} {failures : Nat}
    (h : x.phase = (ReceiveLoop.receiving failures).phase) (active : Bool) {s : WorkerStep}
    {arm : ReceiveArm} (hs : receiveArm s = some arm) :
    (x.next active s).phase = ((ReceiveLoop.receiving failures).step arm).phase := by
  have hx : x.phase = .receiving failures := h
  cases s with
  | receive item =>
    cases hs
    simp only [Worker.next, hx]
    cases item with
    | message m =>
      simp only [received, ReceiveLoop.step]
      split
      · exact (phase_top 0).symm
      · rfl
    | failure => exact (phase_top (failures + 1)).symm
  | canceled =>
    cases hs
    rfl
  | _ => cases hs

/-! ## The send loop of the pipeline -/

/-- What an event of the pipeline is for its send loop. -/
def arm (p : pipeline.Pipeline) : pipeline.Event → Option SendArm
  | .canceled => some (.changed true)
  | .closed => some .closed
  | .rpc_failed => some .error
  | .delivered =>
    match p.rpc with
    | .answered success => some (.response success)
    | _ => none
  | _ => none

/-- The send loop of the pipeline stands where the loop does. -/
def SendLoop.Drives (p : pipeline.Pipeline) : SendLoop → Prop
  | .sending failures => p.send_loop ≠ .ended ∧ p.failures = failures
  | .ended _ => p.send_loop = .ended

variable {r : pipeline.Route} {p : pipeline.Pipeline}

theorem SendLoop.Drives.still {p' : pipeline.Pipeline} {loop : SendLoop} (h : loop.Drives p)
    (hloop : p'.send_loop = .ended ↔ p.send_loop = .ended) (hfailures : p'.failures = p.failures) :
    loop.Drives p' := by
  cases loop with
  | sending failures => exact ⟨by rw [Ne, hloop]; exact h.1, by rw [hfailures]; exact h.2⟩
  | ended why => exact hloop.mpr h

theorem SendLoop.Drives.running {loop : SendLoop} (h : loop.Drives p) (hp : p.send_loop ≠ .ended) :
    loop = .sending p.failures := by
  cases loop with
  | sending failures => rw [h.2]
  | ended why => exact absurd h hp

/-- An answer that is delivered is a response of the loop. -/
theorem drives_delivered {success : Bool} (hrpc : p.rpc = .answered success) :
    ((SendLoop.sending p.failures).step (.response success)).Drives (p.delivered r) := by
  unfold pipeline.Pipeline.delivered
  rw [hrpc]
  cases success with
  | true => exact ⟨by simp, rfl⟩
  | false => exact ⟨by simp, rfl⟩

/-- The other events leave the loop alone. -/
theorem SendLoop.Drives.unmoved {loop : SendLoop} (h : loop.Drives p) {e : pipeline.Event}
    (hp : p.Possible r e) (he : arm p e = none) : loop.Drives (p.step r e) := by
  cases e with
  | canceled => cases he
  | closed => cases he
  | rpc_failed => cases he
  | delivered =>
    obtain ⟨-, success, hrpc⟩ := hp
    simp [arm, hrpc] at he
  | send c device_id data =>
    refine h.still ?_ ?_ <;>
    · simp only [pipeline.Pipeline.step, pipeline.Pipeline.send]
      split <;> rfl
  | try_send c =>
    refine h.still ?_ ?_ <;>
    · simp only [pipeline.Pipeline.step, pipeline.Pipeline.try_send]
      split <;> rfl
  | recv =>
    have hselecting : p.send_loop = .selecting := hp.1.1
    refine h.still ?_ ?_ <;>
    · simp only [pipeline.Pipeline.step, pipeline.Pipeline.recv]
      split <;> simp [hselecting]
  | rpc_lookup =>
    refine h.still ?_ ?_ <;>
    · simp only [pipeline.Pipeline.step, pipeline.Pipeline.rpc_lookup]
      split <;> rfl
  | rpc_try_send =>
    refine h.still ?_ ?_ <;>
    · simp only [pipeline.Pipeline.step, pipeline.Pipeline.rpc_try_send]
      split <;> rfl
  | client e => exact h.still Iff.rfl rfl
  | clear_tx => exact h.still Iff.rfl rfl
  | register => exact h.still Iff.rfl rfl
  | stream_close => exact h.still Iff.rfl rfl
  | cleanup => exact h.still Iff.rfl rfl
  | publish => exact h.still Iff.rfl rfl

theorem SendLoop.Drives.step {loop : SendLoop} (h : loop.Drives p) {e : pipeline.Event}
    (hp : p.Possible r e) {a : SendArm} (he : arm p e = some a) :
    (loop.step a).Drives (p.step r e) := by
  cases e with
  | canceled =>
    obtain ⟨⟨hselecting, -⟩, -⟩ := hp
    rw [h.running (by simp [hselecting])]
    cases he
    rfl
  | closed =>
    obtain ⟨⟨hselecting, -⟩, -⟩ := hp
    rw [h.running (by simp [hselecting])]
    cases he
    rfl
  | rpc_failed =>
    have hawaiting : p.send_loop = .awaiting := hp
    rw [h.running (by simp [hawaiting])]
    cases he
    rfl
  | delivered =>
    obtain ⟨hawaiting, success, hrpc⟩ := hp
    rw [h.running (by simp [hawaiting])]
    simp only [arm, hrpc, Option.some.injEq] at he
    subst he
    exact drives_delivered hrpc
  | _ => cases he

/-- The send loop of a pipeline runs as the loop does, over the arms that the events are. -/
theorem sendLoop_drives {es : List pipeline.Event}
    (h : Steps (fun es e => (pipeline.pipelineAfter r es).Possible r e) es) :
    (sendLoop (flow (pipeline.Pipeline.step r) (fun p e => (arm p e).toList) {} es)).Drives
      (pipeline.pipelineAfter r es) := by
  refine (always_of_steps (P := fun es =>
    (sendLoop (flow (pipeline.Pipeline.step r) (fun p e => (arm p e).toList) {} es)).Drives
      (pipeline.pipelineAfter r es)) ?_ ?_ h).last
  · exact ⟨(by decide : pipeline.SendLoop.selecting ≠ .ended), rfl⟩
  · intro es e _ hdrives hpossible
    rw [pipeline.pipelineAfter_snoc, flow_snoc, ← pipeline.pipelineAfter]
    cases he : arm (pipeline.pipelineAfter r es) e with
    | none =>
      rw [Option.toList_none, List.append_nil]
      exact hdrives.unmoved hpossible he
    | some a =>
      rw [Option.toList_some, sendLoop_snoc]
      exact hdrives.step hpossible he

end bambu_farm_client.failure_budget
