-- The way of a report to the slicer: from the MQTT callback of a session through its two
-- channels and its stream to the receive loop of the client, and from there through
-- `bambu_network_cb_message_recv` to the callbacks of the slicer. Reports come in the order
-- in which the printer sent them, and none is lost while the stream stands.
import BambuFarm.ConnectionWorker
import BambuFarm.LocalPrintContext
import BambuFarm.PrinterAnnouncements

open json runs bambu_farm bambu_farm_client
open bambu_farm_client.available_printers (as_bytes)
open bambu_farm_client.connection (Client Worker WorkerId WorkerStep Item)
open bambu_farm_client.local_print_context (Contexts rewrite_status_message)

namespace bambu_farm.reports

variable {φ : Type}

/-! ## The model -/

/-- The task of a session that forwards its reports: at its `select!`, in the send of a report,
or at its end. -/
inductive Task
  | selecting
  | sending (report : RecvMessage)
  | ended
  deriving DecidableEq

def Task.held : Task → List RecvMessage
  | .sending report => [report]
  | _ => []

/-- The call of `bambu_network_cb_message_recv` that the receive loop is in: its message is
rewritten, or its copies of the callbacks are called one after the other. -/
inductive Call (φ : Type)
  | returned
  | rewritten (device_id message : Text)
  | calling (fns : List φ) (device_id message : Text)

/-- A report that the receive loop handed to the plugin, with the contexts at that time. -/
structure Handed where
  report : RecvMessage
  contexts : Contexts

def Handed.device_id (x : Handed) : Text := as_bytes x.report.dev_id

def Handed.message (x : Handed) : Text :=
  rewrite_status_message x.contexts x.device_id (as_bytes x.report.data)

structure Reports (φ : Type) where
  /-- The reports that the MQTT callback was called with. -/
  reported : List RecvMessage := []
  recv_rx : List RecvMessage := []
  task : Task := .selecting
  response_rx : List RecvMessage := []
  stream_open : Bool := true
  /-- What the server sent on the stream and the client has not taken. -/
  wire : List RecvMessage := []
  broken : Bool := false
  client : Client := {}
  contexts : Contexts := fun _ => none
  on_message : Option φ := none
  on_mqtt_message : Option φ := none
  call : Call φ := .returned
  handed : List Handed := []
  /-- What the callbacks were called with. -/
  passed : List (φ × Text × Text) := []

/-- The capacity of the channel to the stream. -/
def RESPONSE_CAPACITY : Nat := 4

/-- The printer reports, the task takes a report, puts it into the channel or sees the end of
the stream, the stream takes a report, is closed by the server or breaks, the receive loop
takes a report or a failure, the call of the plugin goes on, and the client, the print
contexts and the callbacks change. -/
inductive Event (φ : Type)
  | report (payload : String)
  | recv
  | send
  | closed
  | transmit
  | stream_close
  | break_stream
  | receive
  | failure
  | dispatch
  | deliver
  | return_call
  | client (e : connection.Event)
  | store (contexts : Contexts)
  | set_message_callback (fn : Option φ)
  | set_local_message_callback (fn : Option φ)

/-- The device of the session, and the worker of its connection. -/
structure Route where
  device_id : String
  worker : WorkerId

namespace Reports

variable (r : Route) (p : Reports φ)

/-- The message callback. Behind the end of the task its `send` fails. -/
def report (payload : String) : Reports φ :=
  let m : RecvMessage := { connected := true, dev_id := r.device_id, data := payload }
  { p with
    reported := p.reported ++ [m]
    recv_rx := if p.task = .ended then p.recv_rx else p.recv_rx ++ [m] }

def recv : Reports φ :=
  match p.task, p.recv_rx with
  | .selecting, m :: rest => { p with task := .sending m, recv_rx := rest }
  | _, _ => p

def send : Reports φ :=
  match p.task with
  | .sending m => { p with task := .selecting, response_rx := p.response_rx ++ [m] }
  | _ => p

/-- The stream takes the next report. What is sent on a broken stream is lost. -/
def transmit : Reports φ :=
  match p.response_rx with
  | m :: rest => { p with
      response_rx := rest
      wire := if p.broken then p.wire else p.wire ++ [m] }
  | [] => p

/-- The client after a round of the receive loop with an item of its stream. -/
def take (item : Item) : Client := connection.step p.client (.worker r.worker (.receive item))

def receive : Reports φ :=
  match p.wire with
  | m :: rest =>
    let client := p.take r (.message m)
    if m.connected then
      let x : Handed := ⟨m, p.contexts⟩
      { p with
        client, wire := rest, handed := p.handed ++ [x]
        call := .rewritten x.device_id x.message }
    else { p with client, wire := rest }
  | [] => p

/-- `dispatch_message` copies the two callbacks under the lock. The local one comes first. -/
def dispatch : Reports φ :=
  match p.call with
  | .rewritten device_id message => { p with
      call := .calling (p.on_mqtt_message.toList ++ p.on_message.toList) device_id message }
  | _ => p

def deliver : Reports φ :=
  match p.call with
  | .calling (fn :: fns) device_id message => { p with
      call := .calling fns device_id message
      passed := p.passed ++ [(fn, device_id, message)] }
  | _ => p

def return_call : Reports φ :=
  match p.call with
  | .calling [] _ _ => { p with call := .returned }
  | _ => p

def step : Event φ → Reports φ
  | .report payload => p.report r payload
  | .recv => p.recv
  | .send => p.send
  | .closed => { p with task := .ended, recv_rx := [] }
  | .transmit => p.transmit
  | .stream_close => { p with stream_open := false, response_rx := [] }
  | .break_stream => { p with broken := true, wire := [] }
  | .receive => p.receive r
  | .failure => { p with client := p.take r .failure }
  | .dispatch => p.dispatch
  | .deliver => p.deliver
  | .return_call => p.return_call
  | .client e => { p with client := connection.step p.client e }
  | .store contexts => { p with contexts }
  | .set_message_callback fn => { p with on_message := fn }
  | .set_local_message_callback fn => { p with on_mqtt_message := fn }

/-- The worker of the connection is in its receive loop. -/
def Receives : Prop :=
  (p.client.workers[r.worker]?.any fun x => x.phase matches .receiving _) = true

/-- An event that can happen next. The worker takes no step of its own while the plugin has
its call; its send loop is a task of its own. -/
def Possible : Event φ → Prop
  | .recv => p.task = .selecting ∧ p.recv_rx ≠ []
  | .send => (p.task matches .sending _) ∧ p.stream_open = true ∧
      p.response_rx.length < RESPONSE_CAPACITY
  | .closed => p.stream_open = false ∧ p.task ≠ .ended
  | .transmit => p.response_rx ≠ []
  | .stream_close => p.stream_open = true
  | .receive => p.wire ≠ [] ∧ (p.call matches .returned) ∧ p.Receives r
  | .failure => p.broken = true ∧ (p.call matches .returned) ∧ p.Receives r
  | .dispatch => (p.call matches .rewritten _ _)
  | .deliver => (p.call matches .calling (_ :: _) _ _)
  | .return_call => (p.call matches .calling [] _ _)
  | .client (.worker w s) => w = r.worker →
      ¬ (s matches .receive _) ∧ (s = .send_loop_ended ∨ (p.call matches .returned))
  | _ => True

instance : DecidablePred (p.Possible r)
  | .recv => inferInstanceAs (Decidable (_ ∧ _))
  | .send => inferInstanceAs (Decidable (_ ∧ _ ∧ _))
  | .closed => inferInstanceAs (Decidable (_ ∧ _))
  | .transmit => inferInstanceAs (Decidable (_ ≠ _))
  | .stream_close => inferInstanceAs (Decidable (_ = _))
  | .receive => inferInstanceAs (Decidable (_ ∧ _ ∧ _ = _))
  | .failure => inferInstanceAs (Decidable (_ ∧ _ ∧ _ = _))
  | .dispatch => inferInstanceAs (Decidable (_ = _))
  | .deliver => inferInstanceAs (Decidable (_ = _))
  | .return_call => inferInstanceAs (Decidable (_ = _))
  | .client (.worker _ _) => inferInstanceAs (Decidable (_ → _ ∧ _))
  | .client (.connect _ _ _) => isTrue trivial
  | .client (.disconnect _) => isTrue trivial
  | .client (.plugin _) => isTrue trivial
  | .report _ => isTrue trivial
  | .break_stream => isTrue trivial
  | .store _ => isTrue trivial
  | .set_message_callback _ => isTrue trivial
  | .set_local_message_callback _ => isTrue trivial

end Reports

def reportsAfter (r : Route) (es : List (Event φ)) : Reports φ := after (Reports.step r) {} es

@[simp] theorem reportsAfter_snoc (r : Route) (es : List (Event φ)) (e : Event φ) :
    reportsAfter r (es ++ [e]) = (reportsAfter r es).step r e := by
  simp [reportsAfter]

/-- A run of the reports: its events, each of which could happen when it did. -/
structure Run (φ : Type) (r : Route) where
  events : List (Event φ)
  possible : Steps (fun es e => (reportsAfter r es).Possible r e) events

/-! ## The law -/

/-- The callbacks that the slicer has set, in the order of their calls. -/
def callbacks (p : Reports φ) : List φ := p.on_mqtt_message.toList ++ p.on_message.toList

/-- The calls of the callbacks for a report. -/
def Handed.calls (fns : List φ) (x : Handed) : List (φ × Text × Text) :=
  fns.map fun fn => (fn, x.device_id, x.message)

/-- The reports that are handed over, and those on their way behind them. -/
def line (p : Reports φ) : List RecvMessage :=
  p.handed.map (·.report) ++ p.wire ++ p.response_rx ++ p.task.held ++ p.recv_rx

structure InOrder (fns : List φ) (p : Reports φ) : Prop where
  /-- The reports are handed over in the order of the printer, none of them twice and none
  of them passed over. -/
  front : p.handed.map (·.report) <+: p.reported
  /-- While the stream stands, what is not handed over is on its way. -/
  whole : p.stream_open = true → p.broken = false → line p = p.reported
  bounded : p.response_rx.length ≤ RESPONSE_CAPACITY
  /-- The callbacks are called with each report, one after the other. -/
  told : p.passed <+: p.handed.flatMap (Handed.calls fns)
  told_all : p.call = .returned → p.passed = p.handed.flatMap (Handed.calls fns)

/-! ## What holds at each point -/

/-- The calls that a call of the plugin has still to make. -/
def Call.rest : Call φ → List (φ × Text × Text)
  | .calling fns device_id message => fns.map fun fn => (fn, device_id, message)
  | _ => []

/-- The reports whose callbacks have been copied. -/
def dispatched (p : Reports φ) : List Handed :=
  if p.call matches .rewritten _ _ then p.handed.dropLast else p.handed

structure Sound (r : Route) (p : Reports φ) : Prop where
  own : ∀ m ∈ p.reported, m.connected = true ∧ m.dev_id = r.device_id
  front : p.handed.map (·.report) ++ p.wire <+: p.reported
  whole : p.stream_open = true → p.broken = false → line p = p.reported
  running : p.stream_open = true → p.task ≠ .ended
  closed : p.stream_open = false → p.response_rx = []
  silent : p.broken = true → p.wire = []
  bounded : p.response_rx.length ≤ RESPONSE_CAPACITY
  /-- A rewritten message is that of the last report. -/
  last : ∀ device_id message, p.call = .rewritten device_id message →
    ∃ xs x, p.handed = xs ++ [x] ∧ device_id = x.device_id ∧ message = x.message

/-- What the callbacks were called with, and what they will be called with. -/
def Tells (fns : List φ) (p : Reports φ) : Prop :=
  p.passed ++ p.call.rest = (dispatched p).flatMap (Handed.calls fns)

section

variable {r : Route} {p : Reports φ}

theorem Sound.start : Sound r ({} : Reports φ) where
  own := by simp
  front := by simp
  whole := fun _ _ => rfl
  running := by simp
  closed := by simp
  silent := by simp
  bounded := by simp [RESPONSE_CAPACITY]
  last := by simp

theorem Sound.report (h : Sound r p) (payload : String) : Sound r (p.report r payload) := by
  refine { h with own := ?_, front := ?_, whole := ?_ }
  · intro m hm
    rcases List.mem_append.mp hm with hm | hm
    · exact h.own m hm
    · cases List.mem_singleton.mp hm
      exact ⟨rfl, rfl⟩
  · exact h.front.trans (List.prefix_append _ _)
  · intro hopen hbroken
    have hline := h.whole hopen hbroken
    simp only [Reports.report, line, h.running hopen, if_false, ← List.append_assoc]
    rw [← hline]
    rfl

theorem Sound.recv (h : Sound r p) : Sound r p.recv := by
  unfold Reports.recv
  split
  · rename_i m rest htask hrecv
    refine { h with whole := ?_, running := ?_ }
    · intro hopen hbroken
      rw [← h.whole hopen hbroken]
      simp [line, htask, hrecv, Task.held]
    · simp
  · exact h

theorem Sound.send (h : Sound r p) (hopen : p.stream_open = true)
    (hroom : p.response_rx.length < RESPONSE_CAPACITY) : Sound r p.send := by
  unfold Reports.send
  split
  · rename_i m htask
    refine { h with whole := ?_, running := ?_, closed := ?_, bounded := ?_ }
    · intro _ hbroken
      rw [← h.whole hopen hbroken]
      simp [line, htask, Task.held]
    · simp
    · intro hclosed
      rw [hopen] at hclosed
      cases hclosed
    · rw [List.length_append, List.length_singleton]
      omega
  · exact h

/-- The stream takes a report, and with it the next one of the printer. -/
theorem Sound.transmit (h : Sound r p) : Sound r p.transmit := by
  unfold Reports.transmit
  split
  · rename_i m rest hresponse
    have hopen : p.stream_open = true := by
      cases hstream : p.stream_open with
      | true => rfl
      | false =>
        rw [h.closed hstream] at hresponse
        cases hresponse
    have hbounded : rest.length ≤ RESPONSE_CAPACITY := by
      have := h.bounded
      rw [hresponse, List.length_cons] at this
      omega
    cases hbroken : p.broken with
    | true =>
      refine { h with front := ?_, whole := ?_, closed := ?_, silent := ?_, bounded := hbounded }
      · exact h.front
      · intro _ hsound
        cases hsound
      · intro hclosed
        rw [hopen] at hclosed
        cases hclosed
      · exact fun _ => h.silent hbroken
    | false =>
      have hline := h.whole hopen hbroken
      rw [line, hresponse] at hline
      refine { h with front := ?_, whole := ?_, closed := ?_, silent := ?_, bounded := hbounded }
      · rw [← hline]
        simp only [Bool.false_eq_true, if_false]
        exact ⟨rest ++ p.task.held ++ p.recv_rx, by simp⟩
      · intro _ _
        rw [← hline]
        simp [line]
      · intro hclosed
        rw [hopen] at hclosed
        cases hclosed
      · intro hsilent
        cases hsilent
  · exact h

theorem Sound.client (h : Sound r p) (client : Client) : Sound r { p with client } :=
  { h with }

/-- The receive loop takes a report from the stream. -/
theorem Sound.receive (h : Sound r p) : Sound r (p.receive r) := by
  unfold Reports.receive
  split
  · rename_i m rest hwire
    have hfront := h.front
    rw [hwire] at hfront
    have hown : m.connected = true := (h.own m (hfront.subset (by simp))).1
    dsimp only
    rw [if_pos hown]
    refine { h with front := ?_, whole := ?_, silent := ?_, last := ?_ }
    · simpa using hfront
    · intro hopen hbroken
      rw [← h.whole hopen hbroken]
      simp [line, hwire]
    · intro hbroken
      rw [h.silent hbroken] at hwire
      cases hwire
    · intro device_id message hcall
      cases hcall
      exact ⟨_, _, rfl, rfl, rfl⟩
  · exact h

theorem Sound.step (h : Sound r p) {e : Event φ} (he : p.Possible r e) : Sound r (p.step r e) := by
  cases e with
  | report payload => exact h.report payload
  | recv => exact h.recv
  | send => exact h.send he.2.1 he.2.2
  | closed =>
    have hclosed : ¬ p.stream_open = true := by simp [he.1]
    exact { h with whole := fun hopen => absurd hopen hclosed
                   running := fun hopen => absurd hopen hclosed }
  | transmit => exact h.transmit
  | stream_close =>
    exact { h with
      whole := fun hopen => by cases hopen
      running := fun hopen => by cases hopen
      closed := fun _ => rfl
      bounded := Nat.zero_le _ }
  | break_stream =>
    refine { h with front := ?_, whole := ?_, silent := fun _ => rfl }
    · have hfront := (List.prefix_append _ _).trans h.front
      simpa [Reports.step] using hfront
    · intro _ hbroken
      cases hbroken
  | receive => exact h.receive
  | failure => exact h.client _
  | dispatch =>
    simp only [Reports.step, Reports.dispatch]
    split
    · exact { h with last := by simp }
    · exact h
  | deliver =>
    simp only [Reports.step, Reports.deliver]
    split
    · exact { h with last := by simp }
    · exact h
  | return_call =>
    simp only [Reports.step, Reports.return_call]
    split
    · exact { h with last := by simp }
    · exact h
  | client e => exact h.client _
  | store contexts => exact { h with }
  | set_message_callback fn => exact { h with }
  | set_local_message_callback fn => exact { h with }

/-! ### The callbacks -/

theorem Tells.start (fns : List φ) : Tells fns ({} : Reports φ) := rfl

/-- A call that is not between its two sections has told of all reports. -/
theorem tells_iff {fns : List φ} (hcall : ∀ device_id message, p.call ≠ .rewritten device_id message) :
    Tells fns p ↔ p.passed ++ p.call.rest = p.handed.flatMap (Handed.calls fns) := by
  unfold Tells dispatched
  cases hc : p.call with
  | returned => simp
  | calling => simp
  | rewritten device_id message => exact absurd hc (hcall _ _)

theorem Tells.receive {fns : List φ} (h : Tells fns p) (hcall : p.call = .returned) :
    Tells fns (p.receive r) := by
  have hpassed : p.passed = p.handed.flatMap (Handed.calls fns) := by
    simpa [Tells, dispatched, hcall, Call.rest] using h
  unfold Reports.receive
  split
  · dsimp only
    split
    · simp [Tells, dispatched, Call.rest, hpassed]
    · simpa [Tells, dispatched, hcall, Call.rest] using hpassed
  · exact h

theorem Tells.dispatch {fns : List φ} (h : Tells fns p) (hs : Sound r p)
    (hfns : callbacks p = fns) : Tells fns p.dispatch := by
  unfold Reports.dispatch
  split
  · rename_i device_id message hcall
    obtain ⟨xs, x, hxs, rfl, rfl⟩ := hs.last _ _ hcall
    have hpassed : p.passed = xs.flatMap (Handed.calls fns) := by
      simpa [Tells, dispatched, hcall, hxs, Call.rest] using h
    unfold callbacks at hfns
    simp [Tells, dispatched, Call.rest, hxs, hpassed, hfns, Handed.calls]
  · exact h

theorem Tells.deliver {fns : List φ} (h : Tells fns p) : Tells fns p.deliver := by
  unfold Reports.deliver
  split
  · rename_i hcall
    simpa [Tells, dispatched, hcall, Call.rest] using h
  · exact h

theorem Tells.return_call {fns : List φ} (h : Tells fns p) : Tells fns p.return_call := by
  unfold Reports.return_call
  split
  · rename_i hcall
    simpa [Tells, dispatched, hcall, Call.rest] using h
  · exact h

/-- Only the receive loop and its call touch what the callbacks were told. -/
theorem Tells.congr {fns : List φ} {q : Reports φ} (h : Tells fns p) (hcall : q.call = p.call)
    (hhanded : q.handed = p.handed) (hpassed : q.passed = p.passed) : Tells fns q := by
  unfold Tells dispatched at h ⊢
  rwa [hcall, hhanded, hpassed]

theorem Tells.step {fns : List φ} (h : Tells fns p) (hs : Sound r p) {e : Event φ}
    (he : p.Possible r e) (hfns : e = .dispatch → callbacks p = fns) : Tells fns (p.step r e) := by
  cases e with
  | receive =>
    refine h.receive ?_
    have hcall := he.2.1
    revert hcall
    cases p.call <;> simp
  | dispatch => exact h.dispatch hs (hfns rfl)
  | deliver => exact h.deliver
  | return_call => exact h.return_call
  | recv =>
    simp only [Reports.step, Reports.recv]
    split
    · exact h.congr rfl rfl rfl
    · exact h
  | send =>
    simp only [Reports.step, Reports.send]
    split
    · exact h.congr rfl rfl rfl
    · exact h
  | transmit =>
    simp only [Reports.step, Reports.transmit]
    split
    · exact h.congr rfl rfl rfl
    · exact h
  | _ => exact h.congr rfl rfl rfl

end

/-- The slicer has these callbacks when they are copied. -/
def Registered (r : Route) (fns : List φ) (es : List (Event φ)) (e : Event φ) : Prop :=
  (e matches .dispatch) → callbacks (reportsAfter r es) = fns

theorem sound_of_possible {r : Route} {es : List (Event φ)}
    (h : Steps (fun pre e => (reportsAfter r pre).Possible r e) es) :
    Sound r (reportsAfter r es) :=
  (always_of_steps (P := fun es => Sound r (reportsAfter r es)) Sound.start
    (fun pre e _ hpre he => by
      rw [reportsAfter_snoc]
      exact hpre.step he) h).last

theorem tells_of_registered {r : Route} {fns : List φ} {es : List (Event φ)}
    (h : Steps (fun pre e => (reportsAfter r pre).Possible r e ∧ Registered r fns pre e) es) :
    Tells fns (reportsAfter r es) :=
  (always_of_steps (P := fun es => Tells fns (reportsAfter r es)) (Tells.start fns)
    (fun pre e hsteps hpre he => by
      rw [reportsAfter_snoc]
      have hs := sound_of_possible (hsteps.mono fun _ _ h => h.1)
      refine hpre.step hs he.1 fun hdispatch => ?_
      subst hdispatch
      exact he.2 rfl) h).last

theorem Tells.told {fns : List φ} {p : Reports φ} (h : Tells fns p) :
    p.passed <+: p.handed.flatMap (Handed.calls fns) := by
  have hpassed : p.passed <+: (dispatched p).flatMap (Handed.calls fns) := ⟨_, h⟩
  refine hpassed.trans ?_
  unfold dispatched
  split
  · obtain hnil | ⟨xs, x, hxs⟩ := List.eq_nil_or_concat p.handed
    · rw [hnil]
      exact List.prefix_refl _
    · rw [hxs, List.concat_eq_append, List.dropLast_concat, List.flatMap_append]
      exact List.prefix_append _ _
  · exact List.prefix_refl _

/-- Whatever the order of the steps, the slicer gets the reports of the printer in their order,
each of them once, and while the stream stands none is lost. -/
theorem the_slicer_gets_the_reports_in_order (r : Route) (run : Run φ r) (fns : List φ)
    (h : Steps (Registered r fns) run.events) :
    Always (fun es => InOrder fns (reportsAfter r es)) run.events := by
  intro i _
  have hs := sound_of_possible (run.possible.take i)
  have ht := tells_of_registered ((run.possible.take i).and (h.take i))
  refine ⟨(List.prefix_append _ _).trans hs.front, hs.whole, hs.bounded, ht.told, fun hcall => ?_⟩
  have hall := (tells_iff (p := reportsAfter r (run.events.take i)) (by simp [hcall])).mp ht
  simpa [hcall, Call.rest] using hall

/-- The slicer sets its callbacks, the printer connects, and reports twice. -/
def twoReports : List (Event Nat) :=
  [.set_local_message_callback (some 0), .set_message_callback (some 1),
    .client (.connect "printer-1" "" 1), .client (.worker 0 (.dial true)),
    .client (.worker 0 (.answer true)), .client (.worker 0 .record),
    .client (.worker 0 .report), .report "idle", .recv, .report "busy", .send, .recv, .transmit,
    .receive, .dispatch, .deliver]

def reportRun : Run Nat ⟨"printer-1", 0⟩ := ⟨twoReports, by decide +kernel⟩

theorem two_reports_in_order :
    Always (fun es => InOrder [0, 1] (reportsAfter ⟨"printer-1", 0⟩ es)) twoReports :=
  the_slicer_gets_the_reports_in_order _ reportRun [0, 1] (by
    unfold Registered
    decide +kernel)

/-! ## Nothing gets stuck -/

/-- The stream stands, and the worker of the connection is in its receive loop. -/
structure Standing (r : Route) (p : Reports φ) : Prop where
  stream_open : p.stream_open = true
  sound : p.broken = false
  receives : p.Receives r

/-- The events that bring reports nearer to the slicer. -/
def Event.isMove : Event φ → Bool
  | .recv => true
  | .send => true
  | .transmit => true
  | .receive => true
  | .dispatch => true
  | .deliver => true
  | .return_call => true
  | _ => false

/-- The reports that the receive loop has not taken. -/
def outstanding (p : Reports φ) : Nat := p.reported.length - p.handed.length

def Call.rank : Call φ → Nat
  | .rewritten _ _ => 4
  | .calling fns _ _ => fns.length + 1
  | .returned => 0

/-- The moves that are left at most: a report is called with two callbacks at most. -/
def rank (p : Reports φ) : Nat :=
  8 * p.recv_rx.length + 7 * p.task.held.length + 6 * p.response_rx.length + 5 * p.wire.length +
    p.call.rank

section

variable {r : Route} {p : Reports φ}

theorem sending_of_possible (he : p.Possible r .send) : ∃ m, p.task = .sending m := by
  have htask := he.1
  cases h : p.task with
  | sending m => exact ⟨m, rfl⟩
  | _ => simp [h] at htask

theorem rewritten_of_possible (he : p.Possible r .dispatch) :
    ∃ device_id message, p.call = .rewritten device_id message := by
  unfold Reports.Possible at he
  cases h : p.call with
  | rewritten device_id message => exact ⟨_, _, rfl⟩
  | _ => simp [h] at he

theorem calling_of_possible (he : p.Possible r .deliver) :
    ∃ fn fns device_id message, p.call = .calling (fn :: fns) device_id message := by
  unfold Reports.Possible at he
  cases h : p.call with
  | calling fns device_id message =>
    cases fns with
    | nil => simp [h] at he
    | cons fn fns => exact ⟨_, _, _, _, rfl⟩
  | _ => simp [h] at he

theorem called_of_possible (he : p.Possible r .return_call) :
    ∃ device_id message, p.call = .calling [] device_id message := by
  unfold Reports.Possible at he
  cases h : p.call with
  | calling fns device_id message =>
    cases fns with
    | nil => exact ⟨_, _, rfl⟩
    | cons fn fns => simp [h] at he
  | _ => simp [h] at he

theorem returned_of_possible (he : p.Possible r .receive) : p.call = .returned := by
  have hcall := he.2.1
  cases h : p.call with
  | returned => rfl
  | _ => simp [h] at hcall

/-- The receive loop goes on behind a report. -/
theorem receive_standing (h : Standing r p) (hs : Sound r p) {m : RecvMessage}
    {rest : List RecvMessage} (hwire : p.wire = m :: rest) :
    Standing r (p.receive r) ∧ (p.receive r).reported = p.reported ∧
      (p.call = .returned → rank (p.receive r) < rank p) := by
  have hown : m.connected = true := by
    have hmem : m ∈ p.reported := hs.front.subset (by simp [hwire])
    exact (hs.own m hmem).1
  have heq : p.receive r = { p with
      client := p.take r (.message m), wire := rest, handed := p.handed ++ [⟨m, p.contexts⟩]
      call := .rewritten (Handed.device_id ⟨m, p.contexts⟩) (Handed.message ⟨m, p.contexts⟩) } := by
    rw [Reports.receive, hwire]
    dsimp only
    rw [if_pos hown]
  obtain ⟨x, hx, hphase⟩ := (Option.any_eq_true _ _).mp h.receives
  rw [heq]
  refine ⟨⟨h.stream_open, h.sound, ?_⟩, rfl, fun hcall => ?_⟩
  · simp only [Reports.Receives, Reports.take, connection.own_step hx, Option.any_some]
    cases hx' : x.phase with
    | receiving failures =>
      simp [Worker.next, hx', connection.received, hown, connection.loop_top]
    | _ => simp [hx'] at hphase
  · simp only [rank, hwire, hcall, Call.rank, List.length_cons]
    omega

theorem move_step (h : Standing r p) (hs : Sound r p) {e : Event φ} (hmove : e.isMove = true)
    (he : p.Possible r e) : Standing r (p.step r e) ∧ (p.step r e).reported = p.reported ∧
      rank (p.step r e) < rank p := by
  cases e with
  | recv =>
    obtain ⟨htask, hrecv⟩ := he
    obtain ⟨m, rest, hm⟩ := List.exists_cons_of_ne_nil hrecv
    simp only [Reports.step, Reports.recv, htask, hm]
    refine ⟨⟨h.stream_open, h.sound, h.receives⟩, trivial, ?_⟩
    simp only [rank, htask, hm, Task.held, List.length_cons, List.length_nil]
    omega
  | send =>
    obtain ⟨m, htask⟩ := sending_of_possible he
    simp only [Reports.step, Reports.send, htask]
    refine ⟨⟨h.stream_open, h.sound, h.receives⟩, trivial, ?_⟩
    simp only [rank, htask, Task.held, List.length_append, List.length_cons, List.length_nil]
    omega
  | transmit =>
    obtain ⟨m, rest, hm⟩ := List.exists_cons_of_ne_nil he
    simp only [Reports.step, Reports.transmit, hm, h.sound, Bool.false_eq_true, if_false]
    refine ⟨⟨h.stream_open, rfl, h.receives⟩, trivial, ?_⟩
    simp only [rank, hm, List.length_append, List.length_cons, List.length_nil]
    omega
  | receive =>
    obtain ⟨m, rest, hm⟩ := List.exists_cons_of_ne_nil he.1
    obtain ⟨hstands, hreported, hrank⟩ := receive_standing h hs hm
    exact ⟨hstands, hreported, hrank (returned_of_possible he)⟩
  | dispatch =>
    obtain ⟨device_id, message, hcall⟩ := rewritten_of_possible he
    simp only [Reports.step, Reports.dispatch, hcall]
    refine ⟨⟨h.stream_open, h.sound, h.receives⟩, trivial, ?_⟩
    have hfew : (p.on_mqtt_message.toList ++ p.on_message.toList).length ≤ 2 := by
      cases p.on_mqtt_message <;> cases p.on_message <;> simp
    simp only [rank, hcall, Call.rank]
    omega
  | deliver =>
    obtain ⟨fn, fns, device_id, message, hcall⟩ := calling_of_possible he
    simp only [Reports.step, Reports.deliver, hcall]
    refine ⟨⟨h.stream_open, h.sound, h.receives⟩, trivial, ?_⟩
    simp only [rank, hcall, Call.rank, List.length_cons]
    omega
  | return_call =>
    obtain ⟨device_id, message, hcall⟩ := called_of_possible he
    simp only [Reports.step, Reports.return_call, hcall]
    refine ⟨⟨h.stream_open, h.sound, h.receives⟩, trivial, ?_⟩
    simp only [rank, hcall, Call.rank, List.length_nil]
    omega
  | _ => cases hmove

/-- Where no move is left, each report has come through. -/
theorem all_handed (h : Standing r p) (hs : Sound r p)
    (hstuck : ∀ e : Event φ, e.isMove = true → ¬ p.Possible r e) :
    p.handed.map (·.report) = p.reported ∧ p.call = .returned := by
  have hcall : p.call = .returned := by
    cases hc : p.call with
    | returned => rfl
    | rewritten device_id message => exact absurd (by simp [Reports.Possible, hc]) (hstuck .dispatch rfl)
    | calling fns device_id message =>
      cases fns with
      | nil => exact absurd (by simp [Reports.Possible, hc]) (hstuck .return_call rfl)
      | cons fn fns => exact absurd (by simp [Reports.Possible, hc]) (hstuck .deliver rfl)
  have hwire : p.wire = [] := by
    by_contra hne
    exact hstuck .receive rfl ⟨hne, by rw [hcall], h.receives⟩
  have hresponse : p.response_rx = [] := by
    by_contra hne
    exact hstuck .transmit rfl hne
  have hroom : p.response_rx.length < RESPONSE_CAPACITY := by simp [hresponse, RESPONSE_CAPACITY]
  have hline := hs.whole h.stream_open h.sound
  cases htask : p.task with
  | ended => exact absurd htask (hs.running h.stream_open)
  | sending m => exact absurd ⟨by simp [htask], h.stream_open, hroom⟩ (hstuck .send rfl)
  | selecting =>
    have hrecv : p.recv_rx = [] := by
      by_contra hne
      exact hstuck .recv rfl ⟨htask, hne⟩
    refine ⟨?_, hcall⟩
    simpa [line, hwire, hresponse, htask, hrecv, Task.held] using hline

theorem rank_le (h : Standing r p) (hs : Sound r p) : rank p ≤ 8 * outstanding p + p.call.rank := by
  have hline := congrArg List.length (hs.whole h.stream_open h.sound)
  simp only [line, List.length_append, List.length_map] at hline
  unfold rank outstanding
  omega

end

/-- While the stream stands and the worker receives, the moves come to an end whatever their
order, and then the slicer has been called with every report. -/
theorem every_report_comes_through (r : Route) (run : Run φ r) (moves : List (Event φ))
    (hmoves : ∀ e ∈ moves, e.isMove = true)
    (hpossible : Steps (fun pre e => (reportsAfter r (run.events ++ pre)).Possible r e) moves)
    (hstands : Standing r (reportsAfter r run.events)) :
    moves.length ≤ 8 * outstanding (reportsAfter r run.events) +
        (reportsAfter r run.events).call.rank ∧
      ((∀ e : Event φ, e.isMove = true → ¬ (reportsAfter r (run.events ++ moves)).Possible r e) →
        (reportsAfter r (run.events ++ moves)).handed.map (·.report) =
            (reportsAfter r run.events).reported ∧
          (reportsAfter r (run.events ++ moves)).call = .returned) := by
  have hs := sound_of_possible run.possible
  have hafter : ∀ es, reportsAfter r (run.events ++ es) =
      after (Reports.step r) (reportsAfter r run.events) es := fun es => after_append _ _ _ es
  have hmove : Steps (fun pre e => e.isMove = true ∧
      (after (Reports.step r) (reportsAfter r run.events) pre).Possible r e) moves := by
    intro i hi
    refine ⟨hmoves _ (List.getElem_mem hi), ?_⟩
    rw [← hafter]
    exact hpossible i hi
  have hkept : ∀ (p : Reports φ) (e : Event φ),
      (Standing r p ∧ Sound r p ∧ p.reported = (reportsAfter r run.events).reported) →
      e.isMove = true ∧ p.Possible r e →
      (Standing r (p.step r e) ∧ Sound r (p.step r e) ∧
        (p.step r e).reported = (reportsAfter r run.events).reported) ∧
        rank (p.step r e) < rank p := by
    intro p e hp he
    obtain ⟨hstands, hreported, hrank⟩ := move_step hp.1 hp.2.1 he.1 he.2
    exact ⟨⟨hstands, hp.2.1.step he.2, hreported.trans hp.2.2⟩, hrank⟩
  obtain ⟨⟨hends, hsound, hsame⟩, hlength⟩ := length_le_rank hkept ⟨hstands, hs, rfl⟩ hmove
  rw [hafter]
  have hle := rank_le hstands hs
  refine ⟨by omega, fun hstuck => ?_⟩
  rw [← hsame]
  exact all_handed hends hsound hstuck

/-- The moves that bring the second report through. -/
def moves : List (Event Nat) :=
  [.deliver, .send, .return_call, .transmit, .receive, .dispatch, .deliver, .deliver, .return_call]

theorem two_reports_come_through :
    moves.length ≤ 8 * outstanding (reportsAfter ⟨"printer-1", 0⟩ twoReports) +
        (reportsAfter ⟨"printer-1", 0⟩ twoReports).call.rank ∧
      ((∀ e : Event Nat, e.isMove = true →
          ¬ (reportsAfter ⟨"printer-1", 0⟩ (twoReports ++ moves)).Possible ⟨"printer-1", 0⟩ e) →
        (reportsAfter ⟨"printer-1", 0⟩ (twoReports ++ moves)).handed.map (·.report) =
            (reportsAfter ⟨"printer-1", 0⟩ twoReports).reported ∧
          (reportsAfter ⟨"printer-1", 0⟩ (twoReports ++ moves)).call = .returned) :=
  every_report_comes_through _ reportRun moves (by decide) (by decide +kernel)
    ⟨rfl, rfl, by unfold Reports.Receives; decide +kernel⟩

end bambu_farm.reports
