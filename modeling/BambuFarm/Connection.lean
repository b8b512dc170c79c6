-- The connection manager of the client: three globals behind three mutexes,
-- and the operations that read and write them. The reconnect of the farm loop
-- runs under the guard of the current printer, and waits for itself when a
-- connection is active.
import BambuFarm.Frames
import BambuFarm.Locks
import BambuFarm.Runs
import BambuFarm.Proto
import BambuFarm.SessionState
import Mathlib.Logic.Function.Basic

open runs frames locks bambu_farm
open bambu_farm_client.errors bambu_farm_client.session_state

namespace bambu_farm_client.connection

/-! ## The globals -/

/-- The mutexes of the connection manager, under the names of the statics they guard. -/
inductive Global
  | MSG_TX
  | CURRENT_CONNECTED_PRINTER
  | ACTIVE_CONNECTION_STATE
  deriving DecidableEq

/-- A worker is the task that a connect spawns, named by its place in the order of spawns. -/
abbrev WorkerId := Nat

/-- The generation of a connect is the time of the call in nanoseconds. -/
abbrev Generation := Nat

/-- Where a worker stands: before the connection to the farm, before the answer to its
`connect_printer`, before and between the two steps that publish a success, in the receive
loop with the failures in a row so far, in `emit_disconnect_event_if_active` before and
after the look at the active connection, before `clear_active_connection`, and at the end. -/
inductive Phase
  | dialing
  | calling
  | answered
  | recorded
  | receiving (failures : Nat)
  | checking (status : Int) (message : String)
  | emitting (status : Int) (message : String)
  | clearing
  | done
  deriving DecidableEq

/-- A worker, whether it has spawned its send loop, and its ends of the two channels that
its connect made: the requests that wait for the send loop, and the cancel flag. -/
structure Worker where
  device_id : String
  generation : Generation
  password : String
  phase : Phase := .dialing
  sending : Bool := false
  queue : List SendMessageRequest := []
  rx_open : Bool := true
  canceled : Bool := false
  deriving DecidableEq

/-- The value of `ACTIVE_CONNECTION_STATE`. `cancel_tx` names the worker that it cancels. -/
structure Active where
  device_id : String
  generation : Generation
  cancel_tx : WorkerId
  deriving DecidableEq

/-- A call from the client into the plugin. -/
inductive Callback
  | connected (device_id : String)
  | disconnected (device_id : String) (status : Int) (message : String)
  | message_recv (device_id json : String)
  deriving DecidableEq

structure Client where
  /-- The sender of a device is named by the worker at the other end. -/
  MSG_TX : String → Option WorkerId := fun _ => none
  CURRENT_CONNECTED_PRINTER : Option String := none
  ACTIVE_CONNECTION_STATE : Option Active := none
  workers : List Worker := []
  session : SessionState := {}
  callbacks : List Callback := []

/-- The capacity of the channel to the send loop. -/
def MESSAGE_CAPACITY : Nat := 10

namespace Client

def modifyWorker (c : Client) (w : WorkerId) (f : Worker → Worker) : Client :=
  { c with workers := c.workers.modify w f }

/-- `cancel_tx.send(true)` -/
def cancel (c : Client) (w : WorkerId) : Client :=
  c.modifyWorker w fun x => { x with canceled := true }

def removeTx (c : Client) (device_id : String) : Client :=
  { c with MSG_TX := Function.update c.MSG_TX device_id none }

def takeCurrent (c : Client) (device_id : String) : Client :=
  if c.CURRENT_CONNECTED_PRINTER = some device_id then
    { c with CURRENT_CONNECTED_PRINTER := none }
  else c

/-- The worker of the device and the generation is the active one. -/
def isActive (c : Client) (device_id : String) (generation : Generation) : Bool :=
  c.ACTIVE_CONNECTION_STATE.any fun a => a.device_id = device_id && a.generation = generation

def callback (c : Client) : Callback → Client
  | .connected d => { c with
      callbacks := c.callbacks ++ [.connected d]
      session := (bambu_network_cb_connected c.session d).1 }
  | .disconnected d status message => { c with
      callbacks := c.callbacks ++ [.disconnected d status message]
      session := (bambu_network_cb_disconnected c.session d status).1 }
  | .message_recv d json => { c with callbacks := c.callbacks ++ [.message_recv d json] }

@[simp] theorem modifyWorker_active (c : Client) (w : WorkerId) (f : Worker → Worker) :
    (c.modifyWorker w f).ACTIVE_CONNECTION_STATE = c.ACTIVE_CONNECTION_STATE := rfl

@[simp] theorem modifyWorker_current (c : Client) (w : WorkerId) (f : Worker → Worker) :
    (c.modifyWorker w f).CURRENT_CONNECTED_PRINTER = c.CURRENT_CONNECTED_PRINTER := rfl

@[simp] theorem modifyWorker_session (c : Client) (w : WorkerId) (f : Worker → Worker) :
    (c.modifyWorker w f).session = c.session := rfl

@[simp] theorem modifyWorker_workers (c : Client) (w : WorkerId) (f : Worker → Worker) :
    (c.modifyWorker w f).workers = c.workers.modify w f := rfl

@[simp] theorem callback_active (c : Client) (b : Callback) :
    (c.callback b).ACTIVE_CONNECTION_STATE = c.ACTIVE_CONNECTION_STATE := by
  cases b <;> rfl

@[simp] theorem callback_current (c : Client) (b : Callback) :
    (c.callback b).CURRENT_CONNECTED_PRINTER = c.CURRENT_CONNECTED_PRINTER := by
  cases b <;> rfl

@[simp] theorem callback_workers (c : Client) (b : Callback) :
    (c.callback b).workers = c.workers := by
  cases b <;> rfl

end Client

/-! ## The operations -/

/-- A program over the globals. -/
abbrev Manager := LockM Global Client

def disconnect_active_connection : Manager PUnit := do
  let active ← locked .ACTIVE_CONNECTION_STATE fun c =>
    (c.ACTIVE_CONNECTION_STATE, { c with ACTIVE_CONNECTION_STATE := none })
  match active with
  | none => return
  | some a =>
    onData fun c => ((), c.cancel a.cancel_tx)
    locked .MSG_TX fun c => ((), c.removeTx a.device_id)
    locked .CURRENT_CONNECTED_PRINTER fun c => ((), c.takeCurrent a.device_id)

/-- The guard of `ACTIVE_CONNECTION_STATE` lives to the end of the function. -/
def clear_active_connection (device_id : String) (generation : Generation) : Manager PUnit :=
  guarded .ACTIVE_CONNECTION_STATE do
    let active ← onData fun c => (c.isActive device_id generation, c)
    if active then
      onData fun c => ((), { c with ACTIVE_CONNECTION_STATE := none })
      locked .MSG_TX fun c => ((), c.removeTx device_id)
      locked .CURRENT_CONNECTED_PRINTER fun c => ((), c.takeCurrent device_id)

def emit_disconnect_event (device_id : String) (status : Int) (message : String) : Manager PUnit :=
  onData fun c => ((), c.callback (.disconnected device_id status message))

/-- The part of `bambu_network_rs_connect` after `disconnect_active_connection`. `now` is
the time that the clock shows, and becomes the generation of the worker. -/
def start_connection (device_id password : String) (now : Generation) : Manager Int := do
  let tx ← onData fun c => (c.workers.length, c)
  locked .MSG_TX fun c => ((), { c with MSG_TX := Function.update c.MSG_TX device_id (some tx) })
  locked .ACTIVE_CONNECTION_STATE fun c =>
    ((), { c with ACTIVE_CONNECTION_STATE := some ⟨device_id, now, tx⟩ })
  onData fun c => ((), { c with
    workers := c.workers ++ [{ device_id, generation := now, password }] })
  return 0

def bambu_network_rs_connect (device_id password : String) (now : Generation) : Manager Int := do
  disconnect_active_connection
  start_connection device_id password now

def bambu_network_rs_disconnect (device_id : String) : Manager Int := do
  let active_device ← locked .ACTIVE_CONNECTION_STATE fun c =>
    (c.ACTIVE_CONNECTION_STATE.map (·.device_id), c)
  if active_device = some device_id then
    disconnect_active_connection
    emit_disconnect_event device_id 2 "Disconnected"
  else
    locked .MSG_TX fun c => ((), c.removeTx device_id)
    locked .CURRENT_CONNECTED_PRINTER fun c => ((), c.takeCurrent device_id)
  return BAMBU_NETWORK_SUCCESS

/-- `try_send` fails when the channel is full or its receiver is gone. -/
def try_send (c : Client) (w : WorkerId) (request : SendMessageRequest) : Bool × Client :=
  if c.workers[w]?.any (fun x => x.rx_open && x.queue.length < MESSAGE_CAPACITY) then
    (true, c.modifyWorker w fun x => { x with queue := x.queue ++ [request] })
  else (false, c)

def bambu_network_rs_send (device_id data : String) : Manager Int := do
  let sender ← locked .MSG_TX fun c => (c.MSG_TX device_id, c)
  match sender with
  | some sender =>
    let sent ← onData fun c => try_send c sender ⟨device_id, data⟩
    return if sent then BAMBU_NETWORK_SUCCESS else BAMBU_NETWORK_ERR_SEND_MSG_FAILED
  | none => return BAMBU_NETWORK_ERR_SEND_MSG_FAILED

/-- The step of a worker that records its success. -/
def record_connected (device_id : String) : Manager PUnit :=
  locked .CURRENT_CONNECTED_PRINTER fun c =>
    ((), { c with CURRENT_CONNECTED_PRINTER := some device_id })

/-- How far a pass of the farm loop gets. `now` is the time when its stream opens. -/
inductive FarmPass
  | connect_failed
  | list_failed
  | opened (now : Generation)
  deriving DecidableEq

/-- The guard in the `if let` lives to the end of the `if let`. -/
def reconnect_current (now : Generation) : Manager PUnit :=
  guarded .CURRENT_CONNECTED_PRINTER do
    let current ← onData fun c => (c.CURRENT_CONNECTED_PRINTER, c)
    match current with
    | some printer =>
      let _ ← bambu_network_rs_connect printer "" now
    | none => return

/-- One pass of the loop of `bambu_network_rs_init`, up to its stream of printer lists,
which takes no mutex. -/
def farm_pass (pass : FarmPass) : Manager PUnit := do
  locked .MSG_TX fun c => ((), { c with MSG_TX := fun _ => none })
  match pass with
  | .connect_failed => return
  | .list_failed => return
  | .opened now => reconnect_current now

/-! ## What the operations do to the globals -/

/-- The client after a program that starts with no mutex held. -/
def effect {α : Type} (x : Manager α) (c : Client) : Client := (finalState (x.run ⟨[], c⟩)).data

theorem effect_of_takes {α : Type} {ms : List Global} {x : Manager α} {f : Client → α × Client}
    (h : Takes ms x f) (c : Client) : effect x c = (f c).2 := by
  rw [effect, h.run_free]
  rfl

namespace Client

def disconnectActive (c : Client) : Client :=
  match c.ACTIVE_CONNECTION_STATE with
  | none => c
  | some a => ((({ c with ACTIVE_CONNECTION_STATE := none }).cancel a.cancel_tx).removeTx
      a.device_id).takeCurrent a.device_id

def clearActive (c : Client) (device_id : String) (generation : Generation) : Client :=
  if c.isActive device_id generation then
    (({ c with ACTIVE_CONNECTION_STATE := none }).removeTx device_id).takeCurrent device_id
  else c

/-- The new entries of a connect, once no connection is active. -/
def startConnection (c : Client) (device_id password : String) (now : Generation) : Client :=
  { c with
    MSG_TX := Function.update c.MSG_TX device_id (some c.workers.length)
    ACTIVE_CONNECTION_STATE := some ⟨device_id, now, c.workers.length⟩
    workers := c.workers ++ [{ device_id, generation := now, password }] }

def connect (c : Client) (device_id password : String) (now : Generation) : Client :=
  c.disconnectActive.startConnection device_id password now

def disconnect (c : Client) (device_id : String) : Client :=
  if c.ACTIVE_CONNECTION_STATE.map (·.device_id) = some device_id then
    c.disconnectActive.callback (.disconnected device_id 2 "Disconnected")
  else (c.removeTx device_id).takeCurrent device_id

def send (c : Client) (device_id data : String) : Int × Client :=
  match c.MSG_TX device_id with
  | some sender =>
    (if (try_send c sender ⟨device_id, data⟩).1 then BAMBU_NETWORK_SUCCESS
      else BAMBU_NETWORK_ERR_SEND_MSG_FAILED, (try_send c sender ⟨device_id, data⟩).2)
  | none => (BAMBU_NETWORK_ERR_SEND_MSG_FAILED, c)

def clearTx (c : Client) : Client := { c with MSG_TX := fun _ => none }

@[simp] theorem takeCurrent_active (c : Client) (d : String) :
    (c.takeCurrent d).ACTIVE_CONNECTION_STATE = c.ACTIVE_CONNECTION_STATE := by
  unfold takeCurrent
  split <;> rfl

@[simp] theorem takeCurrent_workers (c : Client) (d : String) :
    (c.takeCurrent d).workers = c.workers := by
  unfold takeCurrent
  split <;> rfl

@[simp] theorem takeCurrent_session (c : Client) (d : String) :
    (c.takeCurrent d).session = c.session := by
  unfold takeCurrent
  split <;> rfl

@[simp] theorem takeCurrent_current (c : Client) (d : String) :
    (c.takeCurrent d).CURRENT_CONNECTED_PRINTER =
      if c.CURRENT_CONNECTED_PRINTER = some d then none else c.CURRENT_CONNECTED_PRINTER := by
  unfold takeCurrent
  split <;> rfl

@[simp] theorem disconnectActive_active (c : Client) :
    c.disconnectActive.ACTIVE_CONNECTION_STATE = none := by
  unfold disconnectActive
  split
  · assumption
  · simp [removeTx, cancel]

theorem disconnectActive_session (c : Client) : c.disconnectActive.session = c.session := by
  unfold disconnectActive
  split
  · rfl
  · simp [removeTx, cancel]

theorem disconnectActive_workers (c : Client) :
    c.disconnectActive.workers = match c.ACTIVE_CONNECTION_STATE with
      | none => c.workers
      | some a => c.workers.modify a.cancel_tx (fun x => { x with canceled := true }) := by
  unfold disconnectActive
  split
  · rfl
  · simp [removeTx, cancel]

theorem disconnectActive_workers_length (c : Client) :
    c.disconnectActive.workers.length = c.workers.length := by
  rw [disconnectActive_workers]
  split <;> simp

/-- Of the current printer, only one that is not the active device is left. -/
theorem disconnectActive_current (c : Client) :
    c.disconnectActive.CURRENT_CONNECTED_PRINTER =
      if c.CURRENT_CONNECTED_PRINTER = c.ACTIVE_CONNECTION_STATE.map (·.device_id) then none
      else c.CURRENT_CONNECTED_PRINTER := by
  unfold disconnectActive
  split
  · rename_i h
    simp only [h, Option.map_none]
    split <;> simp_all
  · rename_i a h
    simp [h, removeTx, cancel]

end Client

open Global

theorem disconnect_active_connection_takes :
    Takes [ACTIVE_CONNECTION_STATE, MSG_TX, CURRENT_CONNECTED_PRINTER]
      disconnect_active_connection (fun c => ((), c.disconnectActive)) := by
  refine Takes.congr (Takes.bind (g := fun active c => match active with
    | none => ((), c)
    | some a => ((), ((c.cancel a.cancel_tx).removeTx a.device_id).takeCurrent a.device_id))
    ((Takes.locked _ _).weaken (by simp)) ?_) ?_
  · rintro (_ | a)
    · exact (Takes.pure _).weaken (by simp)
    · exact ((Takes.onData _).weaken (by simp)).bind fun _ =>
        ((Takes.locked _ _).weaken (by simp)).bind fun _ =>
          (Takes.locked _ _).weaken (by simp)
  · rintro ⟨_, _, _ | a, _, _, _⟩ <;> rfl

theorem clear_active_connection_takes (device_id : String) (generation : Generation) :
    Takes [ACTIVE_CONNECTION_STATE, MSG_TX, CURRENT_CONNECTED_PRINTER]
      (clear_active_connection device_id generation)
      (fun c => ((), c.clearActive device_id generation)) := by
  refine Takes.guarded ?_ (by simp)
  refine Takes.congr (Takes.bind (g := fun active c => ((), if active then
    (({ c with ACTIVE_CONNECTION_STATE := none }).removeTx device_id).takeCurrent device_id
    else c)) ((Takes.onData _).weaken (by simp)) ?_) ?_
  · rintro (_ | _)
    · exact (Takes.pure _).weaken (by simp)
    · exact ((Takes.onData _).weaken (by simp)).bind fun _ =>
        ((Takes.locked _ _).weaken (by simp)).bind fun _ =>
          (Takes.locked _ _).weaken (by simp)
  · intro c
    rfl

theorem start_connection_takes (device_id password : String) (now : Generation) :
    Takes [ACTIVE_CONNECTION_STATE, MSG_TX] (start_connection device_id password now)
      (fun c => (0, c.startConnection device_id password now)) := by
  refine Takes.congr (((Takes.onData _).weaken (by simp)).bind fun tx =>
    ((Takes.locked _ _).weaken (by simp)).bind fun _ =>
      ((Takes.locked _ _).weaken (by simp)).bind fun _ =>
        ((Takes.onData _).weaken (by simp)).bind fun _ =>
          (Takes.pure _).weaken (by simp)) ?_
  intro c
  rfl

theorem connect_takes (device_id password : String) (now : Generation) :
    Takes [ACTIVE_CONNECTION_STATE, MSG_TX, CURRENT_CONNECTED_PRINTER]
      (bambu_network_rs_connect device_id password now)
      (fun c => (0, c.connect device_id password now)) :=
  disconnect_active_connection_takes.bind fun _ =>
    (start_connection_takes device_id password now).weaken (by simp)

theorem disconnect_takes (device_id : String) :
    Takes [ACTIVE_CONNECTION_STATE, MSG_TX, CURRENT_CONNECTED_PRINTER]
      (bambu_network_rs_disconnect device_id)
      (fun c => (BAMBU_NETWORK_SUCCESS, c.disconnect device_id)) := by
  refine Takes.congr (Takes.bind (g := fun active_device c => (BAMBU_NETWORK_SUCCESS,
    if active_device = some device_id then
      c.disconnectActive.callback (.disconnected device_id 2 "Disconnected")
    else (c.removeTx device_id).takeCurrent device_id))
    ((Takes.locked _ _).weaken (by simp)) ?_) ?_
  · intro active_device
    by_cases h : active_device = some device_id
    · simp only [h, if_true]
      exact disconnect_active_connection_takes.bind fun _ =>
        ((Takes.onData _).weaken (by simp)).bind fun _ => (Takes.pure _).weaken (by simp)
    · simp only [h, if_false]
      exact ((Takes.locked _ _).weaken (by simp)).bind fun _ =>
        ((Takes.locked _ _).weaken (by simp)).bind fun _ => (Takes.pure _).weaken (by simp)
  · intro c
    rfl

theorem send_takes (device_id data : String) :
    Takes [MSG_TX] (bambu_network_rs_send device_id data) (fun c => c.send device_id data) := by
  refine Takes.congr (Takes.bind (g := fun sender c => match sender with
    | some sender =>
      (if (try_send c sender ⟨device_id, data⟩).1 then BAMBU_NETWORK_SUCCESS
        else BAMBU_NETWORK_ERR_SEND_MSG_FAILED, (try_send c sender ⟨device_id, data⟩).2)
    | none => (BAMBU_NETWORK_ERR_SEND_MSG_FAILED, c)) (Takes.locked _ _) ?_) ?_
  · rintro (_ | sender)
    · exact (Takes.pure _).weaken (by simp)
    · exact ((Takes.onData _).weaken (by simp)).bind fun _ => (Takes.pure _).weaken (by simp)
  · intro c
    rfl

theorem record_connected_takes (device_id : String) :
    Takes [CURRENT_CONNECTED_PRINTER] (record_connected device_id)
      (fun c => ((), { c with CURRENT_CONNECTED_PRINTER := some device_id })) :=
  Takes.locked _ _

/-! ## The reconnect of the farm loop -/

/-- With no active connection there is nothing to disconnect, and only one mutex is
asked for. -/
theorem disconnect_active_connection_idle {s : Locked Global Client}
    (hheld : ACTIVE_CONNECTION_STATE ∉ s.held) (hidle : s.data.ACTIVE_CONNECTION_STATE = none) :
    disconnect_active_connection.run s = .ok () s := by
  unfold disconnect_active_connection
  rw [(Takes.locked _ _).run_bind (by simpa using hheld)]
  obtain ⟨held, ⟨_, _, active, _, _, _⟩⟩ := s
  cases hidle
  rfl

/-- With an active connection, the current printer is asked for. -/
theorem disconnect_active_connection_waits {s : Locked Global Client} {a : Active}
    (hactive : ACTIVE_CONNECTION_STATE ∉ s.held) (htx : MSG_TX ∉ s.held)
    (hcurrent : CURRENT_CONNECTED_PRINTER ∈ s.held)
    (ha : s.data.ACTIVE_CONNECTION_STATE = some a) :
    ∃ s', disconnect_active_connection.run s = .error ⟨CURRENT_CONNECTED_PRINTER⟩ s' := by
  unfold disconnect_active_connection
  rw [(Takes.locked _ _).run_bind (by simpa using hactive)]
  simp only [ha]
  rw [(Takes.onData _).run_bind (by simp), (Takes.locked _ _).run_bind (by simpa using htx)]
  exact ⟨_, run_guarded_held _ hcurrent⟩

theorem connect_idle {s : Locked Global Client} (printer password : String) (now : Generation)
    (hactive : ACTIVE_CONNECTION_STATE ∉ s.held) (htx : MSG_TX ∉ s.held)
    (hidle : s.data.ACTIVE_CONNECTION_STATE = none) :
    (bambu_network_rs_connect printer password now).run s =
      .ok 0 ⟨s.held, s.data.startConnection printer password now⟩ := by
  unfold bambu_network_rs_connect
  rw [EStateM.run_bind, disconnect_active_connection_idle hactive hidle]
  exact start_connection_takes printer password now s (by simp [hactive, htx])

/-- The reconnect of the farm loop when it does not wait for itself. -/
theorem reconnect_current_ends (c : Client) (now : Generation)
    (h : c.CURRENT_CONNECTED_PRINTER = none ∨ c.ACTIVE_CONNECTION_STATE = none) :
    (reconnect_current now).run ⟨[], c⟩ = .ok ⟨⟩ ⟨[], match c.CURRENT_CONNECTED_PRINTER with
      | some printer => c.startConnection printer "" now
      | none => c⟩ := by
  apply run_guarded_ok (by simp)
  rw [(Takes.onData _).run_bind (by simp)]
  cases hcur : c.CURRENT_CONNECTED_PRINTER with
  | none => rfl
  | some printer =>
    have hidle : c.ACTIVE_CONNECTION_STATE = none := by simpa [hcur] using h
    have hrun := connect_idle (s := ⟨[CURRENT_CONNECTED_PRINTER], c⟩) printer "" now
      (by simp) (by simp) hidle
    simp only [EStateM.run_bind, hrun, EStateM.run_pure]

/-- The reconnect of the farm loop holds the guard of the current printer and asks for it
again, when a connection is active. -/
theorem reconnect_current_waits (c : Client) (now : Generation) {printer : String} {a : Active}
    (hcur : c.CURRENT_CONNECTED_PRINTER = some printer) (ha : c.ACTIVE_CONNECTION_STATE = some a) :
    ∃ s', (reconnect_current now).run ⟨[], c⟩ = .error ⟨CURRENT_CONNECTED_PRINTER⟩ s' := by
  obtain ⟨s', hs'⟩ := disconnect_active_connection_waits
    (s := ⟨[CURRENT_CONNECTED_PRINTER], c⟩) (by simp) (by simp) (by simp) ha
  refine ⟨s', run_guarded_error (by simp) ?_⟩
  rw [(Takes.onData _).run_bind (by simp)]
  simp only [hcur, bambu_network_rs_connect, EStateM.run_bind, hs']

/-! ## Operations one after another -/

/-- An operation of the connection manager. `connected` is the step of a worker that
records its success. -/
inductive Operation
  | connect (device_id password : String) (now : Generation)
  | disconnect (device_id : String)
  | send (device_id data : String)
  | clear_active_connection (device_id : String) (generation : Generation)
  | connected (device_id : String)
  | farm_pass (pass : FarmPass)
  deriving DecidableEq

def perform : Operation → Manager PUnit
  | .connect device_id password now => do
    let _ ← bambu_network_rs_connect device_id password now
  | .disconnect device_id => do
    let _ ← bambu_network_rs_disconnect device_id
  | .send device_id data => do
    let _ ← bambu_network_rs_send device_id data
  | .clear_active_connection device_id generation => clear_active_connection device_id generation
  | .connected device_id => record_connected device_id
  | .farm_pass pass => farm_pass pass

/-- The client after the operations, from the start of the plugin. -/
def afterOperations (ops : List Operation) : Client :=
  after (fun c op => effect (perform op) c) {} ops

/-- The operation asks for no mutex that it holds, and ends with all mutexes free. -/
def Completes (c : Client) (op : Operation) : Prop :=
  ∃ c', (perform op).run ⟨[], c⟩ = .ok ⟨⟩ ⟨[], c'⟩

/-- A pass of the farm loop that opens its stream finds no current printer or no active
connection. -/
def FindsNoConnection (c : Client) : Operation → Prop
  | .farm_pass (.opened _) =>
    c.CURRENT_CONNECTED_PRINTER = none ∨ c.ACTIVE_CONNECTION_STATE = none
  | _ => True

theorem completes_of_takes {ms : List Global} {f : Client → PUnit × Client} {op : Operation}
    (h : Takes ms (perform op) f) (c : Client) : Completes c op :=
  ⟨_, h.run_free c⟩

theorem completes_farm_pass_opened (c : Client) (now : Generation) :
    Completes c (.farm_pass (.opened now)) ↔
      c.CURRENT_CONNECTED_PRINTER = none ∨ c.ACTIVE_CONNECTION_STATE = none := by
  have hpass : (perform (.farm_pass (.opened now))).run ⟨[], c⟩ =
      (reconnect_current now).run ⟨[], c.clearTx⟩ :=
    (Takes.locked MSG_TX _).run_bind (by simp)
  unfold Completes
  rw [hpass]
  constructor
  · rintro ⟨c', hc'⟩
    by_contra hn
    push Not at hn
    obtain ⟨printer, hcur⟩ := Option.ne_none_iff_exists'.mp hn.1
    obtain ⟨a, ha⟩ := Option.ne_none_iff_exists'.mp hn.2
    obtain ⟨s', hs'⟩ := reconnect_current_waits c.clearTx now hcur ha
    rw [hs'] at hc'
    cases hc'
  · intro h
    exact ⟨_, reconnect_current_ends c.clearTx now h⟩

theorem completes_iff (c : Client) (op : Operation) :
    Completes c op ↔ FindsNoConnection c op := by
  cases op with
  | connect device_id password now =>
    exact iff_of_true (completes_of_takes ((connect_takes device_id password now).bind
      fun _ => (Takes.pure _).weaken (by simp)) c) trivial
  | disconnect device_id =>
    exact iff_of_true (completes_of_takes ((disconnect_takes device_id).bind
      fun _ => (Takes.pure _).weaken (by simp)) c) trivial
  | send device_id data =>
    exact iff_of_true (completes_of_takes ((send_takes device_id data).bind
      fun _ => (Takes.pure _).weaken (by simp)) c) trivial
  | clear_active_connection device_id generation =>
    exact iff_of_true (completes_of_takes (clear_active_connection_takes device_id generation) c)
      trivial
  | connected device_id =>
    exact iff_of_true (completes_of_takes (record_connected_takes device_id) c) trivial
  | farm_pass pass =>
    cases pass with
    | opened now => exact completes_farm_pass_opened c now
    | _ =>
      exact iff_of_true (completes_of_takes ((Takes.locked MSG_TX _).bind
        fun _ => (Takes.pure _).weaken (by simp)) c) trivial

/-- Every operation of a run completes exactly when each pass of the farm loop that opens
its stream comes while no printer is current or no connection is active. -/
theorem no_operation_waits_for_itself (ops : List Operation) :
    Steps (fun pre op => Completes (afterOperations pre) op) ops ↔
      Steps (fun pre op => FindsNoConnection (afterOperations pre) op) ops := by
  simp only [completes_iff]

/-- The farm loop opens its stream anew while a printer is connected, and waits for itself. -/
theorem a_reconnect_waits_for_itself :
    ¬ Steps (fun pre op => Completes (afterOperations pre) op)
      [.connect "printer-1" "" 1, .connected "printer-1", .farm_pass (.opened 2)] := by
  intro h
  have hpass := (completes_farm_pass_opened _ 2).mp (h 2 (by decide))
  revert hpass
  decide

end bambu_farm_client.connection
