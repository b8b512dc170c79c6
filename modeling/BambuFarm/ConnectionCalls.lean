-- The calls of the connection manager, one critical section after the other.
-- A call gives up its mutex between two sections, so the sections of other
-- calls, of the workers and of the farm loop come in between. A call that
-- nothing comes between does what it does as a whole.
import BambuFarm.ConnectionWorker

open runs bambu_farm
open bambu_farm_client.connection bambu_farm_client.session_state

namespace bambu_farm_client.connection_calls

/-! ## Where a call stands -/

/-- The caller of `disconnect_active_connection`. -/
inductive Caller
  | connect (device_id password : String) (now : Generation)
  | disconnect (device_id : String)
  deriving DecidableEq

/-- The section that a call comes to next: the look of `bambu_network_rs_disconnect` at the
active connection, the three of `disconnect_active_connection`, the two that enter a new
connection, the callback of a disconnect, and the two of a disconnect that found another
connection. -/
inductive Point
  | look (device_id : String)
  | take (caller : Caller)
  | remove (a : Active) (caller : Caller)
  | forget (a : Active) (caller : Caller)
  | insert (device_id password : String) (now : Generation)
  | publish (a : Active)
  | emit (device_id : String)
  | drop (device_id : String)
  | drop_current (device_id : String)
  deriving DecidableEq

/-- Where the caller goes on after `disconnect_active_connection`. -/
def Caller.rest : Caller → Point
  | .connect device_id password now => .insert device_id password now
  | .disconnect device_id => .emit device_id

/-- The mutex of a section. -/
def Point.mutex : Point → Option Global
  | .look _ => some .ACTIVE_CONNECTION_STATE
  | .take _ => some .ACTIVE_CONNECTION_STATE
  | .remove _ _ => some .MSG_TX
  | .forget _ _ => some .CURRENT_CONNECTED_PRINTER
  | .insert _ _ _ => some .MSG_TX
  | .publish _ => some .ACTIVE_CONNECTION_STATE
  | .emit _ => none
  | .drop _ => some .MSG_TX
  | .drop_current _ => some .CURRENT_CONNECTED_PRINTER

/-- The sections of `clear_active_connection` under the guard of the active connection. -/
inductive ClearPoint
  | remove
  | forget
  deriving DecidableEq

/-! ## The system -/

abbrev CallId := Nat

structure System where
  client : Client := {}
  calls : CallId → Option Point := fun _ => none
  /-- The workers whose channels are made and that are not spawned yet. -/
  starting : List WorkerId := []
  /-- The worker that holds the guard of the active connection, and where it stands. -/
  clearing : Option (WorkerId × ClearPoint) := none
  /-- The call of the farm loop, which holds the guard of the current printer. -/
  reconnecting : Option CallId := none

/-- A call begins or comes to its next section, a worker takes a step, the worker under its
guard goes on, the plugin drives its session state, and the farm loop clears the senders and
connects to the current printer. -/
inductive Event
  | connect (c : CallId) (device_id password : String) (now : Generation)
  | disconnect (c : CallId) (device_id : String)
  | advance (c : CallId)
  | worker (w : WorkerId) (s : WorkerStep)
  | clear_on
  | plugin (call : Call)
  | farm_clear
  | farm_reconnect (c : CallId) (now : Generation)
  deriving DecidableEq

namespace System

variable (s : System)

def setCall (c : CallId) (point : Point) : System :=
  { s with calls := Function.update s.calls c (some point) }

/-- The call returns. The guard of the farm loop ends with its call. -/
def finish (c : CallId) : System :=
  { s with
    calls := Function.update s.calls c none
    reconnecting := s.reconnecting.filter (· ≠ c) }

/-- The cancellation goes out right after the take: only the worker that it cancels could
tell the two apart. -/
def takeActive (a : Active) : System :=
  { s with client := { s.client with ACTIVE_CONNECTION_STATE := none }.cancel a.cancel_tx }

/-- The channel of a connection is made and its sender inserted. `now` is the time that the
clock shows after that. -/
def insertTx (device_id password : String) (now : Generation) : System :=
  { s with
    client := { s.client with
      MSG_TX := Function.update s.client.MSG_TX device_id (some s.client.workers.length)
      workers := s.client.workers ++ [{ device_id, generation := now, password }] }
    starting := s.client.workers.length :: s.starting }

/-- The connection becomes the active one, and its worker is spawned. -/
def publish (a : Active) : System :=
  { s with
    client := { s.client with ACTIVE_CONNECTION_STATE := some a }
    starting := s.starting.filter (· ≠ a.cancel_tx) }

/-- The section of a call at a point. -/
def advance (c : CallId) : Point → System
  | .look device_id =>
    s.setCall c (if s.client.ACTIVE_CONNECTION_STATE.map (·.device_id) = some device_id then
      .take (.disconnect device_id) else .drop device_id)
  | .take caller =>
    match s.client.ACTIVE_CONNECTION_STATE with
    | none => s.setCall c caller.rest
    | some a => (s.takeActive a).setCall c (.remove a caller)
  | .remove a caller =>
    { s with client := s.client.removeTx a.device_id }.setCall c (.forget a caller)
  | .forget a caller =>
    { s with client := s.client.takeCurrent a.device_id }.setCall c caller.rest
  | .insert device_id password now =>
    (s.insertTx device_id password now).setCall c
      (.publish ⟨device_id, now, s.client.workers.length⟩)
  | .publish a => (s.publish a).finish c
  | .emit device_id =>
    { s with client := s.client.callback (.disconnected device_id 2 "Disconnected") }.finish c
  | .drop device_id =>
    { s with client := s.client.removeTx device_id }.setCall c (.drop_current device_id)
  | .drop_current device_id =>
    { s with client := s.client.takeCurrent device_id }.finish c

/-- `clear_active_connection` up to the take under its guard. -/
def beginClear (w : WorkerId) (x : Worker) : System :=
  if s.client.isActive x.device_id x.generation then
    { s with
      client := { s.client with ACTIVE_CONNECTION_STATE := none }
      clearing := some (w, .remove) }
  else { s with client := s.client.setWorker w (x.next false .clear) }

/-- The rest of `clear_active_connection`. -/
def clearOn (w : WorkerId) (x : Worker) : ClearPoint → System
  | .remove => { s with
      client := s.client.removeTx x.device_id
      clearing := some (w, .forget) }
  | .forget => { s with
      client := (s.client.takeCurrent x.device_id).setWorker w (x.next true .clear)
      clearing := none }

def worker (w : WorkerId) (x : Worker) : WorkerStep → System
  | .clear => s.beginClear w x
  | t => { s with
      client := (s.client.act x t).setWorker w
        (x.next (s.client.isActive x.device_id x.generation) t) }

def step : Event → System
  | .connect c device_id password now => s.setCall c (.take (.connect device_id password now))
  | .disconnect c device_id => s.setCall c (.look device_id)
  | .advance c =>
    match s.calls c with
    | some point => s.advance c point
    | none => s
  | .worker w t =>
    match s.client.workers[w]? with
    | some x => s.worker w x t
    | none => s
  | .clear_on =>
    match s.clearing with
    | some (w, point) =>
      match s.client.workers[w]? with
      | some x => s.clearOn w x point
      | none => s
    | none => s
  | .plugin call => { s with client :=
      { s.client with session := (session_state.call s.client.session call).1 } }
  | .farm_clear => { s with client := s.client.clearTx }
  | .farm_reconnect c now =>
    match s.client.CURRENT_CONNECTED_PRINTER with
    | some printer =>
      { s.setCall c (.take (.connect printer "" now)) with reconnecting := some c }
    | none => s

/-- No worker and no call of the farm loop holds the mutex. -/
def free : Global → Bool
  | .MSG_TX => true
  | .CURRENT_CONNECTED_PRINTER => s.reconnecting.isNone
  | .ACTIVE_CONNECTION_STATE => s.clearing.isNone

end System

/-- The mutex of a step of a worker. -/
def mutexOf : WorkerStep → Option Global
  | .record => some .CURRENT_CONNECTED_PRINTER
  | .check => some .ACTIVE_CONNECTION_STATE
  | .clear => some .ACTIVE_CONNECTION_STATE
  | _ => none

def ClearPoint.mutex : ClearPoint → Global
  | .remove => .MSG_TX
  | .forget => .CURRENT_CONNECTED_PRINTER

/-- An event that can happen next: a section begins while its mutex is free, and a worker
takes its steps in order once it is spawned. -/
def System.possible (s : System) : Event → Bool
  | .connect c _ _ _ => (s.calls c).isNone
  | .disconnect c _ => (s.calls c).isNone
  | .advance c => (s.calls c).any fun point => point.mutex.all s.free
  | .worker w t => (s.client.workers[w]?.any fun x => x.ready t) && w ∉ s.starting &&
      (mutexOf t).all s.free
  | .clear_on => s.clearing.any fun p => s.free p.2.mutex
  | .plugin call => !isCallback call
  | .farm_clear => true
  | .farm_reconnect c _ => (s.calls c).isNone && s.client.CURRENT_CONNECTED_PRINTER.isSome &&
      s.free .CURRENT_CONNECTED_PRINTER

/-- The system after the events, from the start of the plugin. -/
def systemAfter (es : List Event) : System := after System.step {} es

@[simp] theorem systemAfter_snoc (es : List Event) (e : Event) :
    systemAfter (es ++ [e]) = (systemAfter es).step e := by
  simp [systemAfter]

/-- A run of the system: its events, each of which could happen when it did. -/
structure Run where
  events : List Event
  possible : Steps (fun es e => (systemAfter es).possible e = true) events

/-! ## Calls that nothing comes between -/

namespace System

variable {s : System} {c : CallId}

/-- The call goes on for so many sections. -/
def alone (s : System) (c : CallId) (n : Nat) : System :=
  after step s (List.replicate n (.advance c))

@[simp] theorem alone_zero : s.alone c 0 = s := rfl

theorem alone_succ {point : Point} (h : s.calls c = some point) (n : Nat) :
    s.alone c (n + 1) = (s.advance c point).alone c n := by
  simp [alone, List.replicate_succ, step, h]

@[simp] theorem setCall_calls (point : Point) : (s.setCall c point).calls c = some point := by
  simp [setCall]

theorem start_alone (device_id password : String) (now : Generation)
    (h : s.calls c = some (.insert device_id password now)) :
    (s.alone c 2).client = s.client.startConnection device_id password now ∧
      (s.alone c 2).calls c = none := by
  rw [alone_succ h, advance, alone_succ (setCall_calls _), advance]
  simp [alone, finish, publish, setCall, insertTx, Client.startConnection]

theorem alone_add (m n : Nat) : s.alone c (m + n) = (s.alone c m).alone c n := by
  unfold alone
  rw [List.replicate_add, after_append]

theorem disconnectActive_alone {caller : Caller} (h : s.calls c = some (.take caller)) :
    ∃ n, (s.alone c n).client = s.client.disconnectActive ∧
      (s.alone c n).calls c = some caller.rest := by
  cases hactive : s.client.ACTIVE_CONNECTION_STATE with
  | none =>
    refine ⟨1, ?_⟩
    rw [alone_succ h]
    simp [advance, hactive, Client.disconnectActive, setCall]
  | some a =>
    refine ⟨3, ?_⟩
    rw [alone_succ h]
    simp only [advance, hactive]
    rw [alone_succ (setCall_calls _), advance, alone_succ (setCall_calls _), advance]
    simp [Client.disconnectActive, hactive, setCall, takeActive]

/-- A connect that nothing comes between. -/
theorem connect_alone (device_id password : String) (now : Generation) :
    ∃ n, ((s.step (.connect c device_id password now)).alone c n).client =
        connection.step s.client (.connect device_id password now) ∧
      ((s.step (.connect c device_id password now)).alone c n).calls c = none := by
  have htake : (s.step (.connect c device_id password now)).calls c =
      some (.take (.connect device_id password now)) := setCall_calls _
  obtain ⟨n, hclient, hcall⟩ := disconnectActive_alone htake
  obtain ⟨hclient', hcall'⟩ := start_alone device_id password now hcall
  refine ⟨n + 2, ?_, ?_⟩
  · rw [alone_add, hclient', hclient, step_connect]
    rfl
  · rw [alone_add, hcall']

theorem emit_alone {device_id : String} (h : s.calls c = some (.emit device_id)) :
    (s.alone c 1).client = s.client.callback (.disconnected device_id 2 "Disconnected") ∧
      (s.alone c 1).calls c = none := by
  rw [alone_succ h]
  simp [advance, finish]

theorem drop_alone {device_id : String} (h : s.calls c = some (.drop device_id)) :
    (s.alone c 2).client = (s.client.removeTx device_id).takeCurrent device_id ∧
      (s.alone c 2).calls c = none := by
  rw [alone_succ h, advance, alone_succ (setCall_calls _), advance]
  simp [finish, setCall]

/-- A disconnect that nothing comes between. -/
theorem disconnect_alone (device_id : String) :
    ∃ n, ((s.step (.disconnect c device_id)).alone c n).client =
        connection.step s.client (.disconnect device_id) ∧
      ((s.step (.disconnect c device_id)).alone c n).calls c = none := by
  have hlook : (s.step (.disconnect c device_id)).calls c = some (.look device_id) :=
    setCall_calls _
  have hclient : (s.step (.disconnect c device_id)).client = s.client := rfl
  rw [step_disconnect, Client.disconnect]
  by_cases hown : s.client.ACTIVE_CONNECTION_STATE.map (·.device_id) = some device_id
  · have htake : ((s.step (.disconnect c device_id)).alone c 1).calls c =
        some (.take (.disconnect device_id)) := by
      rw [alone_succ hlook, advance, hclient, if_pos hown]
      simp
    obtain ⟨n, htaken, hrest⟩ := disconnectActive_alone htake
    obtain ⟨hemit, hdone⟩ := emit_alone hrest
    refine ⟨1 + n + 1, ?_, ?_⟩
    · rw [alone_add, alone_add, hemit, htaken, if_pos hown, alone_succ hlook]
      rfl
    · rw [alone_add, alone_add, hdone]
  · have hdrop : ((s.step (.disconnect c device_id)).alone c 1).calls c =
        some (.drop device_id) := by
      rw [alone_succ hlook, advance, hclient, if_neg hown]
      simp
    obtain ⟨hdropped, hdone⟩ := drop_alone hdrop
    refine ⟨1 + 2, ?_, ?_⟩
    · rw [alone_add, hdropped, if_neg hown, alone_succ hlook]
      rfl
    · rw [alone_add, hdone]

/-- A worker that nothing comes between as it clears the active connection. -/
theorem clear_alone {w : WorkerId} {x : Worker} (hx : s.client.workers[w]? = some x) :
    ∃ n, (after step (s.step (.worker w .clear)) (List.replicate n .clear_on)).client =
      connection.step s.client (.worker w .clear) := by
  rw [step_worker hx, Client.act, effect_clear, Client.clearActive]
  simp only [step, hx, worker, beginClear]
  by_cases hactive : s.client.isActive x.device_id x.generation = true
  · refine ⟨2, ?_⟩
    simp [hactive, List.replicate_succ, step, hx, clearOn, Client.removeTx, Worker.next]
  · refine ⟨0, ?_⟩
    simp [hactive]

end System

/-! ## Where an event brings a call -/

/-- The call that the event begins. -/
def Event.begins : Event → Option CallId
  | .connect c _ _ _ => some c
  | .disconnect c _ => some c
  | .farm_reconnect c _ => some c
  | _ => none

namespace System

variable (s : System)

/-- The point behind a section of a call, unless the call returns with it. -/
def next : Point → Option Point
  | .look device_id => some (if s.client.ACTIVE_CONNECTION_STATE.map (·.device_id) = some device_id
      then .take (.disconnect device_id) else .drop device_id)
  | .take caller =>
    match s.client.ACTIVE_CONNECTION_STATE with
    | none => some caller.rest
    | some a => some (.remove a caller)
  | .remove a caller => some (.forget a caller)
  | .forget _ caller => some caller.rest
  | .insert device_id _ now => some (.publish ⟨device_id, now, s.client.workers.length⟩)
  | .publish _ => none
  | .emit _ => none
  | .drop device_id => some (.drop_current device_id)
  | .drop_current _ => none

/-- The section of a call that the event is. -/
def point : Event → Option Point
  | .advance c => s.calls c
  | _ => none

/-- The point that the event brings a call to. -/
def reaches : Event → Option Point
  | .connect _ device_id password now => some (.take (.connect device_id password now))
  | .disconnect _ device_id => some (.look device_id)
  | .advance c => (s.calls c).bind s.next
  | .farm_reconnect _ now =>
    s.client.CURRENT_CONNECTED_PRINTER.map fun printer => .take (.connect printer "" now)
  | _ => none

/-- No call stands at such a point. -/
def NoCall (P : Point → Bool) : Prop := ∀ c point, s.calls c = some point → P point = false

variable {s}

/-- A call comes to a point by the section before it, or as it begins. -/
theorem reaches_cases {e : Event} {point : Point} (h : s.reaches e = some point) :
    (∃ c p, e = .advance c ∧ s.calls c = some p ∧ s.next p = some point) ∨
      (∃ device_id, point = .look device_id) ∨
        ∃ device_id password now, point = .take (.connect device_id password now) := by
  cases e with
  | advance c =>
    obtain ⟨p, hc, hnext⟩ := Option.bind_eq_some_iff.mp h
    exact .inl ⟨c, p, rfl, hc, hnext⟩
  | connect c device_id password now =>
    cases h
    exact .inr (.inr ⟨_, _, _, rfl⟩)
  | disconnect c device_id =>
    cases h
    exact .inr (.inl ⟨_, rfl⟩)
  | farm_reconnect c now =>
    obtain ⟨printer, -, rfl⟩ := Option.map_eq_some_iff.mp h
    exact .inr (.inr ⟨_, _, _, rfl⟩)
  | _ => cases h

theorem calls_advance (c : CallId) (point : Point) :
    (s.advance c point).calls c = s.next point := by
  cases point with
  | take caller =>
    simp only [advance, next]
    split <;> simp
  | _ => simp [advance, next, finish]

/-- A section of a call leaves the other calls where they stand. -/
theorem calls_advance_other {c d : CallId} (h : d ≠ c) (point : Point) :
    (s.advance c point).calls d = s.calls d := by
  cases point with
  | take caller =>
    simp only [advance]
    split <;> simp [setCall, takeActive, h]
  | _ => simp [advance, setCall, finish, publish, insertTx, h]

theorem calls_worker (w : WorkerId) (t : WorkerStep) : (s.step (.worker w t)).calls = s.calls := by
  simp only [step]
  split
  · cases t with
    | clear =>
      simp only [worker, beginClear]
      split <;> rfl
    | _ => rfl
  · rfl

theorem calls_clear_on : (s.step .clear_on).calls = s.calls := by
  simp only [step]
  split
  · rename_i w point _
    split
    · cases point <;> rfl
    · rfl
  · rfl

theorem calls_setCall {c d : CallId} {point p : Point} (h : (s.setCall c p).calls d = some point) :
    s.calls d = some point ∨ (d = c ∧ p = point) := by
  by_cases hd : d = c
  · subst hd
    rw [setCall_calls] at h
    exact .inr ⟨rfl, Option.some.inj h⟩
  · exact .inl (by simpa [setCall, hd] using h)

/-- A call stands where it stood, or where the event has brought it. -/
theorem calls_step {e : Event} {c : CallId} {point : Point} (h : (s.step e).calls c = some point) :
    s.calls c = some point ∨
      (s.reaches e = some point ∧ (e = .advance c ∧ s.calls c ≠ none ∨ e.begins = some c)) := by
  cases e with
  | connect c' device_id password now =>
    obtain hold | ⟨rfl, rfl⟩ := calls_setCall h
    · exact .inl hold
    · exact .inr ⟨rfl, .inr rfl⟩
  | disconnect c' device_id =>
    obtain hold | ⟨rfl, rfl⟩ := calls_setCall h
    · exact .inl hold
    · exact .inr ⟨rfl, .inr rfl⟩
  | advance c' =>
    simp only [step] at h
    split at h
    · rename_i p hp
      by_cases hc : c = c'
      · subst hc
        rw [calls_advance] at h
        exact .inr ⟨by rw [reaches, hp, Option.bind_some, h], .inl ⟨rfl, by simp [hp]⟩⟩
      · exact .inl (calls_advance_other hc p ▸ h)
    · exact .inl h
  | worker w t => exact .inl (calls_worker w t ▸ h)
  | clear_on => exact .inl (calls_clear_on (s := s) ▸ h)
  | plugin call => exact .inl h
  | farm_clear => exact .inl h
  | farm_reconnect c' now =>
    simp only [step] at h
    split at h
    · rename_i printer hp
      obtain hold | ⟨rfl, rfl⟩ := calls_setCall h
      · exact .inl hold
      · exact .inr ⟨by simp [reaches, hp], .inr rfl⟩
    · exact .inl h

theorem NoCall.step {P : Point → Bool} (h : s.NoCall P) {e : Event}
    (he : ∀ point ∈ s.reaches e, P point = false) : (s.step e).NoCall P := by
  intro c point hc
  obtain hold | ⟨hnew, -⟩ := calls_step hc
  · exact h c point hold
  · exact he point hnew

end System

/-- A call that is under way was begun. -/
theorem mem_begun {es : List Event} {c : CallId} {point : Point}
    (h : (systemAfter es).calls c = some point) : c ∈ es.filterMap Event.begins := by
  induction es using List.reverseRecOn generalizing point with
  | nil => cases h
  | append_singleton es e ih =>
    rw [List.filterMap_append, List.mem_append]
    rw [systemAfter_snoc] at h
    obtain hold | ⟨-, ⟨-, hcall⟩ | hbegins⟩ := System.calls_step h
    · exact .inl (ih hold)
    · obtain ⟨p, hp⟩ := Option.ne_none_iff_exists'.mp hcall
      exact .inl (ih hp)
    · exact .inr (by simp [hbegins])

/-- So where the calls stand is looked up among those that were begun. -/
instance (es : List Event) (P : Point → Bool) : Decidable ((systemAfter es).NoCall P) :=
  decidable_of_iff
    (∀ c ∈ es.filterMap Event.begins, ∀ point ∈ (systemAfter es).calls c, P point = false)
    ⟨fun h c point hc => h c (mem_begun hc) point hc, fun h c _ point hc => h c point hc⟩

theorem noCall_all {s : System} : s.NoCall (fun _ => true) ↔ ∀ c, s.calls c = none := by
  constructor
  · intro h c
    rw [Option.eq_none_iff_forall_ne_some]
    intro point hc
    cases h c point hc
  · intro h c point hc
    rw [h c] at hc
    cases hc

instance (es : List Event) : Decidable (∀ c, (systemAfter es).calls c = none) :=
  decidable_of_iff _ noCall_all

/-! ## What an event changes -/

namespace System

variable (s : System)

/-- The active connection after an event. -/
def activeAfter : Event → Option Active
  | .advance c =>
    match s.calls c with
    | some (.take _) => none
    | some (.publish a) => some a
    | _ => s.client.ACTIVE_CONNECTION_STATE
  | .worker w .clear =>
    if s.client.workers[w]?.any fun x => s.client.isActive x.device_id x.generation then none
    else s.client.ACTIVE_CONNECTION_STATE
  | _ => s.client.ACTIVE_CONNECTION_STATE

/-- The connection that the event makes the active one. -/
def publishes : Event → Option Active
  | .advance c =>
    match s.calls c with
    | some (.publish a) => some a
    | _ => none
  | _ => none

/-- The event removes the sender of the device, or would. -/
def removes (device_id : String) : Event → Bool
  | .advance c =>
    match s.calls c with
    | some (.remove a _) => a.device_id = device_id
    | some (.drop d) => d = device_id
    | _ => false
  | .clear_on =>
    match s.clearing with
    | some (w, .remove) => s.client.workers[w]?.any fun x => x.device_id = device_id
    | _ => false
  | .farm_clear => true
  | _ => false

/-- The event inserts a sender for the device. -/
def inserts (device_id : String) : Event → Bool
  | .advance c =>
    match s.calls c with
    | some (.insert d _ _) => d = device_id
    | _ => false
  | _ => false

variable {s}

theorem active_advance {c : CallId} {point : Point} (h : s.calls c = some point) :
    (s.advance c point).client.ACTIVE_CONNECTION_STATE = s.activeAfter (.advance c) := by
  simp only [activeAfter, h]
  cases point with
  | take caller =>
    simp only [advance]
    split
    · rename_i hnone
      simp [setCall, hnone]
    · simp [setCall, takeActive, Client.cancel]
  | _ => simp [advance, setCall, finish, publish, insertTx, Client.removeTx]

theorem active_step (e : Event) :
    (s.step e).client.ACTIVE_CONNECTION_STATE = s.activeAfter e := by
  cases e with
  | advance c =>
    simp only [step]
    split
    · rename_i point h
      exact active_advance h
    · rename_i h
      simp [activeAfter, h]
  | worker w t =>
    simp only [step]
    cases hx : s.client.workers[w]? with
    | none => cases t <;> simp [activeAfter, hx]
    | some x =>
      cases t with
      | clear =>
        simp only [worker, beginClear, activeAfter, hx, Option.any_some]
        split <;> simp [Client.setWorker]
      | _ => simp [worker, activeAfter, Client.setWorker, Client.act, effect_record]
  | clear_on =>
    simp only [step, activeAfter]
    split
    · rename_i w point _
      split
      · cases point <;> simp [clearOn, Client.removeTx, Client.setWorker]
      · rfl
    · rfl
  | farm_reconnect c now =>
    simp only [step, activeAfter]
    split <;> rfl
  | _ => rfl

theorem tx_act (c : Client) (x : Worker) {t : WorkerStep} (h : t ≠ .clear) :
    (c.act x t).MSG_TX = c.MSG_TX := by
  cases t with
  | clear => exact absurd rfl h
  | record => simp [Client.act, effect_record]
  | report => rfl
  | receive item =>
    simp only [Client.act, Client.deliver]
    split
    · split <;> rfl
    · rfl
  | emit =>
    simp only [Client.act, Client.announce]
    split <;> rfl
  | _ => rfl

theorem tx_takeCurrent (c : Client) (d : String) : (c.takeCurrent d).MSG_TX = c.MSG_TX := by
  unfold Client.takeCurrent
  split <;> rfl

theorem tx_removeTx (c : Client) (d d' : String) :
    (c.removeTx d).MSG_TX d' = if d = d' then none else c.MSG_TX d' := by
  unfold Client.removeTx
  by_cases h : d = d'
  · simp [h]
  · simp [h, Function.update_of_ne (Ne.symm h)]

theorem tx_advance {c : CallId} {point : Point} (h : s.calls c = some point) (d : String) :
    (s.advance c point).client.MSG_TX d = if s.removes d (.advance c) then none
      else if s.inserts d (.advance c) then some s.client.workers.length
      else s.client.MSG_TX d := by
  simp only [removes, inserts, h]
  cases point with
  | take caller =>
    simp only [advance]
    split <;> simp [setCall, takeActive, Client.cancel, Client.modifyWorker]
  | insert d' password now =>
    by_cases hd : d' = d
    · simp [advance, setCall, insertTx, hd]
    · simp [advance, setCall, insertTx, hd, Function.update_of_ne (Ne.symm hd)]
  | remove a caller => simp [advance, setCall, tx_removeTx]
  | forget a caller => simp [advance, setCall, tx_takeCurrent]
  | drop d' => simp [advance, setCall, tx_removeTx]
  | drop_current d' => simp [advance, finish, tx_takeCurrent]
  | emit d' => simp [advance, finish, Client.callback]
  | _ => simp [advance, setCall, finish, publish]

/-- The sender of a device after an event. -/
theorem tx_step (e : Event) (d : String) :
    (s.step e).client.MSG_TX d = if s.removes d e then none
      else if s.inserts d e then some s.client.workers.length else s.client.MSG_TX d := by
  cases e with
  | advance c =>
    simp only [step]
    split
    · rename_i point h
      exact tx_advance h d
    · rename_i h
      simp [removes, inserts, h]
  | worker w t =>
    simp only [step, removes, inserts, Bool.false_eq_true, if_false]
    cases hx : s.client.workers[w]? with
    | none => rfl
    | some x =>
      by_cases ht : t = .clear
      · subst ht
        simp only [worker, beginClear]
        split <;> simp [Client.setWorker]
      · have hact := tx_act s.client x ht
        cases t with
        | clear => exact absurd rfl ht
        | _ => simp [worker, Client.setWorker, hact]
  | clear_on =>
    simp only [step, removes, inserts, Bool.false_eq_true, if_false]
    cases hclearing : s.clearing with
    | none => rfl
    | some p =>
      obtain ⟨w, point⟩ := p
      cases hx : s.client.workers[w]? with
      | none => cases point <;> simp [hx]
      | some x =>
        cases point with
        | remove => simp [clearOn, tx_removeTx, hx]
        | forget => simp [clearOn, Client.setWorker, tx_takeCurrent, hx]
  | farm_reconnect c now =>
    simp only [step, removes, inserts, Bool.false_eq_true, if_false]
    split <;> rfl
  | _ => simp [step, removes, inserts, setCall, Client.clearTx]

theorem workers_setWorker {c : Client} {v w : WorkerId} {x y : Worker}
    (h : (c.setWorker v x).workers[w]? = some y) : c.workers[w]? = some y ∨ (w = v ∧ y = x) := by
  simp only [Client.setWorker, List.getElem?_set] at h
  split at h
  · rename_i hv
    split at h
    · exact .inr ⟨hv.symm, (Option.some.inj h).symm⟩
    · cases h
  · exact .inl h

theorem workers_cancel {c : Client} {v w : WorkerId} {y : Worker}
    (h : (c.cancel v).workers[w]? = some y) :
    ∃ x, c.workers[w]? = some x ∧ y.device_id = x.device_id ∧ y.phase = x.phase := by
  rw [Client.cancel, Client.modifyWorker_workers, List.getElem?_modify] at h
  obtain ⟨x, hx, hy⟩ := Option.map_eq_some_iff.mp h
  refine ⟨x, hx, ?_⟩
  split at hy <;> subst hy <;> exact ⟨rfl, rfl⟩

theorem workers_append {xs : List Worker} {x y : Worker} {w : WorkerId}
    (h : (xs ++ [x])[w]? = some y) : xs[w]? = some y ∨ (xs[w]? = none ∧ y = x) := by
  rcases Nat.lt_or_ge w xs.length with hw | hw
  · rw [List.getElem?_append_left hw] at h
    exact .inl h
  · rw [List.getElem?_append_right hw, List.getElem?_singleton] at h
    split at h
    · exact .inr ⟨List.getElem?_eq_none hw, (Option.some.inj h).symm⟩
    · cases h

/-- What an event makes of a worker: it takes a step of its own, or it ends, or it stays where
it is, or it is new. -/
inductive Moved (s : System) (e : Event) (w : WorkerId) (y : Worker) : Prop
  | stays (x : Worker) (hx : s.client.workers[w]? = some x) (hd : y.device_id = x.device_id)
    (hp : y.phase = x.phase)
  | ends (x : Worker) (hx : s.client.workers[w]? = some x) (hd : y.device_id = x.device_id)
    (hp : y.phase = .done)
  | steps (x : Worker) (hx : s.client.workers[w]? = some x) (t : WorkerStep) (he : e = .worker w t)
    (hy : y = x.next (s.client.isActive x.device_id x.generation) t)
  | made (hnone : s.client.workers[w]? = none) (hp : y.phase = .dialing)

theorem worker_step {e : Event} {w : WorkerId} {y : Worker}
    (h : (s.step e).client.workers[w]? = some y) : Moved s e w y := by
  have hsame : s.client.workers[w]? = some y → Moved s e w y := fun hy => .stays y hy rfl rfl
  cases e with
  | advance c =>
    simp only [step] at h
    split at h
    · rename_i point _
      cases point with
      | take caller =>
        simp only [advance] at h
        split at h
        · exact hsame h
        · obtain ⟨x, hx, hd, hp⟩ := workers_cancel h
          exact .stays x hx hd hp
      | insert d password now =>
        obtain hold | ⟨hnone, rfl⟩ := workers_append h
        · exact hsame hold
        · exact .made hnone rfl
      | forget a caller => exact hsame (by simpa [advance, setCall] using h)
      | drop_current d => exact hsame (by simpa [advance, finish] using h)
      | emit d => exact hsame (by simpa [advance, finish] using h)
      | _ => exact hsame h
    · exact hsame h
  | worker v t =>
    simp only [step] at h
    split at h
    · rename_i x hx
      cases t with
      | clear =>
        simp only [worker, beginClear] at h
        split at h
        · exact hsame h
        · obtain hold | ⟨rfl, rfl⟩ := workers_setWorker h
          · exact hsame hold
          · exact .ends x hx rfl rfl
      | _ =>
        obtain hold | ⟨rfl, rfl⟩ := workers_setWorker h
        · exact hsame (by simpa using hold)
        · exact .steps x hx _ rfl rfl
    · exact hsame h
  | clear_on =>
    simp only [step] at h
    split at h
    · rename_i v point _
      split at h
      · rename_i x hx
        cases point with
        | remove => exact hsame h
        | forget =>
          obtain hold | ⟨rfl, rfl⟩ := workers_setWorker h
          · exact hsame (by simpa using hold)
          · exact .ends x hx rfl rfl
      · exact hsame h
    · exact hsame h
  | farm_reconnect c now =>
    simp only [step] at h
    split at h <;> exact hsame h
  | _ => exact hsame h

theorem Moved.device {e : Event} {w : WorkerId} {x y : Worker} (h : Moved s e w y)
    (hx : s.client.workers[w]? = some x) : y.device_id = x.device_id := by
  cases h with
  | stays x' hx' hd hp =>
    cases hx.symm.trans hx'
    exact hd
  | ends x' hx' hd hp =>
    cases hx.symm.trans hx'
    exact hd
  | steps x' hx' t he hy =>
    cases hx.symm.trans hx'
    rw [hy, next_device_id]
  | made hnone hp =>
    rw [hx] at hnone
    cases hnone

/-- No worker is forgotten. -/
theorem workers_length_step {e : Event} :
    s.client.workers.length ≤ (s.step e).client.workers.length := by
  cases e with
  | advance c =>
    simp only [step]
    split
    · rename_i point _
      cases point with
      | take caller =>
        simp only [advance]
        split <;> simp [setCall, takeActive, Client.cancel]
      | _ => simp [advance, setCall, finish, publish, insertTx, Client.removeTx]
    · exact Nat.le_refl _
  | worker w t =>
    simp only [step]
    split
    · cases t with
      | clear =>
        simp only [worker, beginClear]
        split <;> simp [Client.setWorker]
      | _ => simp [worker, Client.setWorker]
    · exact Nat.le_refl _
  | clear_on =>
    simp only [step]
    split
    · rename_i w point _
      split
      · cases point <;> simp [clearOn, Client.removeTx, Client.setWorker]
      · exact Nat.le_refl _
    · exact Nat.le_refl _
  | farm_reconnect c now =>
    simp only [step]
    split <;> exact Nat.le_refl _
  | _ => exact Nat.le_refl _

/-- An event makes a connection active, or takes the active one, or leaves it. -/
theorem activeAfter_cases (s : System) (e : Event) :
    (∃ c a, e = .advance c ∧ s.calls c = some (.publish a) ∧ s.activeAfter e = some a) ∨
      s.activeAfter e = none ∨ s.activeAfter e = s.client.ACTIVE_CONNECTION_STATE := by
  cases e with
  | advance c =>
    simp only [activeAfter]
    cases hpoint : s.calls c with
    | none => simp
    | some point =>
      cases point with
      | publish a => exact .inl ⟨c, a, rfl, hpoint, rfl⟩
      | _ => simp
  | worker w t =>
    cases t with
    | clear =>
      simp only [activeAfter]
      split
      · exact .inr (.inl rfl)
      · exact .inr (.inr rfl)
    | _ => exact .inr (.inr rfl)
  | _ => exact .inr (.inr rfl)

end System

end bambu_farm_client.connection_calls
