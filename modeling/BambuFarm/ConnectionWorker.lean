-- The workers of the client: each connect spawns one, and its steps interleave
-- with the calls of the plugin and with the steps of the other workers. The
-- active connection is always the attempt that stands, and a success is stale
-- when its attempt stands no more.
import BambuFarm.Connection

open runs frames locks bambu_farm
open bambu_farm_client.session_state

namespace bambu_farm_client.connection

/-! ## The steps of the workers -/

/-- What the receive loop takes from its stream: a message, or an error or the end of the
stream, which it treats alike. -/
inductive Item
  | message (recv_message : RecvMessage)
  | failure
  deriving DecidableEq

/-- A worker dials the farm, gets the answer to its `connect_printer`, records and reports
a success, receives an item or its cancellation, looks whether it is active, emits the
disconnect event, and clears the active connection. Its send loop ends on its own. -/
inductive WorkerStep
  | dial (ok : Bool)
  | answer (ok : Bool)
  | record
  | report
  | receive (item : Item)
  | canceled
  | check
  | emit
  | clear
  | send_loop_ended
  deriving DecidableEq

/-- The top of the receive loop. -/
def loop_top (failures : Nat) : Phase :=
  if failures > 3 then .clearing else .receiving failures

/-- Where the receive loop goes with an item, after the failures in a row so far. -/
def received (failures : Nat) : Item → Phase
  | .message m => if m.connected then loop_top 0 else .checking 2 "Disconnected"
  | .failure => loop_top (failures + 1)

namespace Worker

/-- The steps that a worker can take where it stands. It sees a cancellation only when it
was canceled: the sender of the cancel flag is dropped after it has sent. -/
def ready (x : Worker) : WorkerStep → Bool
  | .dial _ => x.phase = .dialing
  | .answer _ => x.phase = .calling
  | .record => x.phase = .answered
  | .report => x.phase = .recorded
  | .receive _ => (x.phase matches .receiving _)
  | .canceled => (x.phase matches .receiving _) && x.canceled
  | .check => (x.phase matches .checking _ _)
  | .emit => (x.phase matches .emitting _ _)
  | .clear => x.phase = .clearing
  | .send_loop_ended => x.sending && x.rx_open

/-- The worker after a step. `active` says whether it is the active one. At the end of a
worker the receiver of its channel goes with it, unless the send loop has it. -/
def next (x : Worker) (active : Bool) : WorkerStep → Worker
  | .dial ok => { x with
      phase := if ok then .calling else .checking 1 "Failed to connect to farm" }
  | .answer ok => { x with
      phase := if ok then .answered else .checking 1 "Failed to connect to printer" }
  | .record => { x with phase := .recorded }
  | .report => { x with phase := loop_top 0, sending := true }
  | .receive item =>
    match x.phase with
    | .receiving failures => { x with phase := received failures item }
    | _ => x
  | .canceled => { x with phase := .checking 2 "Disconnected" }
  | .check =>
    match x.phase with
    | .checking status message =>
      { x with phase := if active then .emitting status message else .clearing }
    | _ => x
  | .emit => { x with phase := .clearing }
  | .clear => { x with phase := .done, rx_open := x.rx_open && x.sending }
  | .send_loop_ended => { x with rx_open := false }

end Worker

namespace Client

variable (c : Client)

/-- The callback for an item of the stream. -/
def deliver : Item → Client
  | .message m => if m.connected then c.callback (.message_recv m.dev_id m.data) else c
  | .failure => c

/-- The callback of a worker in `emit_disconnect_event`. -/
def announce (x : Worker) : Client :=
  match x.phase with
  | .emitting status message => effect (emit_disconnect_event x.device_id status message) c
  | _ => c

/-- What a step of a worker does to the globals and to the plugin. -/
def act (x : Worker) : WorkerStep → Client
  | .record => effect (record_connected x.device_id) c
  | .report => c.callback (.connected x.device_id)
  | .receive item => c.deliver item
  | .emit => c.announce x
  | .clear => effect (clear_active_connection x.device_id x.generation) c
  | _ => c

def setWorker (w : WorkerId) (x : Worker) : Client := { c with workers := c.workers.set w x }

end Client

/-! ## The events of the client -/

/-- A call of the plugin into the manager, a call that drives the session state alone, or
a step of a worker. -/
inductive Event
  | connect (device_id password : String) (now : Generation)
  | disconnect (device_id : String)
  | plugin (call : Call)
  | worker (w : WorkerId) (s : WorkerStep)
  deriving DecidableEq

def step (c : Client) : Event → Client
  | .connect device_id password now => effect (bambu_network_rs_connect device_id password now) c
  | .disconnect device_id => effect (bambu_network_rs_disconnect device_id) c
  | .plugin call => { c with session := (session_state.call c.session call).1 }
  | .worker w s =>
    match c.workers[w]? with
    | some x => (c.act x s).setWorker w (x.next (c.isActive x.device_id x.generation) s)
    | none => c

/-- The client after the events, from the start of the plugin. -/
def clientAfter (es : List Event) : Client := after step {} es

@[simp] theorem clientAfter_snoc (es : List Event) (e : Event) :
    clientAfter (es ++ [e]) = step (clientAfter es) e := by
  simp [clientAfter]

/-- The callbacks are made by the manager and its workers, not by the plugin. -/
def isCallback : Call → Bool
  | .cb_connected _ => true
  | .cb_disconnected _ _ => true
  | _ => false

/-- An event that can happen next: a connect comes with a generation of its own, and a
worker takes its steps in order. -/
def Possible (es : List Event) : Event → Bool
  | .connect _ _ now => (clientAfter es).workers.all fun x => x.generation ≠ now
  | .disconnect _ => true
  | .plugin call => !isCallback call
  | .worker w s => (clientAfter es).workers[w]?.any fun x => x.ready s

/-- A run of the client: its events, each of which could happen when it did. -/
structure Run where
  events : List Event
  possible : Steps (fun es e => Possible es e = true) events

/-! ## What a step changes -/

theorem step_connect (c : Client) (device_id password : String) (now : Generation) :
    step c (.connect device_id password now) = c.connect device_id password now :=
  effect_of_takes (connect_takes device_id password now) c

theorem step_disconnect (c : Client) (device_id : String) :
    step c (.disconnect device_id) = c.disconnect device_id :=
  effect_of_takes (disconnect_takes device_id) c

theorem step_worker {c : Client} {w : WorkerId} {x : Worker} (h : c.workers[w]? = some x)
    (s : WorkerStep) : step c (.worker w s) =
      (c.act x s).setWorker w (x.next (c.isActive x.device_id x.generation) s) := by
  simp [step, h]

theorem effect_record (c : Client) (device_id : String) :
    effect (record_connected device_id) c =
      { c with CURRENT_CONNECTED_PRINTER := some device_id } :=
  effect_of_takes (record_connected_takes device_id) c

theorem effect_clear (c : Client) (device_id : String) (generation : Generation) :
    effect (clear_active_connection device_id generation) c = c.clearActive device_id generation :=
  effect_of_takes (clear_active_connection_takes device_id generation) c

theorem effect_emit (c : Client) (device_id : String) (status : Int) (message : String) :
    effect (emit_disconnect_event device_id status message) c =
      c.callback (.disconnected device_id status message) :=
  rfl

@[simp] theorem deliver_active (c : Client) (item : Item) :
    (c.deliver item).ACTIVE_CONNECTION_STATE = c.ACTIVE_CONNECTION_STATE := by
  unfold Client.deliver
  split
  · split <;> simp
  · rfl

@[simp] theorem deliver_current (c : Client) (item : Item) :
    (c.deliver item).CURRENT_CONNECTED_PRINTER = c.CURRENT_CONNECTED_PRINTER := by
  unfold Client.deliver
  split
  · split <;> simp
  · rfl

@[simp] theorem announce_active (c : Client) (x : Worker) :
    (c.announce x).ACTIVE_CONNECTION_STATE = c.ACTIVE_CONNECTION_STATE := by
  unfold Client.announce
  split
  · simp [effect_emit]
  · rfl

@[simp] theorem announce_current (c : Client) (x : Worker) :
    (c.announce x).CURRENT_CONNECTED_PRINTER = c.CURRENT_CONNECTED_PRINTER := by
  unfold Client.announce
  split
  · simp [effect_emit]
  · rfl

@[simp] theorem clearActive_workers (c : Client) (d : String) (g : Generation) :
    (c.clearActive d g).workers = c.workers := by
  unfold Client.clearActive
  split
  · simp [Client.removeTx]
  · rfl

@[simp] theorem act_workers (c : Client) (x : Worker) (s : WorkerStep) :
    (c.act x s).workers = c.workers := by
  cases s with
  | receive item =>
    simp only [Client.act, Client.deliver]
    split
    · split <;> simp
    · rfl
  | emit =>
    simp only [Client.act, Client.announce]
    split
    · simp [effect_emit]
    · rfl
  | _ => simp [Client.act, effect_record, effect_clear]

/-- The active connection after an event. -/
def activeAfter (c : Client) : Event → Option Active
  | .connect device_id _ now => some ⟨device_id, now, c.workers.length⟩
  | .disconnect device_id =>
    if c.ACTIVE_CONNECTION_STATE.map (·.device_id) = some device_id then none
    else c.ACTIVE_CONNECTION_STATE
  | .worker w .clear =>
    if c.workers[w]?.any fun x => c.isActive x.device_id x.generation then none
    else c.ACTIVE_CONNECTION_STATE
  | _ => c.ACTIVE_CONNECTION_STATE

theorem active_step (c : Client) (e : Event) :
    (step c e).ACTIVE_CONNECTION_STATE = activeAfter c e := by
  cases e with
  | connect device_id password now =>
    rw [step_connect]
    simp [Client.connect, Client.startConnection, activeAfter,
      Client.disconnectActive_workers_length]
  | disconnect device_id =>
    rw [step_disconnect]
    simp only [Client.disconnect, activeAfter]
    split <;> simp [Client.removeTx]
  | plugin call => rfl
  | worker w s =>
    cases h : c.workers[w]? with
    | none => cases s <;> simp [step, activeAfter, h]
    | some x =>
      rw [step_worker h]
      cases s with
      | clear =>
        simp only [Client.setWorker, Client.act, effect_clear, Client.clearActive, activeAfter, h,
          Option.any_some]
        split <;> simp [Client.removeTx]
      | _ => simp [Client.setWorker, Client.act, activeAfter, effect_record]

theorem own_step {c : Client} {w : WorkerId} {x : Worker} (h : c.workers[w]? = some x)
    (s : WorkerStep) : (step c (.worker w s)).workers[w]? =
      some (x.next (c.isActive x.device_id x.generation) s) := by
  have hlt : w < c.workers.length := (List.getElem?_eq_some_iff.mp h).1
  simp [step_worker h, Client.setWorker, hlt]

@[simp] theorem next_device_id (x : Worker) (active : Bool) (s : WorkerStep) :
    (x.next active s).device_id = x.device_id := by
  cases s <;> simp only [Worker.next] <;> split <;> rfl

@[simp] theorem next_generation (x : Worker) (active : Bool) (s : WorkerStep) :
    (x.next active s).generation = x.generation := by
  cases s <;> simp only [Worker.next] <;> split <;> rfl

/-- A disconnect of the active connection touches a worker only to cancel it. -/
theorem disconnectActive_worker {c : Client} {v : WorkerId} {x : Worker}
    (h : c.workers[v]? = some x) :
    c.disconnectActive.workers[v]? = some x ∨
      c.disconnectActive.workers[v]? = some { x with canceled := true } := by
  rw [Client.disconnectActive_workers]
  split
  · exact Or.inl h
  · rename_i a _
    rw [List.getElem?_modify, h]
    by_cases ha : a.cancel_tx = v
    · simp [ha]
    · simp [ha]

/-- The steps of others leave a worker as it is, up to a cancellation. -/
theorem other_step {c : Client} {e : Event} {v : WorkerId} {x : Worker}
    (h : c.workers[v]? = some x) (he : ∀ s, e ≠ .worker v s) :
    (step c e).workers[v]? = some x ∨
      (step c e).workers[v]? = some { x with canceled := true } := by
  have hlt : v < c.workers.length := (List.getElem?_eq_some_iff.mp h).1
  cases e with
  | connect device_id password now =>
    rw [step_connect]
    simp only [Client.connect, Client.startConnection]
    rw [List.getElem?_append_left (by rwa [Client.disconnectActive_workers_length])]
    exact disconnectActive_worker h
  | disconnect device_id =>
    rw [step_disconnect]
    simp only [Client.disconnect]
    split
    · simp only [Client.callback_workers]
      exact disconnectActive_worker h
    · left
      simpa [Client.removeTx] using h
  | plugin call => exact Or.inl h
  | worker w s =>
    have hw : w ≠ v := by
      rintro rfl
      exact he s rfl
    cases hx : c.workers[w]? with
    | none => simp [step, hx, h]
    | some y =>
      left
      rw [step_worker hx]
      simp [Client.setWorker, List.getElem?_set_ne hw, h]

theorem workers_length_step (c : Client) (e : Event) :
    (step c e).workers.length =
      c.workers.length + if e matches .connect _ _ _ then 1 else 0 := by
  cases e with
  | connect device_id password now =>
    rw [step_connect]
    simp [Client.connect, Client.startConnection, Client.disconnectActive_workers_length]
  | disconnect device_id =>
    rw [step_disconnect]
    simp only [Client.disconnect]
    split
    · simp [Client.disconnectActive_workers_length]
    · simp [Client.removeTx]
  | plugin call => rfl
  | worker w s =>
    simp only [step]
    split
    · simp [Client.setWorker]
    · rfl

/-! ## The attempt that stands -/

/-- The number of connects so far, and the attempt that stands. -/
def attemptStep (p : Nat × Option Active) : Event → Nat × Option Active
  | .connect device_id _ now => (p.1 + 1, some ⟨device_id, now, p.1⟩)
  | .disconnect device_id => (p.1, p.2.filter fun a => a.device_id ≠ device_id)
  | .worker w .clear => (p.1, p.2.filter fun a => a.cancel_tx ≠ w)
  | _ => p

def attempts (es : List Event) : Nat × Option Active := after attemptStep (0, none) es

/-- The attempt of the last connect, until its device is disconnected or its own worker
ends. It is read off the events alone. -/
def attempt (es : List Event) : Option Active := (attempts es).2

@[simp] theorem attempts_snoc (es : List Event) (e : Event) :
    attempts (es ++ [e]) = attemptStep (attempts es) e := by
  simp [attempts]

/-- The attempt of the worker stands. -/
def Stands (es : List Event) (w : WorkerId) : Prop :=
  ∃ a, attempt es = some a ∧ a.cancel_tx = w

/-- What holds of the client after the events of a run: the active connection is the
attempt that stands, it carries the name of its worker, and no two workers share a
generation. -/
structure Good (es : List Event) : Prop where
  spawned : (attempts es).1 = (clientAfter es).workers.length
  active : (clientAfter es).ACTIVE_CONNECTION_STATE = attempt es
  named : ∀ a, attempt es = some a → ∃ x, (clientAfter es).workers[a.cancel_tx]? = some x ∧
    x.device_id = a.device_id ∧ x.generation = a.generation
  distinct : ∀ (v w : WorkerId) (x y : Worker), (clientAfter es).workers[v]? = some x →
    (clientAfter es).workers[w]? = some y → x.generation = y.generation → v = w

/-- A worker is the active one exactly when its attempt stands. -/
theorem Good.isActive_iff {es : List Event} (hg : Good es) {w : WorkerId} {x : Worker}
    (hx : (clientAfter es).workers[w]? = some x) :
    (clientAfter es).isActive x.device_id x.generation = true ↔ Stands es w := by
  simp only [Client.isActive, hg.active, Stands, Option.any_eq_true, Bool.and_eq_true,
    decide_eq_true_eq]
  constructor
  · rintro ⟨a, ha, hd, hgen⟩
    obtain ⟨y, hy, -, hyg⟩ := hg.named a ha
    exact ⟨a, ha, hg.distinct _ _ y x hy hx (hyg.trans hgen)⟩
  · rintro ⟨a, ha, rfl⟩
    obtain ⟨y, hy, hyd, hyg⟩ := hg.named a ha
    rw [hx, Option.some.injEq] at hy
    subst hy
    exact ⟨a, ha, hyd.symm, hyg.symm⟩

/-- A worker keeps its place and its name. -/
theorem worker_kept {c : Client} {v : WorkerId} {x : Worker} (h : c.workers[v]? = some x)
    (e : Event) : ∃ x', (step c e).workers[v]? = some x' ∧ x'.device_id = x.device_id ∧
      x'.generation = x.generation := by
  by_cases he : ∃ s, e = .worker v s
  · obtain ⟨s, rfl⟩ := he
    exact ⟨_, own_step h s, by simp, by simp⟩
  · push Not at he
    rcases other_step h he with h' | h'
    · exact ⟨_, h', rfl, rfl⟩
    · exact ⟨_, h', rfl, rfl⟩

theorem spawned_worker (c : Client) (d password : String) (now : Generation) :
    (step c (.connect d password now)).workers[c.workers.length]? =
      some { device_id := d, generation := now, password } := by
  rw [step_connect]
  simp only [Client.connect, Client.startConnection]
  rw [← Client.disconnectActive_workers_length, List.getElem?_concat_length]

/-- Only a connect adds a worker. -/
theorem worker_came {c : Client} {e : Event} {v : WorkerId} {x' : Worker}
    (h : (step c e).workers[v]? = some x') :
    (∃ x, c.workers[v]? = some x ∧ x'.device_id = x.device_id ∧ x'.generation = x.generation) ∨
      ∃ d password now, e = .connect d password now ∧ v = c.workers.length ∧
        x' = { device_id := d, generation := now, password } := by
  have hlt := (List.getElem?_eq_some_iff.mp h).1
  rw [workers_length_step] at hlt
  rcases Nat.lt_or_ge v c.workers.length with hv | hv
  · left
    obtain ⟨x, hx⟩ : ∃ x, c.workers[v]? = some x := ⟨_, List.getElem?_eq_getElem hv⟩
    obtain ⟨y, hy, hd, hgen⟩ := worker_kept hx e
    rw [h, Option.some.injEq] at hy
    subst hy
    exact ⟨x, hx, hd, hgen⟩
  · right
    cases e with
    | connect d password now =>
      simp only [if_true] at hlt
      have hv' : c.workers.length = v := by omega
      subst hv'
      rw [spawned_worker, Option.some.injEq] at h
      exact ⟨d, password, now, rfl, rfl, h.symm⟩
    | _ =>
      simp at hlt
      omega

theorem attempt_step_eq {es : List Event} (hg : Good es) (e : Event) :
    attempt (es ++ [e]) = activeAfter (clientAfter es) e := by
  simp only [attempt, attempts_snoc]
  cases e with
  | connect d password now => simp [attemptStep, activeAfter, hg.spawned]
  | disconnect d =>
    simp only [attemptStep, activeAfter, hg.active]
    change (attempt es).filter _ = _
    cases attempt es with
    | none => simp
    | some a => by_cases ha : a.device_id = d <;> simp [ha]
  | plugin call => exact hg.active.symm
  | worker w s =>
    cases s with
    | clear =>
      have hlost : ((clientAfter es).workers[w]?.any fun x =>
          (clientAfter es).isActive x.device_id x.generation) = true ↔ Stands es w := by
        rw [Option.any_eq_true]
        constructor
        · rintro ⟨x, hx, hact⟩
          exact (hg.isActive_iff hx).mp hact
        · rintro ⟨a, ha, rfl⟩
          obtain ⟨x, hx, -⟩ := hg.named a ha
          exact ⟨x, hx, (hg.isActive_iff hx).mpr ⟨a, ha, rfl⟩⟩
      simp only [attemptStep, activeAfter, hg.active]
      change (attempt es).filter _ = _
      cases ha : attempt es with
      | none => simp
      | some a =>
        by_cases hw : a.cancel_tx = w
        · rw [if_pos (hlost.mpr ⟨a, ha, hw⟩)]
          simp [hw]
        · rw [if_neg (fun hany => hw ?_)]
          · simp [hw]
          · obtain ⟨a', ha', haw⟩ := hlost.mp hany
            rw [ha, Option.some.injEq] at ha'
            rwa [ha']
    | _ => exact hg.active.symm

/-- An active connection was active before, or is the one of a connect. -/
theorem activeAfter_cases {c : Client} {e : Event} {a : Active} (h : activeAfter c e = some a) :
    c.ACTIVE_CONNECTION_STATE = some a ∨
      ∃ d password now, e = .connect d password now ∧ a = ⟨d, now, c.workers.length⟩ := by
  unfold activeAfter at h
  split at h
  · exact Or.inr ⟨_, _, _, rfl, (Option.some.inj h).symm⟩
  · split at h
    · cases h
    · exact Or.inl h
  · split at h
    · cases h
    · exact Or.inl h
  · exact Or.inl h

theorem fresh_generation {es : List Event} {d password : String} {now : Generation}
    (hp : Possible es (.connect d password now) = true) {v : WorkerId} {x : Worker}
    (hx : (clientAfter es).workers[v]? = some x) : x.generation ≠ now := by
  simp only [Possible, List.all_eq_true, decide_eq_true_eq] at hp
  exact hp x (List.mem_of_getElem? hx)

theorem good_start : Good [] where
  spawned := rfl
  active := rfl
  named := by
    intro a ha
    cases ha
  distinct := by
    intro v w x y hx
    simp [clientAfter] at hx

/-- Each event of a run keeps the client good. -/
theorem good_step {es : List Event} {e : Event} (hg : Good es) (hp : Possible es e = true) :
    Good (es ++ [e]) where
  spawned := by
    rw [attempts_snoc, clientAfter_snoc, workers_length_step, ← hg.spawned]
    unfold attemptStep
    split <;> simp
  active := by
    rw [clientAfter_snoc, active_step, attempt_step_eq hg]
  named := by
    intro a ha
    rw [attempt_step_eq hg] at ha
    rw [clientAfter_snoc]
    rcases activeAfter_cases ha with hold | ⟨d, password, now, rfl, rfl⟩
    · obtain ⟨x, hx, hd, hgen⟩ := hg.named a (hg.active ▸ hold)
      obtain ⟨x', hx', hd', hgen'⟩ := worker_kept hx e
      exact ⟨x', hx', hd'.trans hd, hgen'.trans hgen⟩
    · exact ⟨_, spawned_worker _ d password now, rfl, rfl⟩
  distinct := by
    intro v w x y hx hy hgen
    rw [clientAfter_snoc] at hx hy
    rcases worker_came hx with ⟨x₀, hx₀, -, hgx⟩ | ⟨d, password, now, rfl, rfl, rfl⟩
    · rcases worker_came hy with ⟨y₀, hy₀, -, hgy⟩ | ⟨d, password, now, rfl, rfl, rfl⟩
      · exact hg.distinct v w x₀ y₀ hx₀ hy₀ (hgx.symm.trans (hgen.trans hgy))
      · exact absurd (hgx.symm.trans hgen) (fresh_generation hp hx₀)
    · rcases worker_came hy with ⟨y₀, hy₀, -, hgy⟩ | ⟨_, _, _, -, rfl, -⟩
      · exact absurd (hgy.symm.trans hgen.symm) (fresh_generation hp hy₀)
      · rfl

theorem good_of_possible {es : List Event} (h : Steps (fun es e => Possible es e = true) es) :
    Good es :=
  (always_of_steps good_start (fun _ _ _ hg hp => good_step hg hp) h).last

/-- At every point of a run, the active connection is the attempt that stands. -/
theorem the_active_connection_is_the_attempt_that_stands (r : Run) :
    Always (fun es => (clientAfter es).ACTIVE_CONNECTION_STATE = attempt es) r.events :=
  (always_of_steps good_start (fun _ _ _ hg hp => good_step hg hp) r.possible).mono
    fun _ hg => hg.active

/-! ## Stale successes -/

/-- The current printer is none, or the device of the active connection. -/
def CurrentIsActive (c : Client) : Prop :=
  c.CURRENT_CONNECTED_PRINTER = none ∨
    c.CURRENT_CONNECTED_PRINTER = c.ACTIVE_CONNECTION_STATE.map (·.device_id)

/-- A worker calls `bambu_network_cb_connected` while it is the active one. -/
def ReportsActive (es : List Event) : Event → Prop
  | .worker w .report => ∀ x, (clientAfter es).workers[w]? = some x →
      ∃ a, (clientAfter es).ACTIVE_CONNECTION_STATE = some a ∧ a.device_id = x.device_id ∧
        a.generation = x.generation
  | _ => True

def NoStaleSuccess (es : List Event) : Prop :=
  CurrentIsActive (clientAfter es) ∧ Steps ReportsActive es

/-- A worker records a success while an attempt for its device stands, and reports it while
its own attempt stands. -/
def InTime (es : List Event) : Event → Prop
  | .worker w .record => ∀ x, (clientAfter es).workers[w]? = some x →
      ∃ a, attempt es = some a ∧ a.device_id = x.device_id
  | .worker w .report => Stands es w
  | _ => True

theorem disconnectActive_current_none {c : Client} (h : CurrentIsActive c) :
    c.disconnectActive.CURRENT_CONNECTED_PRINTER = none := by
  rw [Client.disconnectActive_current]
  rcases h with h | h
  · simp [h]
  · simp [h]

theorem clearActive_current {c : Client} (h : CurrentIsActive c) (d : String) (g : Generation) :
    CurrentIsActive (c.clearActive d g) := by
  unfold Client.clearActive
  split
  · rename_i hact
    obtain ⟨a, ha, hd⟩ : ∃ a, c.ACTIVE_CONNECTION_STATE = some a ∧ a.device_id = d := by
      simp only [Client.isActive, Option.any_eq_true, Bool.and_eq_true, decide_eq_true_eq] at hact
      obtain ⟨a, ha, hd, -⟩ := hact
      exact ⟨a, ha, hd⟩
    left
    rcases h with h | h
    · simp [Client.removeTx, h]
    · simp [Client.removeTx, h, ha, hd]
  · exact h

/-- Only the record of a success can part the current printer from the active connection. -/
theorem current_step {c : Client} (h : CurrentIsActive c) {e : Event}
    (he : ∀ w, e ≠ .worker w .record) : CurrentIsActive (step c e) := by
  cases e with
  | connect d password now =>
    left
    rw [step_connect]
    exact disconnectActive_current_none h
  | disconnect d =>
    rw [step_disconnect]
    unfold Client.disconnect
    split
    · left
      simpa using disconnectActive_current_none h
    · unfold CurrentIsActive
      simp only [Client.takeCurrent_current, Client.takeCurrent_active, Client.removeTx]
      split
      · exact Or.inl rfl
      · exact h
  | plugin call => exact h
  | worker w s =>
    cases hx : c.workers[w]? with
    | none => simpa [step, hx] using h
    | some x =>
      rw [step_worker hx]
      cases s with
      | record => exact absurd rfl (he w)
      | clear =>
        simp only [Client.act, effect_clear]
        exact clearActive_current h _ _
      | _ => simpa [CurrentIsActive, Client.setWorker, Client.act] using h

theorem current_record {c : Client} {w : WorkerId} {x : Worker} (hx : c.workers[w]? = some x) :
    CurrentIsActive (step c (.worker w .record)) ↔
      ∃ a, c.ACTIVE_CONNECTION_STATE = some a ∧ a.device_id = x.device_id := by
  rw [step_worker hx]
  simp only [CurrentIsActive, Client.act, Client.setWorker, effect_record, reduceCtorEq, false_or]
  rw [eq_comm, Option.map_eq_some_iff]

theorem reports_iff {es : List Event} (hg : Good es) {w : WorkerId}
    (hp : Possible es (.worker w .report) = true) :
    ReportsActive es (.worker w .report) ↔ InTime es (.worker w .report) := by
  obtain ⟨x, hx, -⟩ := Option.any_eq_true _ _ |>.mp hp
  simp only [ReportsActive, hx, Option.some.injEq, forall_eq', InTime]
  rw [← hg.isActive_iff hx]
  simp [Client.isActive, Option.any_eq_true]

theorem no_stale_success_step {es : List Event} {e : Event} (hg : Good es)
    (hp : Possible es e = true) (h : NoStaleSuccess es) :
    NoStaleSuccess (es ++ [e]) ↔ InTime es e := by
  obtain ⟨hcur, hrep⟩ := h
  simp only [NoStaleSuccess, clientAfter_snoc, steps_snoc, hrep, true_and]
  by_cases hr : ∃ w, e = .worker w .record
  · obtain ⟨w, rfl⟩ := hr
    obtain ⟨x, hx, -⟩ := Option.any_eq_true _ _ |>.mp hp
    simp only [current_record hx, hg.active, ReportsActive, and_true, InTime, hx,
      Option.some.injEq, forall_eq']
  · push Not at hr
    simp only [current_step hcur hr, true_and]
    by_cases hrep : ∃ w, e = .worker w .report
    · obtain ⟨w, rfl⟩ := hrep
      exact reports_iff hg hp
    · push Not at hrep
      have hother : ReportsActive es e ∧ InTime es e := by
        cases e with
        | worker w s =>
          cases s with
          | record => exact absurd rfl (hr w)
          | report => exact absurd rfl (hrep w)
          | _ => exact ⟨trivial, trivial⟩
        | _ => exact ⟨trivial, trivial⟩
      exact iff_of_true hother.1 hother.2

/-- The current printer belongs to the active connection at every point of a run, and each
worker reports a success only while it is the active one, exactly when no success is recorded
after the attempts for its device have ended, and none is reported after its own attempt was
superseded or disconnected. -/
theorem a_success_is_never_stale (r : Run) :
    Always NoStaleSuccess r.events ↔ Steps InTime r.events := by
  apply always_iff_steps ?_ ?_ r.possible
  · exact ⟨Or.inl rfl, steps_nil _⟩
  · intro es e hes hp h
    exact no_stale_success_step (good_of_possible hes) hp h.last

/-- A user logs out while the answer to a connect is on its way. -/
def logged_out : Run where
  events := [.connect "printer-1" "" 1, .worker 0 (.dial true), .disconnect "printer-1",
    .worker 0 (.answer true), .worker 0 .record, .worker 0 .report]
  possible := by decide

/-- After the logout the worker records its printer as current and reports it connected,
although no connection is active. -/
theorem a_late_answer_reports_a_disconnected_printer :
    ¬ Always NoStaleSuccess logged_out.events := by
  intro h
  have hcur := h.last.1
  unfold CurrentIsActive at hcur
  revert hcur
  decide

end bambu_farm_client.connection
