-- The way of a command to the printer: from `bambu_network_rs_send` through
-- the channel of a connection to its send loop, from there by a call of
-- `send_message` into the channel of a session of the server, and from there
-- to the printer. The printer gets commands that were sent with success, in
-- the order in which they were sent.
import BambuFarm.ConnectionWorker
import BambuFarm.Sessions

open runs bambu_farm
open bambu_farm_client bambu_farm_client.errors
open bambu_farm_client.connection (Client Worker WorkerId WorkerStep)
open bambu_farm_server.session_registry (Farm SessionId)

namespace bambu_farm.pipeline

/-! ## The model -/

/-- A call of `bambu_network_rs_send` is named by its own number. -/
abbrev CallId := Nat

/-- What a call of `bambu_network_rs_send` returned. -/
structure Result where
  call : CallId
  request : SendMessageRequest
  code : Int
  deriving DecidableEq

/-- The send loop waits for a request or for its cancellation, waits for the answer to its
`send_message`, or has ended. -/
inductive SendLoop
  | selecting
  | awaiting
  | ended
  deriving DecidableEq

/-- The `send_message` of the send loop: the server has not started on it, has cloned the
sender of the session, or has answered. There is one at a time, and it is executed at most
once. -/
inductive Rpc
  | none
  | requested (request : SendMessageRequest)
  | executing (request : SendMessageRequest)
  | answered (success : Bool)
  deriving DecidableEq

structure Pipeline where
  client : Client := {}
  /-- The calls of `bambu_network_rs_send` that cloned a sender and have not used it yet. -/
  calls : CallId → Option (WorkerId × SendMessageRequest) := fun _ => none
  results : List Result := []
  send_loop : SendLoop := .selecting
  failures : Nat := 0
  rpc : Rpc := .none
  farm : Farm := {}

/-- The client goes on in any way, the farm loop clears the senders, a call of
`bambu_network_rs_send` clones a sender and uses it, the send loop takes a request, sees
its cancellation or the end of its senders, gets an answer or an error, the server executes
the request, and the session comes, publishes and goes. -/
inductive Event
  | client (e : connection.Event)
  | clear_tx
  | send (c : CallId) (device_id data : String)
  | try_send (c : CallId)
  | recv
  | canceled
  | closed
  | delivered
  | rpc_failed
  | rpc_lookup
  | rpc_try_send
  | register
  | stream_close
  | cleanup
  | publish

/-- The connection of the worker on the client, and the session of its device on the
server. -/
structure Route where
  device_id : String
  worker : WorkerId
  session : SessionId

namespace Pipeline

variable (r : Route) (p : Pipeline)

def finish (c : CallId) (request : SendMessageRequest) (code : Int) : Pipeline :=
  { p with
    calls := Function.update p.calls c none
    results := p.results ++ [⟨c, request, code⟩] }

/-- The part of `bambu_network_rs_send` under the lock. -/
def send (c : CallId) (request : SendMessageRequest) : Pipeline :=
  match p.client.MSG_TX request.dev_id with
  | some sender => { p with calls := Function.update p.calls c (some (sender, request)) }
  | none => p.finish c request BAMBU_NETWORK_ERR_SEND_MSG_FAILED

def try_send (c : CallId) : Pipeline :=
  match p.calls c with
  | none => p
  | some (sender, request) =>
    let sent := connection.try_send p.client sender request
    { p with client := sent.2 }.finish c request
      (if sent.1 then BAMBU_NETWORK_SUCCESS else BAMBU_NETWORK_ERR_SEND_MSG_FAILED)

/-- The worker of the connection. -/
def worker : Option Worker := p.client.workers[r.worker]?

def recv : Pipeline :=
  match (p.worker r).map (·.queue) with
  | some (request :: rest) => { p with
      client := p.client.modifyWorker r.worker fun x => { x with queue := rest }
      send_loop := .awaiting
      rpc := .requested request }
  | _ => p

/-- The send loop ends, and its receiver with it. -/
def endLoop : Pipeline :=
  { p with
    client := p.client.modifyWorker r.worker fun x => { x with rx_open := false }
    send_loop := .ended }

/-- The failures are counted from `0` after each answer. -/
def delivered : Pipeline :=
  match p.rpc with
  | .answered success =>
    let failures := if success then 0 else 0 + 1
    let p := { p with rpc := .none, failures, send_loop := .selecting }
    if failures > 3 then p.endLoop r else p
  | _ => p

/-- The number of the `send_message` on the server. -/
def rpcId : bambu_farm_server.session_registry.CallId := 0

def rpc_lookup : Pipeline :=
  match p.rpc with
  | .requested request => { p with
      farm := p.farm.step (.send_message rpcId request)
      rpc := if (p.farm.connections request.dev_id).isSome then .executing request
        else .answered false }
  | _ => p

def rpc_try_send : Pipeline :=
  match p.rpc with
  | .executing _ =>
    let farm := p.farm.step (.try_send rpcId)
    { p with farm, rpc := .answered (farm.answers.getLast? = some (rpcId, .queued)) }
  | _ => p

def step : Event → Pipeline
  | .client e => { p with client := connection.step p.client e }
  | .clear_tx => { p with client := p.client.clearTx }
  | .send c device_id data => p.send c ⟨device_id, data⟩
  | .try_send c => p.try_send c
  | .recv => p.recv r
  | .canceled => p.endLoop r
  | .closed => p.endLoop r
  | .delivered => p.delivered r
  | .rpc_failed => p.endLoop r
  | .rpc_lookup => p.rpc_lookup
  | .rpc_try_send => p.rpc_try_send
  | .register => { p with farm := p.farm.step (.register r.session r.device_id) }
  | .stream_close => { p with farm := p.farm.step (.stream_close r.session) }
  | .cleanup => { p with farm := p.farm.step (.cleanup r.session) }
  | .publish => { p with farm := p.farm.step (.publish r.session) }

/-- The send loop is at its `select`. -/
def Selecting : Prop :=
  p.send_loop = .selecting ∧ ∃ x, p.worker r = some x ∧ x.sending = true ∧ x.rx_open = true

/-- An event that can happen next. The send loop ends by its own events only. -/
def Possible : Event → Prop
  | .client e => e ≠ .worker r.worker .send_loop_ended
  | .clear_tx => True
  | .send c _ _ => p.calls c = none ∧ ∀ result ∈ p.results, result.call ≠ c
  | .try_send c => p.calls c ≠ none
  | .recv => p.Selecting r ∧ (p.worker r).map (·.queue) ≠ some []
  | .canceled => p.Selecting r ∧ (p.worker r).map (·.canceled) = some true
  | .closed => p.Selecting r ∧ (p.worker r).map (·.queue) = some [] ∧
      (∀ d, p.client.MSG_TX d ≠ some r.worker) ∧
      ∀ c request, p.calls c ≠ some (r.worker, request)
  | .delivered => p.send_loop = .awaiting ∧ ∃ success, p.rpc = .answered success
  | .rpc_failed => p.send_loop = .awaiting
  | .rpc_lookup => ∃ request, p.rpc = .requested request
  | .rpc_try_send => ∃ request, p.rpc = .executing request
  | .register => p.farm.sessions r.session = none
  | .stream_close => (p.farm.sessions r.session).isSome = true
  | .cleanup => (p.farm.sessions r.session).any (fun x => !x.stream_open && !x.cleaned_up) = true
  | .publish => (p.farm.sessions r.session).any (fun x => x.queue ≠ []) = true

end Pipeline

def pipelineAfter (r : Route) (es : List Event) : Pipeline := after (Pipeline.step r) {} es

@[simp] theorem pipelineAfter_snoc (r : Route) (es : List Event) (e : Event) :
    pipelineAfter r (es ++ [e]) = (pipelineAfter r es).step r e := by
  simp [pipelineAfter]

/-- A run of the pipeline: its events, each of which could happen when it did. -/
structure Run (r : Route) where
  events : List Event
  possible : Steps (fun es e => (pipelineAfter r es).Possible r e) events

/-! ## The law -/

/-- The payloads that the session sent to `device/<device_id>/request`. -/
def published (r : Route) (p : Pipeline) : List String :=
  ((p.farm.sessions r.session).map (·.published)).getD []

/-- The calls of `bambu_network_rs_send` for the device that returned success, in the order
of their `try_send`. -/
def succeeded (r : Route) (p : Pipeline) : List Result :=
  p.results.filter fun result =>
    result.code = BAMBU_NETWORK_SUCCESS && result.request.dev_id = r.device_id

structure InOrder (r : Route) (p : Pipeline) : Prop where
  /-- The payloads are those of calls that succeeded, each call once and in their order. -/
  order : ∃ sent : List Result, sent.Sublist (succeeded r p) ∧
    sent.map (·.request.data) = published r p
  /-- A call returns once. -/
  once : (p.results.map (·.call)).Nodup
  /-- A payload whose calls all failed is not published. -/
  refused : ∀ data, (∀ result ∈ p.results, result.request = ⟨r.device_id, data⟩ →
    result.code ≠ BAMBU_NETWORK_SUCCESS) → data ∉ published r p

/-! ## The commands under way -/

/-- The request of a `send_message` that the server has not put into the channel yet. -/
def inflight : Rpc → List SendMessageRequest
  | .requested request => [request]
  | .executing request => [request]
  | _ => []

section

variable (r : Route) (p : Pipeline)

/-- The requests in the channel of the connection. -/
def waiting : List SendMessageRequest := ((p.worker r).map (·.queue)).getD []

/-- The requests in the channel of the session. -/
def queued : List SendMessageRequest := ((p.farm.sessions r.session).map (·.queue)).getD []

def accepted : List SendMessageRequest :=
  (p.results.filter fun result => result.code = BAMBU_NETWORK_SUCCESS).map (·.request)

/-- What was published, and then what is on its way from the printer back to the call, is
part of what was sent with success, in the same order. -/
structure Flows : Prop where
  line : ∃ out : List SendMessageRequest, out.map (·.data) = published r p ∧
    (∀ request ∈ out ++ queued r p, request.dev_id = r.device_id) ∧
    (out ++ queued r p ++ inflight p.rpc ++ waiting r p).Sublist (accepted p)
  /-- The send loop takes no request before the last one is settled. -/
  settled : p.send_loop = .selecting → inflight p.rpc = []
  executing : ∀ request, p.rpc = .executing request →
    p.farm.calls Pipeline.rpcId = some (r.session, request) ∧ request.dev_id = r.device_id
  registry : ∀ d s, p.farm.connections d = some s → d = r.device_id ∧ s = r.session
  fresh : ∀ c, p.calls c ≠ none → ∀ result ∈ p.results, result.call ≠ c
  once : (p.results.map (·.call)).Nodup

end

section

variable {r : Route} {p : Pipeline}

theorem queue_next (x : Worker) (active : Bool) (s : WorkerStep) :
    (x.next active s).queue = x.queue := by
  cases s <;> simp only [Worker.next] <;> split <;> rfl

/-- Nothing that the manager and the workers do touches the requests in a channel. -/
theorem queue_step (c : Client) (e : connection.Event) (w : WorkerId) :
    ((connection.step c e).workers[w]?.map (·.queue)).getD [] =
      (c.workers[w]?.map (·.queue)).getD [] := by
  cases h : c.workers[w]? with
  | some x =>
    by_cases he : ∃ s, e = .worker w s
    · obtain ⟨s, rfl⟩ := he
      simp [connection.own_step h, queue_next]
    · push Not at he
      rcases connection.other_step h he with h' | h'
      · simp [h']
      · simp [h']
  | none =>
    cases h' : (connection.step c e).workers[w]? with
    | none => rfl
    | some x' =>
      rcases connection.worker_came h' with ⟨x, hx, -⟩ | ⟨d, password, now, -, -, rfl⟩
      · rw [h] at hx
        cases hx
      · rfl

theorem Flows.start : Flows r {} where
  line := ⟨[], rfl, by simp [queued], by simp [queued, inflight, waiting, Pipeline.worker]⟩
  settled _ := rfl
  executing _ h := by cases h
  registry _ _ h := by cases h
  fresh _ h := absurd rfl h
  once := List.nodup_nil

theorem Flows.client (h : Flows r p) (e : connection.Event) :
    Flows r { p with client := connection.step p.client e } := by
  have hwaiting : waiting r { p with client := connection.step p.client e } = waiting r p :=
    queue_step p.client e r.worker
  obtain ⟨out, hout, hdev, hline⟩ := h.line
  exact { h with line := ⟨out, hout, hdev, hwaiting ▸ hline⟩ }

theorem accepted_finish (c : CallId) (request : SendMessageRequest) (code : Int) :
    accepted (p.finish c request code) =
      accepted p ++ if code = BAMBU_NETWORK_SUCCESS then [request] else [] := by
  simp only [accepted, Pipeline.finish, List.filter_append, List.map_append]
  by_cases hcode : code = BAMBU_NETWORK_SUCCESS
  · simp [hcode]
  · simp [hcode]

/-- A call that returns, in a pipeline where the rest is as it should be. -/
theorem Flows.finish (h : Flows r p) {c : CallId} {request : SendMessageRequest} {code : Int}
    {client : Client} (hc : ∀ result ∈ p.results, result.call ≠ c)
    (hline : ∀ line, (line ++ waiting r p).Sublist (accepted p) →
      (line ++ waiting r { p with client }).Sublist (accepted p ++
        if code = BAMBU_NETWORK_SUCCESS then [request] else [])) :
    Flows r ({ p with client }.finish c request code) := by
  obtain ⟨out, hout, hdev, hsub⟩ := h.line
  refine { h with line := ⟨out, hout, hdev, ?_⟩, fresh := ?_, once := ?_ }
  · rw [accepted_finish]
    exact hline _ hsub
  · intro d hd result hresult
    simp only [Pipeline.finish, List.mem_append, List.mem_singleton] at hresult
    by_cases hdc : d = c
    · subst hdc
      simp [Pipeline.finish] at hd
    · rcases hresult with hold | rfl
      · simp only [Pipeline.finish, Function.update_of_ne hdc] at hd
        exact h.fresh d hd result hold
      · exact fun heq => hdc heq.symm
  · simp only [Pipeline.finish, List.map_append, List.map_cons, List.map_nil]
    rw [List.nodup_append]
    refine ⟨h.once, by simp, ?_⟩
    intro d hd e he
    obtain ⟨result, hresult, rfl⟩ := List.mem_map.mp hd
    rw [List.mem_singleton.mp he]
    exact hc result hresult

theorem error_ne_success : BAMBU_NETWORK_ERR_SEND_MSG_FAILED ≠ BAMBU_NETWORK_SUCCESS := by decide

theorem Flows.send (h : Flows r p) {c : CallId} (request : SendMessageRequest)
    (hc : ∀ result ∈ p.results, result.call ≠ c) : Flows r (p.send c request) := by
  unfold Pipeline.send
  split
  · refine { h with fresh := ?_ }
    intro d hd result hresult
    by_cases hdc : d = c
    · subst hdc
      exact hc result hresult
    · simp only [Function.update_of_ne hdc] at hd
      exact h.fresh d hd result hresult
  · refine h.finish hc fun line hline => ?_
    rw [if_neg error_ne_success, List.append_nil]
    exact hline

theorem Flows.try_send (h : Flows r p) {c : CallId} (hc : p.calls c ≠ none) :
    Flows r (p.try_send c) := by
  unfold Pipeline.try_send
  split
  · exact h
  · rename_i sender request hcall
    refine h.finish (h.fresh c hc) fun line hline => ?_
    unfold connection.try_send
    split
    · rename_i hopen
      simp only [if_true]
      by_cases hw : sender = r.worker
      · subst hw
        obtain ⟨x, hx, -⟩ := (Option.any_eq_true _ _).mp hopen
        have hwaiting : waiting r p = x.queue := by simp [waiting, Pipeline.worker, hx]
        have hadded : waiting r { p with client := p.client.modifyWorker r.worker fun x =>
            { x with queue := x.queue ++ [request] } } = x.queue ++ [request] := by
          simp [waiting, Pipeline.worker, hx]
        rw [hadded, ← hwaiting, ← List.append_assoc]
        exact hline.append (List.Sublist.refl _)
      · have hsame : waiting r { p with client := p.client.modifyWorker sender fun x =>
            { x with queue := x.queue ++ [request] } } = waiting r p := by
          simp [waiting, Pipeline.worker, hw]
        rw [hsame]
        exact hline.trans (List.sublist_append_left _ _)
    · simp only [Bool.false_eq_true, if_false, if_neg error_ne_success, List.append_nil]
      exact hline

/-- The send loop takes the next request. -/
theorem Flows.recv (h : Flows r p) (hsel : p.send_loop = .selecting) : Flows r (p.recv r) := by
  obtain ⟨out, hout, hdev, hline⟩ := h.line
  unfold Pipeline.recv
  split
  · rename_i request rest hqueue
    obtain ⟨x, hx, hxq⟩ := Option.map_eq_some_iff.mp hqueue
    have hwaiting : waiting r p = request :: rest := by simp [waiting, hx, hxq]
    have hleft : ((p.client.modifyWorker r.worker fun x =>
        { x with queue := rest }).workers[r.worker]?.map (·.queue)).getD [] = rest := by
      have hx' : p.client.workers[r.worker]? = some x := hx
      simp [hx']
    refine { h with line := ⟨out, hout, hdev, ?_⟩, settled := ?_, executing := ?_ }
    · -- nothing was in flight, so the request takes that place
      rw [h.settled hsel, hwaiting, List.append_nil, List.append_cons] at hline
      unfold waiting Pipeline.worker
      rw [hleft]
      exact hline
    · exact fun hawait => by cases hawait
    · exact fun _ hexec => by cases hexec
  · exact h

theorem waiting_modify (f : Worker → Worker) (hf : ∀ x, (f x).queue = x.queue) :
    waiting r { p with client := p.client.modifyWorker r.worker f } = waiting r p := by
  unfold waiting Pipeline.worker
  cases hx : p.client.workers[r.worker]? with
  | none => simp [hx]
  | some x => simp [hx, hf]

theorem Flows.endLoop (h : Flows r p) : Flows r (p.endLoop r) := by
  obtain ⟨out, hout, hdev, hline⟩ := h.line
  refine { h with line := ⟨out, hout, hdev, ?_⟩, settled := ?_ }
  · have hwaiting := waiting_modify (r := r) (p := p) (fun x => { x with rx_open := false })
      fun _ => rfl
    exact hwaiting ▸ hline
  · exact fun hsel => by cases hsel

theorem Flows.delivered (h : Flows r p) : Flows r (p.delivered r) := by
  unfold Pipeline.delivered
  split
  · rename_i success hrpc
    obtain ⟨out, hout, hdev, hline⟩ := h.line
    have hidle : ∀ failures, Flows r
        { p with rpc := .none, failures, send_loop := .selecting } := by
      intro failures
      refine { h with line := ⟨out, hout, hdev, ?_⟩, settled := ?_, executing := ?_ }
      · rw [hrpc] at hline
        exact hline
      · exact fun _ => rfl
      · exact fun _ hexec => by cases hexec
    dsimp only
    generalize (if success then 0 else 0 + 1) = failures
    split
    · exact (hidle failures).endLoop
    · exact hidle failures
  · exact h

/-! ### The server -/

/-- The request in flight is dropped. -/
theorem lineWithout {before middle after all : List SendMessageRequest}
    (h : (before ++ middle ++ after).Sublist all) : (before ++ [] ++ after).Sublist all :=
  (((List.nil_sublist middle).append_left before).append_right after).trans h

/-- The server looks for the session of the request. -/
theorem Flows.rpc_lookup (h : Flows r p) : Flows r p.rpc_lookup := by
  unfold Pipeline.rpc_lookup
  split
  · rename_i request hrpc
    obtain ⟨out, hout, hdev, hline⟩ := h.line
    rw [hrpc] at hline
    cases hs : p.farm.connections request.dev_id with
    | some s =>
      have hfarm : p.farm.step (.send_message Pipeline.rpcId request) = { p.farm with
          calls := Function.update p.farm.calls Pipeline.rpcId (some (s, request)) } := by
        simp [Farm.step, Farm.send_message, hs]
      obtain ⟨hd, rfl⟩ := h.registry _ _ hs
      simp only [Option.isSome_some, if_true, hfarm]
      refine { h with line := ⟨out, hout, hdev, hline⟩, settled := ?_, executing := ?_ }
      · intro hsel
        have hnone := h.settled hsel
        rw [hrpc] at hnone
        cases hnone
      · intro request' hexec
        cases hexec
        exact ⟨by simp, hd⟩
    | none =>
      have hfarm : p.farm.step (.send_message Pipeline.rpcId request) =
          p.farm.answer Pipeline.rpcId .no_connection := by
        simp [Farm.step, Farm.send_message, hs]
      simp only [Option.isSome_none, Bool.false_eq_true, if_false, hfarm]
      refine { h with line := ⟨out, hout, hdev, ?_⟩, settled := ?_, executing := ?_ }
      · exact lineWithout hline
      · exact fun _ => rfl
      · exact fun _ hexec => by cases hexec
  · exact h

/-- The server answers, and the request is settled. -/
theorem Flows.answer (h : Flows r p) {farm : Farm} {success : Bool}
    (hreg : farm.connections = p.farm.connections)
    (hline : ∃ out : List SendMessageRequest,
      out.map (·.data) = published r { p with farm, rpc := .answered success } ∧
      (∀ request ∈ out ++ queued r { p with farm, rpc := .answered success },
        request.dev_id = r.device_id) ∧
      (out ++ queued r { p with farm, rpc := .answered success } ++ [] ++ waiting r p).Sublist
        (accepted p)) :
    Flows r { p with farm, rpc := .answered success } := by
  refine { h with line := hline, settled := ?_, executing := ?_, registry := ?_ }
  · exact fun _ => rfl
  · exact fun _ hexec => by cases hexec
  · intro d s hd
    rw [hreg] at hd
    exact h.registry d s hd

theorem Flows.rpc_try_send (h : Flows r p) : Flows r p.rpc_try_send := by
  unfold Pipeline.rpc_try_send
  split
  · rename_i request hrpc
    obtain ⟨hcall, hd⟩ := h.executing request hrpc
    obtain ⟨out, hout, hdev, hline⟩ := h.line
    rw [hrpc] at hline
    dsimp only
    cases hx : p.farm.sessions r.session with
    | none =>
      have hfarm : p.farm.step (.try_send Pipeline.rpcId) =
          p.farm.answer Pipeline.rpcId .refused := by
        simp [Farm.step, Farm.try_send, hcall, hx]
      rw [hfarm]
      exact h.answer rfl ⟨out, hout, hdev, lineWithout hline⟩
    | some x =>
      have hqueued : queued r p = x.queue := by simp [queued, hx]
      have hpublished : published r p = x.published := by simp [published, hx]
      by_cases hroom : x.queue.length < bambu_farm_server.session_registry.MESSAGE_CAPACITY
      · have hfarm : p.farm.step (.try_send Pipeline.rpcId) =
            (p.farm.setSession r.session { x with queue := x.queue ++ [request] }).answer
              Pipeline.rpcId .queued := by
          simp [Farm.step, Farm.try_send, hcall, hx, hroom]
        rw [hfarm]
        rw [hqueued] at hdev hline
        rw [hpublished] at hout
        refine h.answer rfl ⟨out, ?_, ?_, ?_⟩
        · simpa [published, Farm.answer, Farm.setSession] using hout
        · intro request' hmem
          simp only [queued, Farm.answer, Farm.setSession, Function.update_self, Option.map_some,
            Option.getD_some, ← List.append_assoc, List.mem_append, List.mem_singleton] at hmem
          rcases hmem with hmem | rfl
          · exact hdev request' (List.mem_append.mpr hmem)
          · exact hd
        · simpa [queued, Farm.answer, Farm.setSession, inflight] using hline
      · have hfarm : p.farm.step (.try_send Pipeline.rpcId) =
            p.farm.answer Pipeline.rpcId .refused := by
          simp [Farm.step, Farm.try_send, hcall, hx, hroom]
        rw [hfarm]
        exact h.answer rfl ⟨out, hout, hdev, lineWithout hline⟩
  · exact h

/-- A change of the session that does not touch its requests. -/
theorem Flows.session (h : Flows r p) {farm : Farm}
    (hcalls : farm.calls = p.farm.calls)
    (hreg : ∀ d s, farm.connections d = some s → d = r.device_id ∧ s = r.session)
    (hqueued : queued r { p with farm } = queued r p)
    (hpublished : published r { p with farm } = published r p) : Flows r { p with farm } := by
  obtain ⟨out, hout, hdev, hline⟩ := h.line
  refine { h with line := ⟨out, ?_, ?_, ?_⟩, executing := ?_, registry := hreg }
  · rw [hpublished]
    exact hout
  · rw [hqueued]
    exact hdev
  · rw [hqueued]
    exact hline
  · intro request hexec
    dsimp only
    rw [hcalls]
    exact h.executing request hexec

theorem Flows.register (h : Flows r p) (hnew : p.farm.sessions r.session = none) :
    Flows r { p with farm := p.farm.step (.register r.session r.device_id) } := by
  apply h.session
  · rfl
  · intro d s hd
    simp only [Farm.step, Farm.register, Farm.setSession] at hd
    by_cases hdd : d = r.device_id
    · subst hdd
      simp only [Function.update_self, Option.some.injEq] at hd
      exact ⟨rfl, hd.symm⟩
    · rw [Function.update_of_ne hdd] at hd
      exact h.registry d s hd
  · simp [queued, Farm.step, Farm.register, Farm.setSession, hnew]
  · simp [published, Farm.step, Farm.register, Farm.setSession, hnew]

theorem Flows.stream_close (h : Flows r p) :
    Flows r { p with farm := p.farm.step (.stream_close r.session) } := by
  simp only [Farm.step]
  split
  · rename_i x hx
    apply h.session
    · rfl
    · exact h.registry
    · simp [queued, Farm.setSession, hx]
    · simp [published, Farm.setSession, hx]
  · exact h

theorem Flows.cleanup (h : Flows r p) :
    Flows r { p with farm := p.farm.step (.cleanup r.session) } := by
  simp only [Farm.step]
  split
  · rename_i x hx
    apply h.session
    · rfl
    · intro d s hd
      simp only [Farm.cleanup, Farm.setSession] at hd
      by_cases hdd : d = x.dev_id
      · subst hdd
        simp at hd
      · rw [Function.update_of_ne hdd] at hd
        exact h.registry d s hd
    · simp [queued, Farm.cleanup, Farm.setSession, hx]
    · simp [published, Farm.cleanup, Farm.setSession, hx]
  · exact h

/-- The session publishes the next request of its channel. -/
theorem Flows.publish (h : Flows r p) :
    Flows r { p with farm := p.farm.step (.publish r.session) } := by
  simp only [Farm.step]
  split
  · rename_i x hx
    unfold Farm.publish
    split
    · exact h
    · rename_i request rest hqueue
      have hqueued : queued r p = request :: rest := by simp [queued, hx, hqueue]
      have hpublished : published r p = x.published := by simp [published, hx]
      obtain ⟨out, hout, hdev, hline⟩ := h.line
      rw [hqueued, List.append_cons] at hdev hline
      rw [hpublished] at hout
      have hleft : queued r { p with farm := (p.farm.setSession r.session
          { x with queue := rest, published := x.published ++ [request.data] }) } = rest := by
        simp [queued, Farm.setSession]
      refine { h with line := ⟨out ++ [request], ?_, ?_, ?_⟩ }
      · simp [published, Farm.setSession, hout]
      · rw [hleft]
        exact hdev
      · rw [hleft]
        exact hline
  · exact h

theorem Flows.step (h : Flows r p) {e : Event} (hp : p.Possible r e) : Flows r (p.step r e) := by
  cases e with
  | client e => exact h.client e
  | clear_tx => exact { h with }
  | send c device_id data => exact h.send ⟨device_id, data⟩ hp.2
  | try_send c => exact h.try_send hp
  | recv => exact h.recv hp.1.1
  | canceled => exact h.endLoop
  | closed => exact h.endLoop
  | delivered => exact h.delivered
  | rpc_failed => exact h.endLoop
  | rpc_lookup => exact h.rpc_lookup
  | rpc_try_send => exact h.rpc_try_send
  | register => exact h.register hp
  | stream_close => exact h.stream_close
  | cleanup => exact h.cleanup
  | publish => exact h.publish

theorem flows_of_possible {es : List Event}
    (h : Steps (fun pre e => (pipelineAfter r pre).Possible r e) es) :
    Flows r (pipelineAfter r es) :=
  (always_of_steps (P := fun es => Flows r (pipelineAfter r es)) Flows.start
    (fun pre e _ hpre he => by
      rw [pipelineAfter_snoc]
      exact hpre.step he) h).last

/-- What was published are the payloads of calls that succeeded for the device. -/
theorem Flows.order (h : Flows r p) : ∃ sent : List Result, sent.Sublist (succeeded r p) ∧
    sent.map (·.request.data) = published r p := by
  obtain ⟨out, hout, hdev, hline⟩ := h.line
  have hsub : out.Sublist (accepted p) := by
    refine List.Sublist.trans ?_ hline
    simp only [List.append_assoc]
    exact List.sublist_append_left _ _
  obtain ⟨sent, hsent, rfl⟩ := List.sublist_map_iff.mp hsub
  rw [List.map_map] at hout
  refine ⟨sent, ?_, hout⟩
  have hfor : sent.filter (fun result => result.request.dev_id = r.device_id) = sent := by
    rw [List.filter_eq_self]
    intro result hresult
    have hmem : result.request ∈ sent.map (·.request) ++ queued r p :=
      List.mem_append_left _ (List.mem_map_of_mem hresult)
    simpa using hdev result.request hmem
  have hfiltered := hsent.filter fun result => decide (result.request.dev_id = r.device_id)
  rw [hfor, List.filter_filter] at hfiltered
  unfold succeeded
  simpa [Bool.and_comm] using hfiltered

end

/-- Whatever the order of the steps, a printer gets commands that were sent with success, in
the order in which they were sent and none of them twice. -/
theorem the_printer_gets_what_was_sent_in_order (r : Route) (run : Run r) :
    Always (fun es => InOrder r (pipelineAfter r es)) run.events := by
  intro i _
  have h := flows_of_possible (run.possible.take i)
  obtain ⟨sent, hsent, hout⟩ := h.order
  refine ⟨⟨sent, hsent, hout⟩, h.once, fun data hall hmem => ?_⟩
  rw [← hout] at hmem
  obtain ⟨result, hresult, rfl⟩ := List.mem_map.mp hmem
  obtain ⟨hin, hgood⟩ := List.mem_filter.mp (hsent.subset hresult)
  simp only [Bool.and_eq_true, decide_eq_true_eq] at hgood
  exact hall result hin (by rw [← hgood.2]) hgood.1

/-- A command from its call to its printer. -/
def oneCommand : Run ⟨"printer-1", 0, 0⟩ where
  events := [.client (.connect "printer-1" "" 1), .client (.worker 0 (.dial true)), .register,
    .client (.worker 0 (.answer true)), .client (.worker 0 .record),
    .client (.worker 0 .report), .send 0 "printer-1" "pause", .try_send 0, .recv,
    .rpc_lookup, .rpc_try_send, .delivered, .publish]
  possible := by
    refine (steps_snoc _ [_, _, _, _, _, _, _, _, _, _, _, _] _).mpr ⟨?_, rfl⟩
    refine (steps_snoc _ [_, _, _, _, _, _, _, _, _, _, _] _).mpr ⟨?_, rfl, _, rfl⟩
    refine (steps_snoc _ [_, _, _, _, _, _, _, _, _, _] _).mpr ⟨?_, _, rfl⟩
    refine (steps_snoc _ [_, _, _, _, _, _, _, _, _] _).mpr ⟨?_, _, rfl⟩
    refine (steps_snoc _ [_, _, _, _, _, _, _, _] _).mpr ⟨?_, ⟨rfl, _, rfl, rfl, rfl⟩, by decide⟩
    refine (steps_snoc _ [_, _, _, _, _, _, _] _).mpr ⟨?_, nofun⟩
    refine (steps_snoc _ [_, _, _, _, _, _] _).mpr ⟨?_, rfl, nofun⟩
    refine (steps_snoc _ [_, _, _, _, _] _).mpr ⟨?_, nofun⟩
    refine (steps_snoc _ [_, _, _, _] _).mpr ⟨?_, nofun⟩
    refine (steps_snoc _ [_, _, _] _).mpr ⟨?_, nofun⟩
    refine (steps_snoc _ [_, _] _).mpr ⟨?_, rfl⟩
    refine (steps_snoc _ [_] _).mpr ⟨?_, nofun⟩
    exact (steps_snoc _ [] _).mpr ⟨steps_nil _, nofun⟩

theorem one_command_arrives :
    InOrder ⟨"printer-1", 0, 0⟩ (pipelineAfter ⟨"printer-1", 0, 0⟩ oneCommand.events) ∧
    published ⟨"printer-1", 0, 0⟩ (pipelineAfter ⟨"printer-1", 0, 0⟩ oneCommand.events) =
      ["pause"] :=
  ⟨(the_printer_gets_what_was_sent_in_order _ oneCommand).last, by decide +kernel⟩

end bambu_farm.pipeline
