-- The sessions of the server: `connections` maps a device to the sender of a
-- session, `send_message` reads it, and the cleanup task of a session removes
-- the entry of its device. A cleanup that comes late removes the entry of a
-- newer session.
import BambuFarm.Runs
import BambuFarm.Proto
import Mathlib.Logic.Function.Basic

open runs bambu_farm

namespace bambu_farm_server.session_registry

/-! ## The model -/

/-- A session is named by its number, and a call of `send_message` by its own. -/
abbrev SessionId := Nat
abbrev CallId := Nat

/-- The capacity of the channel from `send_message` to the publish loop. -/
def MESSAGE_CAPACITY : Nat := 10

/-- A run of `connect_printer_session` that subscribed and registered: its device, whether
its gRPC stream is open, whether its cleanup task has run, the requests in its channel and
the payloads that its publish loop sent to the printer. -/
structure Session where
  dev_id : String
  stream_open : Bool := true
  cleaned_up : Bool := false
  queue : List SendMessageRequest := []
  published : List String := []
  deriving DecidableEq

/-- How `send_message` ends: no entry for the device, a channel that refuses the request,
or a request in the channel. The response says success only for the last. -/
inductive Answer
  | no_connection
  | refused
  | queued
  deriving DecidableEq

structure Farm where
  connections : String → Option SessionId := fun _ => none
  sessions : SessionId → Option Session := fun _ => none
  /-- The calls of `send_message` that cloned a sender and have not used it yet. -/
  calls : CallId → Option (SessionId × SendMessageRequest) := fun _ => none
  answers : List (CallId × Answer) := []

inductive Event
  | register (s : SessionId) (dev_id : String)
  | stream_close (s : SessionId)
  | cleanup (s : SessionId)
  | send_message (c : CallId) (request : SendMessageRequest)
  | try_send (c : CallId)
  | publish (s : SessionId)
  deriving DecidableEq

namespace Farm

def setSession (f : Farm) (s : SessionId) (x : Session) : Farm :=
  { f with sessions := Function.update f.sessions s (some x) }

def answer (f : Farm) (c : CallId) (a : Answer) : Farm :=
  { f with calls := Function.update f.calls c none, answers := f.answers ++ [(c, a)] }

/-- The printer was found by the `dev_id` of the request, so the key of the insert and
the key of the remove in `cleanup` are the same text. -/
def register (f : Farm) (s : SessionId) (dev_id : String) : Farm :=
  { f.setSession s { dev_id } with
    connections := Function.update f.connections dev_id (some s) }

def cleanup (f : Farm) (s : SessionId) (x : Session) : Farm :=
  { f.setSession s { x with cleaned_up := true } with
    connections := Function.update f.connections x.dev_id none }

/-- The part of `send_message` under the lock. -/
def send_message (f : Farm) (c : CallId) (request : SendMessageRequest) : Farm :=
  match f.connections request.dev_id with
  | some s => { f with calls := Function.update f.calls c (some (s, request)) }
  | none => f.answer c .no_connection

def try_send (f : Farm) (c : CallId) : Farm :=
  match f.calls c with
  | none => f
  | some (s, request) =>
    match f.sessions s with
    | none => f.answer c .refused
    | some x =>
      if x.queue.length < MESSAGE_CAPACITY then
        (f.setSession s { x with queue := x.queue ++ [request] }).answer c .queued
      else f.answer c .refused

def publish (f : Farm) (s : SessionId) (x : Session) : Farm :=
  match x.queue with
  | [] => f
  | request :: rest =>
    f.setSession s { x with queue := rest, published := x.published ++ [request.data] }

def step (f : Farm) : Event → Farm
  | .register s dev_id => f.register s dev_id
  | .stream_close s =>
    match f.sessions s with
    | some x => f.setSession s { x with stream_open := false }
    | none => f
  | .cleanup s =>
    match f.sessions s with
    | some x => f.cleanup s x
    | none => f
  | .send_message c request => f.send_message c request
  | .try_send c => f.try_send c
  | .publish s =>
    match f.sessions s with
    | some x => f.publish s x
    | none => f

end Farm

/-- The farm after the events, from the start of the server. -/
def farmAfter (es : List Event) : Farm := after Farm.step {} es

@[simp] theorem farmAfter_snoc (es : List Event) (e : Event) :
    farmAfter (es ++ [e]) = (farmAfter es).step e := by
  simp [farmAfter]

/-- An event that can happen next: a session registers once, its stream closes after that,
and its cleanup task runs once, after its stream closed. -/
def Possible (es : List Event) : Event → Bool
  | .register s _ => ((farmAfter es).sessions s).isNone
  | .stream_close s => ((farmAfter es).sessions s).isSome
  | .cleanup s => ((farmAfter es).sessions s).any (fun x => !x.stream_open && !x.cleaned_up)
  | .send_message c _ => ((farmAfter es).calls c).isNone
  | .try_send c => ((farmAfter es).calls c).isSome
  | .publish s => ((farmAfter es).sessions s).any (fun x => x.queue ≠ [])

/-- A run of the server: its events, each of which could happen when it did. -/
structure Run where
  events : List Event
  possible : Steps (fun es e => Possible es e = true) events

/-! ## The law of the registry -/

/-- The session of `dev_id` that registered last. -/
def lastRegistered (es : List Event) (dev_id : String) : Option SessionId :=
  es.foldl (fun last e => match e with
    | .register s d => if d = dev_id then some s else last
    | _ => last) none

theorem lastRegistered_register (es : List Event) (s : SessionId) (d dev_id : String) :
    lastRegistered (es ++ [.register s d]) dev_id =
      if d = dev_id then some s else lastRegistered es dev_id := by
  simp [lastRegistered]

theorem lastRegistered_other (es : List Event) (e : Event) (dev_id : String)
    (h : ∀ s d, e ≠ .register s d) :
    lastRegistered (es ++ [e]) dev_id = lastRegistered es dev_id := by
  cases e with
  | register s d => exact absurd rfl (h s d)
  | _ => simp [lastRegistered]

/-- The last registered session of a device owns the entry of the device until its own
cleanup, so `send_message` to the device always finds a sender. -/
def Registered (es : List Event) : Prop :=
  ∀ d s, lastRegistered es d = some s → Event.cleanup s ∉ es →
    (farmAfter es).connections d = some s ∧
      ∀ c data, ((farmAfter es).send_message c ⟨d, data⟩).answers = (farmAfter es).answers

theorem registered_iff (es : List Event) :
    Registered es ↔ ∀ d s, lastRegistered es d = some s → Event.cleanup s ∉ es →
      (farmAfter es).connections d = some s := by
  constructor
  · intro h d s hl hc
    exact (h d s hl hc).1
  · intro h d s hl hc
    have hd := h d s hl hc
    refine ⟨hd, fun c data => ?_⟩
    simp [Farm.send_message, hd]

/-- A cleanup of a session comes while the session is the last of its device, or after
the last one has been cleaned up as well. -/
def Timely (es : List Event) : Event → Prop
  | .cleanup s => ∀ x, (farmAfter es).sessions s = some x →
      ∀ s', lastRegistered es x.dev_id = some s' → s' = s ∨ Event.cleanup s' ∈ es
  | _ => True

/-- Only a registration and a cleanup write the registry. -/
theorem connections_step (f : Farm) (e : Event) (hr : ∀ s d, e ≠ .register s d)
    (hc : ∀ s, e ≠ .cleanup s) : (f.step e).connections = f.connections := by
  cases e with
  | register s d => exact absurd rfl (hr s d)
  | cleanup s => exact absurd rfl (hc s)
  | stream_close s =>
    simp only [Farm.step]
    split <;> rfl
  | send_message c request =>
    simp only [Farm.step, Farm.send_message]
    split <;> rfl
  | try_send c =>
    simp only [Farm.step, Farm.try_send]
    split
    · rfl
    · split
      · rfl
      · split <;> rfl
  | publish s =>
    simp only [Farm.step]
    split
    · simp only [Farm.publish]
      split <;> rfl
    · rfl

theorem registered_register (es : List Event) (s : SessionId) (d : String)
    (h : Registered es) : Registered (es ++ [.register s d]) := by
  rw [registered_iff] at h ⊢
  intro d' s' hl hc
  rw [lastRegistered_register] at hl
  rw [farmAfter_snoc]
  simp only [Farm.step, Farm.register]
  by_cases hd : d = d'
  · subst hd
    simpa using hl
  · simp only [hd, if_false] at hl
    rw [Function.update_of_ne (Ne.symm hd)]
    exact h d' s' hl (fun hm => hc (List.mem_append_left _ hm))

theorem registered_cleanup (es : List Event) (s : SessionId) (h : Registered es) :
    Registered (es ++ [.cleanup s]) ↔ Timely es (.cleanup s) := by
  rw [registered_iff] at h ⊢
  simp only [lastRegistered_other es (.cleanup s) _ (by simp), farmAfter_snoc, Farm.step,
    Timely, List.mem_append, List.mem_singleton, Event.cleanup.injEq, not_or]
  cases hs : (farmAfter es).sessions s with
  | none =>
    simp only [reduceCtorEq, false_implies, implies_true, iff_true]
    intro d' s' hl hc
    exact h d' s' hl hc.1
  | some x =>
    simp only [Farm.cleanup, Option.some.injEq, forall_eq']
    constructor
    · intro h' s' hl
      by_contra hn
      push Not at hn
      have := h' x.dev_id s' hl ⟨hn.2, hn.1⟩
      simp at this
    · intro ht d' s' hl hc
      by_cases hd : d' = x.dev_id
      · subst hd
        rcases ht s' hl with he | hm
        · exact absurd he hc.2
        · exact absurd hm hc.1
      · rw [Function.update_of_ne hd]
        exact h d' s' hl hc.1

theorem registered_step (es : List Event) (e : Event) (h : Registered es) :
    Registered (es ++ [e]) ↔ Timely es e := by
  by_cases hr : ∃ s d, e = .register s d
  · obtain ⟨s, d, rfl⟩ := hr
    simpa [Timely] using registered_register es s d h
  by_cases hc : ∃ s, e = .cleanup s
  · obtain ⟨s, rfl⟩ := hc
    exact registered_cleanup es s h
  push Not at hr hc
  have ht : Timely es e := by
    cases e with
    | cleanup s => exact absurd rfl (hc s)
    | _ => trivial
  simp only [ht, iff_true]
  rw [registered_iff] at h ⊢
  intro d s hl hm
  rw [lastRegistered_other es e d hr] at hl
  rw [farmAfter_snoc, connections_step _ e hr hc]
  exact h d s hl (fun hm' => hm (List.mem_append_left _ hm'))

/-- The last registered session of each device keeps its entry at every point of the run
exactly when no cleanup task runs after a newer session of its device has registered and
before that newer session is cleaned up itself. -/
theorem the_last_session_keeps_its_entry (r : Run) :
    Always Registered r.events ↔ Steps Timely r.events := by
  apply always_iff_steps ?_ ?_ r.possible
  · intro d s hl
    simp [lastRegistered] at hl
  · intro es e _ _ hes
    exact registered_step es e hes.last

/-- A client reconnects before the cleanup of its old session has run. -/
def reconnected : Run where
  events := [.register 1 "printer-1", .register 2 "printer-1", .stream_close 1, .cleanup 1]
  possible := by decide

/-- After the reconnect, the cleanup of the old session unregisters the new one, and
`send_message` finds no sender for the connected printer. -/
theorem a_late_cleanup_unregisters_the_newer_session : ¬ Always Registered reconnected.events := by
  intro h
  have hlast := (h.last "printer-1" 2 (by simp [reconnected, lastRegistered])
    (by simp [reconnected])).1
  simp [reconnected, farmAfter, after, Farm.step, Farm.register, Farm.setSession,
    Farm.cleanup] at hlast

end bambu_farm_server.session_registry
