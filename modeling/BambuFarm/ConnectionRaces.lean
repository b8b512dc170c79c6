-- What comes between the sections of a disconnect. It takes the connection that
-- came after its look, and its callback clears the flags of another device.
-- Where such overlaps are kept out, a disconnect leaves other devices alone.
import BambuFarm.ConnectionCalls
import BambuFarm.SessionDiscipline

open runs bambu_farm
open bambu_farm_client.connection bambu_farm_client.session_state

namespace bambu_farm_client.connection_calls

/-! ## Disconnects and other devices -/

/-- The device of the disconnect that a section belongs to. -/
def Point.disconnects : Point → Option String
  | .look d => some d
  | .take (.disconnect d) => some d
  | .remove _ (.disconnect d) => some d
  | .forget _ (.disconnect d) => some d
  | .emit d => some d
  | .drop d => some d
  | .drop_current d => some d
  | _ => none

/-- The disconnect that the event is a section of. -/
def System.disconnects (s : System) : Event → Option String
  | .advance c => (s.calls c).bind Point.disconnects
  | _ => none

/-- The law of a disconnect of a device, and of the callback that tells of one: connections
to other devices stay, and so do the flags while another device is selected. -/
structure Isolated (s : System) (e : Event) : Prop where
  active : ∀ d a, s.disconnects e = some d → s.client.ACTIVE_CONNECTION_STATE = some a →
    a.device_id ≠ d → (s.step e).client.ACTIVE_CONNECTION_STATE = some a
  sender : ∀ d d' w, s.disconnects e = some d → d' ≠ d → s.client.MSG_TX d' = some w →
    (s.step e).client.MSG_TX d' = some w
  flags : ∀ d status message,
    (s.step e).client.callbacks = s.client.callbacks ++ [.disconnected d status message] →
    s.client.session.selected_device_ ≠ d →
    (s.step e).client.session.connect_in_progress_ = s.client.session.connect_in_progress_ ∧
      (s.step e).client.session.printer_connected_ = s.client.session.printer_connected_

/-- The device of the `bambu_network_cb_disconnected` that the event makes. -/
def System.announces (s : System) : Event → Option String
  | .advance c =>
    match s.calls c with
    | some (.emit d) => some d
    | _ => none
  | .worker w .emit =>
    match s.client.workers[w]? with
    | some x => if x.phase matches .emitting _ _ then some x.device_id else none
    | none => none
  | _ => none

/-- The device of the disconnect that has found it active and takes the connection next. -/
def Point.takes : Point → Option String
  | .take (.disconnect d) => some d
  | _ => none

/-- The device of the disconnect whose callback is to come. -/
def Point.tells : Point → Option String
  | .take (.disconnect d) => some d
  | .remove _ (.disconnect d) => some d
  | .forget _ (.disconnect d) => some d
  | .emit d => some d
  | _ => none

/-- The worker is about to make the callback of its disconnect. -/
def tellsOf (x : Worker) : Bool := x.phase matches .emitting _ _

namespace System

variable (s : System)

/-- The device that the plugin asks a connection to, or hears the connection of. -/
def raises : Event → Option String
  | .plugin (.connect_printer dev_id _) => some dev_id
  | .worker w .report => s.client.workers[w]?.map (·.device_id)
  | _ => none

/-- The plugin hears of a disconnect, or the user logs out. -/
def lowers (e : Event) : Bool := decide (e = .plugin .user_logout) || (s.announces e).isSome

/-- The device that is found active and whose callback of a disconnect comes next. -/
def finds : Event → Option String
  | .advance c =>
    match s.calls c with
    | some (.look d) => (s.client.ACTIVE_CONNECTION_STATE.map (·.device_id)).filter (· = d)
    | _ => none
  | .worker w .check => (s.client.workers[w]?.filter fun x =>
      s.client.isActive x.device_id x.generation).map (·.device_id)
  | _ => none

end System

/-- The device that the event selects. -/
def Event.selects : Event → Option String
  | .plugin (.set_user_selected_machine dev_id) => some dev_id
  | .plugin (.set_config_dir loaded) => if loaded = "" then none else some loaded
  | _ => none

/-- The device that the plugin last asked a connection to or heard the connection of, unless it
heard of a disconnect or the user logged out since. -/
def upAfter (s : System) (o : Option String) (e : Event) : Option String :=
  (s.raises e).or (if s.lowers e then none else o)

def up (es : List Event) : Option String :=
  (after (fun (p : System × Option String) e => (p.1.step e, upAfter p.1 p.2 e)) ({}, none) es).2

/-- The overlaps that the events keep out. No connection to another device is published between
the look of a disconnect and its take. A disconnect that finds its device active, or a worker that
finds itself so, comes while no other device is up; and until its callback has come no other device
comes up. While a device is up no other one is selected. -/
def Separate (s : System) (o : Option String) (e : Event) : Prop :=
  (∀ a ∈ s.publishes e, s.NoCall fun point => point.takes.any (· ≠ a.device_id)) ∧
  (∀ d ∈ s.finds e, ∀ f ∈ o, f = d) ∧
  (∀ f ∈ s.raises e, (s.NoCall fun point => point.tells.any (· ≠ f)) ∧
    ∀ x ∈ s.client.workers, tellsOf x = true → x.device_id = f) ∧
  ∀ d ∈ e.selects, ∀ f ∈ o, f = d

instance (es : List Event) (o : Option String) : DecidablePred (Separate (systemAfter es) o) :=
  fun _ => inferInstanceAs (Decidable (_ ∧ _ ∧ _ ∧ _))

/-- While a flag is set the device that is up is the selected one. -/
def FlagsUp (session : SessionState) (o : Option String) : Prop :=
  session.connect_in_progress_ = true ∨ session.printer_connected_ = true →
    o = some session.selected_device_

/-- A disconnect that goes on to its take finds its own device, if any, and has taken its own. What
is up is the device of the callbacks that are to come, and the selected one while a flag is set. -/
structure Attended (s : System) (o : Option String) : Prop where
  takes : ∀ c d a, s.calls c = some (.take (.disconnect d)) →
    s.client.ACTIVE_CONNECTION_STATE = some a → a.device_id = d
  taken : ∀ c a d, s.calls c = some (.remove a (.disconnect d)) → a.device_id = d
  calls : ∀ c point d, s.calls c = some point → point.tells = some d → ∀ f ∈ o, f = d
  workers : ∀ x ∈ s.client.workers, tellsOf x = true → ∀ f ∈ o, f = x.device_id
  flags : FlagsUp s.client.session o

section

variable {s : System} {e : Event} {o : Option String}

/-- What an event tells the plugin, and what becomes of the session state. -/
inductive Told (s : System) (e : Event) : Prop
  | quiet (hraises : s.raises e = none) (hlowers : s.lowers e = false)
    (hsession : (s.step e).client.session = s.client.session)
  | connected (w : WorkerId) (x : Worker) (he : e = .worker w .report)
    (hx : s.client.workers[w]? = some x)
    (hcallbacks : (s.step e).client.callbacks = s.client.callbacks ++ [.connected x.device_id])
    (hsession : (s.step e).client.session = s.client.session.mark_connected x.device_id)
  | disconnected (d : String) (status : Int) (message : String) (hd : s.announces e = some d)
    (hcallbacks : (s.step e).client.callbacks =
      s.client.callbacks ++ [.disconnected d status message])
    (hprogress : (s.step e).client.session.connect_in_progress_ = false)
    (hconnected : (s.step e).client.session.printer_connected_ = false)
  | asked (call : session_state.Call) (he : e = .plugin call)
    (hcallbacks : (s.step e).client.callbacks = s.client.callbacks)

theorem told_advance (c : CallId) : Told s (.advance c) := by
  cases hpoint : s.calls c with
  | none =>
    refine .quiet rfl (by simp [System.lowers, System.announces, hpoint]) ?_
    simp [System.step, hpoint]
  | some point =>
    have hstep : s.step (.advance c) = s.advance c point := by simp [System.step, hpoint]
    cases point with
    | emit d =>
      refine .disconnected d 2 "Disconnected" (by simp [System.announces, hpoint]) ?_ ?_ ?_
      all_goals
        rw [hstep]
        rfl
    | take caller =>
      refine .quiet rfl (by simp [System.lowers, System.announces, hpoint]) ?_
      rw [hstep, System.advance]
      split <;> rfl
    | forget a caller =>
      refine .quiet rfl (by simp [System.lowers, System.announces, hpoint]) ?_
      rw [hstep]
      exact Client.takeCurrent_session s.client a.device_id
    | drop_current d =>
      refine .quiet rfl (by simp [System.lowers, System.announces, hpoint]) ?_
      rw [hstep]
      exact Client.takeCurrent_session s.client d
    | _ =>
      refine .quiet rfl (by simp [System.lowers, System.announces, hpoint]) ?_
      rw [hstep]
      rfl

theorem told_worker (w : WorkerId) (t : WorkerStep) : Told s (.worker w t) := by
  cases hx : s.client.workers[w]? with
  | none =>
    refine .quiet ?_ ?_ (by simp [System.step, hx])
    · cases t <;> simp [System.raises, hx]
    · cases t <;> simp [System.lowers, System.announces, hx]
  | some x =>
    have hstep : s.step (.worker w t) = s.worker w x t := by simp [System.step, hx]
    cases t with
    | report => exact .connected w x rfl hx (by rw [hstep]; rfl) (by rw [hstep]; rfl)
    | emit =>
      by_cases hphase : ∃ status message, x.phase = .emitting status message
      · obtain ⟨status, message, hphase⟩ := hphase
        refine .disconnected x.device_id status message ?_ ?_ ?_ ?_
        · simp [System.announces, hx, hphase]
        all_goals
          rw [hstep]
          simp only [System.worker, Client.act, Client.announce, hphase, effect_emit]
          rfl
      · have hsilent : s.announces (.worker w .emit) = none := by
          cases hp : x.phase with
          | emitting status message => exact absurd ⟨status, message, hp⟩ hphase
          | _ => simp [System.announces, hx, hp]
        refine .quiet rfl (by simp [System.lowers, hsilent]) ?_
        rw [hstep]
        simp only [System.worker, Client.act, Client.announce]
        split
        · rename_i status message h
          exact absurd ⟨status, message, h⟩ hphase
        · rfl
    | receive item =>
      refine .quiet rfl rfl ?_
      rw [hstep]
      simp only [System.worker, Client.act, Client.deliver]
      split
      · split <;> rfl
      · rfl
    | clear =>
      refine .quiet rfl rfl ?_
      rw [hstep, System.worker, System.beginClear]
      split <;> rfl
    | record =>
      refine .quiet rfl rfl ?_
      rw [hstep]
      simp [System.worker, Client.act, effect_record, Client.setWorker]
    | _ => exact .quiet rfl rfl (by rw [hstep]; rfl)

theorem told_step (s : System) (e : Event) : Told s e := by
  cases e with
  | advance c => exact told_advance c
  | worker w t => exact told_worker w t
  | plugin call => exact .asked call rfl rfl
  | clear_on =>
    refine .quiet rfl rfl ?_
    simp only [System.step]
    split
    · rename_i w point _
      split
      · cases point with
        | remove => rfl
        | forget => exact Client.takeCurrent_session s.client _
      · rfl
    · rfl
  | farm_reconnect c now =>
    refine .quiet rfl rfl ?_
    simp only [System.step]
    split <;> rfl
  | _ => exact .quiet rfl rfl rfl

/-- A disconnect comes to the sections before its callback by its look. -/
theorem reaches_tells {point : Point} {d : String} (h : s.reaches e = some point)
    (hd : point.tells = some d) :
    s.finds e = some d ∨ ∃ c p, s.calls c = some p ∧ p.tells = some d := by
  obtain ⟨c, p, rfl, hc, hnext⟩ | hopens := System.reaches_cases h
  · cases p with
    | look d' =>
      left
      simp only [System.next, Option.some.injEq] at hnext
      split at hnext
      · rename_i hactive
        subst hnext
        cases hd
        simp [System.finds, hc, hactive]
      · subst hnext
        cases hd
    | take caller =>
      right
      refine ⟨c, _, hc, ?_⟩
      simp only [System.next] at hnext
      split at hnext <;> cases hnext <;> cases caller <;> exact hd
    | remove a caller =>
      right
      refine ⟨c, _, hc, ?_⟩
      cases hnext
      cases caller <;> exact hd
    | forget a caller =>
      right
      refine ⟨c, _, hc, ?_⟩
      cases hnext
      cases caller <;> exact hd
    | insert d' password now =>
      cases hnext
      cases hd
    | drop d' =>
      cases hnext
      cases hd
    | _ => cases hnext
  · obtain ⟨d', rfl⟩ | ⟨d', password, now, rfl⟩ := hopens <;> cases hd

/-- A disconnect comes to its take by a look that found its device active. -/
theorem reaches_take {d : String} (h : s.reaches e = some (.take (.disconnect d))) :
    ∃ c, e = .advance c ∧ s.calls c = some (.look d) ∧
      s.client.ACTIVE_CONNECTION_STATE.map (·.device_id) = some d := by
  obtain ⟨c, p, rfl, hc, hnext⟩ | hopens := System.reaches_cases h
  · cases p with
    | look d' =>
      simp only [System.next, Option.some.injEq] at hnext
      split at hnext
      · rename_i hactive
        cases hnext
        exact ⟨c, rfl, hc, hactive⟩
      · cases hnext
    | take caller =>
      simp only [System.next] at hnext
      split at hnext
      · cases caller <;> cases hnext
      · cases hnext
    | forget a caller => cases caller <;> cases hnext
    | _ => cases hnext
  · obtain ⟨d', hpoint⟩ | ⟨d', password, now, hpoint⟩ := hopens <;> cases hpoint

/-- It comes to the removal of a sender with the connection that it has taken. -/
theorem reaches_remove {a : Active} {d : String} (h : s.reaches e = some (.remove a (.disconnect d))) :
    ∃ c, s.calls c = some (.take (.disconnect d)) ∧ s.client.ACTIVE_CONNECTION_STATE = some a := by
  obtain ⟨c, p, -, hc, hnext⟩ | hopens := System.reaches_cases h
  · refine ⟨c, ?_⟩
    cases p with
    | look d' =>
      simp only [System.next, Option.some.injEq] at hnext
      split at hnext <;> cases hnext
    | take caller =>
      simp only [System.next] at hnext
      split at hnext
      · cases caller <;> cases hnext
      · rename_i b hb
        cases hnext
        exact ⟨hc, hb⟩
    | forget b caller => cases caller <;> cases hnext
    | _ => cases hnext
  · obtain ⟨d', hpoint⟩ | ⟨d', password, now, hpoint⟩ := hopens <;> cases hpoint

/-- A worker comes to its callback by its check. -/
theorem tellsOf_next {x : Worker} {active : Bool} {t : WorkerStep}
    (h : tellsOf (x.next active t) = true) : tellsOf x = true ∨ (t = .check ∧ active = true) := by
  cases t with
  | check =>
    cases active with
    | true => exact .inr ⟨rfl, rfl⟩
    | false =>
      left
      simp only [Worker.next] at h
      split at h
      · cases h
      · exact h
  | receive item =>
    left
    simp only [Worker.next] at h
    split at h
    · rename_i failures _
      cases item with
      | message m =>
        cases hm : m.connected <;> simp [tellsOf, received, hm, loop_top] at h
      | failure => by_cases hf : failures + 1 > 3 <;> simp [tellsOf, received, loop_top, hf] at h
    · exact h
  | dial ok => cases ok <;> cases h
  | answer ok => cases ok <;> cases h
  | send_loop_ended => exact .inl h
  | _ => cases h

theorem upAfter_quiet (hraises : s.raises e = none) (hlowers : s.lowers e = false) :
    upAfter s o e = o := by
  simp [upAfter, hraises, hlowers]

/-- What leaves the flags alone may select what is up. -/
theorem FlagsUp.select {session session' : SessionState} (h : FlagsUp session o)
    (hprogress : session'.connect_in_progress_ = session.connect_in_progress_)
    (hconnected : session'.printer_connected_ = session.printer_connected_)
    (hselected : ∀ f ∈ o, f = session'.selected_device_) : FlagsUp session' o := by
  intro hflags
  rw [hprogress, hconnected] at hflags
  have hup := h hflags
  rw [hup]
  exact congrArg some (hselected _ hup)

theorem FlagsUp.same {session session' : SessionState} (h : FlagsUp session o)
    (hprogress : session'.connect_in_progress_ = session.connect_in_progress_)
    (hconnected : session'.printer_connected_ = session.printer_connected_)
    (hselected : session'.selected_device_ = session.selected_device_) : FlagsUp session' o := by
  unfold FlagsUp
  rwa [hprogress, hconnected, hselected]

theorem FlagsUp.plugin {call : Call} (h : FlagsUp s.client.session o) (hcall : isCallback call = false)
    (hselects : ∀ d ∈ Event.selects (.plugin call), ∀ f ∈ o, f = d) :
    FlagsUp (session_state.call s.client.session call).1 (upAfter s o (.plugin call)) := by
  generalize s.client.session = session at h
  cases call with
  | set_config_dir loaded =>
    rw [upAfter_quiet rfl (by simp [System.lowers, System.announces])]
    simp only [session_state.call, bambu_network_set_config_dir]
    split
    · exact h
    · rename_i hne
      exact h.select rfl rfl (hselects loaded (by simp [Event.selects, hne]))
  | set_user_selected_machine dev_id =>
    rw [upAfter_quiet rfl (by simp [System.lowers, System.announces])]
    exact h.select rfl rfl (hselects dev_id rfl)
  | connect_printer dev_id password =>
    simp only [session_state.call, connect_printer_state, upAfter, System.raises, Option.some_or]
    intro _
    rcases begin_connect_cases session dev_id with ⟨hr, hs⟩ | hs
    · rw [hs]
      have hrefused := mt (begin_connect_start_iff session dev_id).mpr hr
      rw [not_not] at hrefused
      rw [hrefused.1]
    · rw [hs]
  | disconnect_printer =>
    rw [upAfter_quiet rfl (by simp [System.lowers, System.announces])]
    simpa [session_state.call] using h
  | user_logout =>
    rintro (hflag | hflag) <;> cases hflag
  | cb_printer_available dev_id =>
    rw [upAfter_quiet rfl (by simp [System.lowers, System.announces])]
    obtain ⟨hselected, hconnected, hprogress⟩ := printer_available_state session dev_id
    exact h.same hprogress hconnected hselected
  | cb_connected dev_id => cases hcall
  | cb_disconnected dev_id status => cases hcall

/-- A device comes up as the plugin asks for it, or as its worker reports it. -/
theorem raises_cases {d : String} (h : s.raises e = some d) :
    (∃ password, e = .plugin (.connect_printer d password)) ∨ ∃ w, e = .worker w .report := by
  cases e with
  | plugin call =>
    cases call with
    | connect_printer dev_id password =>
      cases h
      exact .inl ⟨password, rfl⟩
    | _ => cases h
  | worker w t =>
    cases t with
    | report => exact .inr ⟨w, rfl⟩
    | _ => cases h
  | _ => cases h

theorem FlagsUp.step (h : FlagsUp s.client.session o) (hp : s.possible e = true)
    (hselects : ∀ d ∈ e.selects, ∀ f ∈ o, f = d) :
    FlagsUp (s.step e).client.session (upAfter s o e) := by
  cases told_step s e with
  | asked call he =>
    subst he
    exact h.plugin (by simpa [System.possible] using hp) hselects
  | connected w x he hx hcallbacks hsession =>
    subst he
    intro _
    rw [hsession, upAfter, System.raises, hx]
    rfl
  | disconnected d status message hd hcallbacks hprogress hconnected =>
    rintro (hflag | hflag)
    · rw [hprogress] at hflag
      cases hflag
    · rw [hconnected] at hflag
      cases hflag
  | quiet hraises hlowers hsession =>
    rw [hsession, upAfter_quiet hraises hlowers]
    exact h

/-- A device that is up after an event has come up with it, or was up. -/
theorem mem_upAfter {f : String} (h : f ∈ upAfter s o e) : s.raises e = some f ∨ f ∈ o := by
  unfold upAfter at h
  rw [Option.mem_def, Option.or_eq_some_iff] at h
  obtain hraises | ⟨-, hold⟩ := h
  · exact .inl hraises
  · split at hold
    · cases hold
    · exact .inr hold

/-- What one event keeps, when the overlaps are kept out. -/
theorem Attended.step (h : Attended s o) (hp : s.possible e = true) (he : Separate s o e) :
    Attended (s.step e) (upAfter s o e) where
  takes c d a hc ha := by
    rw [System.active_step] at ha
    obtain hold | ⟨hnew, -⟩ := System.calls_step hc
    · obtain ⟨c', b, rfl, hc', hb⟩ | hnone | hsame := System.activeAfter_cases s e
      · rw [hb, Option.some.injEq] at ha
        have hpublish := he.1 b (by simp [System.publishes, hc']) c _ hold
        have hd : d = b.device_id := by simpa [Point.takes] using hpublish
        rw [hd, ha]
      · rw [hnone] at ha
        cases ha
      · exact h.takes c d a hold (hsame ▸ ha)
    · obtain ⟨c', rfl, hc', hactive⟩ := reaches_take hnew
      simp only [System.activeAfter, hc'] at ha
      rw [ha] at hactive
      exact Option.some.inj hactive
  taken c a d hc := by
    obtain hold | ⟨hnew, -⟩ := System.calls_step hc
    · exact h.taken c a d hold
    · obtain ⟨c', hc', hactive⟩ := reaches_remove hnew
      exact h.takes c' d a hc' hactive
  calls c point d hc hd f hf := by
    obtain hraises | hf := mem_upAfter hf
    · obtain hold | ⟨hnew, -⟩ := System.calls_step hc
      · have hnot := (he.2.2.1 f hraises).1 c point hold
        have hdf : d = f := by simpa [hd] using hnot
        exact hdf.symm
      · obtain ⟨password, rfl⟩ | ⟨w, rfl⟩ := raises_cases hraises <;> cases hnew
    · obtain hold | ⟨hnew, -⟩ := System.calls_step hc
      · exact h.calls c point d hold hd f hf
      · obtain hfinds | ⟨c', p, hc', hp'⟩ := reaches_tells hnew hd
        · exact he.2.1 d hfinds f hf
        · exact h.calls c' p d hc' hp' f hf
  workers y hy htells f hf := by
    obtain ⟨w, hw⟩ := List.mem_iff_getElem?.mp hy
    have hold : ∀ x, s.client.workers[w]? = some x → tellsOf x = true → f = x.device_id := by
      intro x hx hx'
      have hmem := List.mem_of_getElem? hx
      obtain hraises | hf := mem_upAfter hf
      · exact ((he.2.2.1 f hraises).2 x hmem hx').symm
      · exact h.workers x hmem hx' f hf
    cases System.worker_step hw with
    | stays x hx hd hphase =>
      rw [hd]
      exact hold x hx (by rwa [tellsOf, ← hphase])
    | ends x hx hd hphase => simp [tellsOf, hphase] at htells
    | made hnone hphase => simp [tellsOf, hphase] at htells
    | steps x hx t ht hy' =>
      rw [hy', next_device_id]
      obtain hx' | ⟨rfl, hactive⟩ := tellsOf_next (hy' ▸ htells)
      · exact hold x hx hx'
      · subst ht
        obtain hraises | hf := mem_upAfter hf
        · cases hraises
        · exact he.2.1 x.device_id (by simp [System.finds, hx, hactive]) f hf
  flags := h.flags.step hp he.2.2.2

/-- What is told of as disconnected is up, if anything is. -/
theorem Attended.announced (h : Attended s o) {d : String} (hd : s.announces e = some d) :
    ∀ f ∈ o, f = d := by
  cases e with
  | advance c =>
    simp only [System.announces] at hd
    split at hd
    · rename_i d' hc
      cases hd
      exact h.calls c _ d hc rfl
    · cases hd
  | worker w t =>
    cases t with
    | emit =>
      simp only [System.announces] at hd
      split at hd
      · rename_i x hx
        split at hd
        · rename_i hphase
          cases hd
          exact h.workers x (List.mem_of_getElem? hx) (by simp [tellsOf, hphase])
        · cases hd
      · cases hd
    | _ => cases hd
  | _ => cases hd

theorem Attended.active_kept (h : Attended s o) {d : String} {a : Active}
    (hd : s.disconnects e = some d) (ha : s.client.ACTIVE_CONNECTION_STATE = some a)
    (hne : a.device_id ≠ d) : (s.step e).client.ACTIVE_CONNECTION_STATE = some a := by
  rw [System.active_step]
  cases e with
  | advance c =>
    obtain ⟨point, hc, hpoint⟩ := Option.bind_eq_some_iff.mp hd
    simp only [System.activeAfter, hc]
    cases point with
    | take caller =>
      cases caller with
      | connect device_id password now => cases hpoint
      | disconnect d' =>
        cases hpoint
        exact absurd (h.takes c d a hc ha) hne
    | publish b => cases hpoint
    | _ => exact ha
  | _ => cases hd

theorem Attended.sender_kept (h : Attended s o) {d d' : String} {w : WorkerId}
    (hd : s.disconnects e = some d) (hne : d' ≠ d) (hw : s.client.MSG_TX d' = some w) :
    (s.step e).client.MSG_TX d' = some w := by
  rw [System.tx_step]
  cases e with
  | advance c =>
    obtain ⟨point, hc, hpoint⟩ := Option.bind_eq_some_iff.mp hd
    simp only [System.removes, System.inserts, hc]
    cases point with
    | remove a caller =>
      cases caller with
      | connect device_id password now => cases hpoint
      | disconnect d₀ =>
        cases hpoint
        simp [h.taken c a d hc, hne.symm, hw]
    | drop d₀ =>
      cases hpoint
      simp [hne.symm, hw]
    | insert device_id password now => cases hpoint
    | _ => simpa using hw
  | _ => cases hd

theorem Attended.flags_kept (h : Attended s o) {d : String} {status : Int} {message : String}
    (hcb : (s.step e).client.callbacks = s.client.callbacks ++ [.disconnected d status message])
    (hne : s.client.session.selected_device_ ≠ d) :
    (s.step e).client.session.connect_in_progress_ = s.client.session.connect_in_progress_ ∧
      (s.step e).client.session.printer_connected_ = s.client.session.printer_connected_ := by
  cases told_step s e with
  | quiet hraises hlowers hsession =>
    rw [hsession]
    exact ⟨rfl, rfl⟩
  | connected w x he hx hcallbacks hsession =>
    rw [hcallbacks] at hcb
    cases List.append_cancel_left hcb
  | disconnected d' status' message' hd hcallbacks hprogress hconnected =>
    rw [hcallbacks] at hcb
    cases List.append_cancel_left hcb
    -- with another device selected no flag was set
    have hdown : ¬ (s.client.session.connect_in_progress_ = true ∨
        s.client.session.printer_connected_ = true) := by
      intro hflags
      exact hne (h.announced hd _ (h.flags hflags))
    simp only [not_or, Bool.not_eq_true] at hdown
    rw [hprogress, hconnected, hdown.1, hdown.2]
    exact ⟨rfl, rfl⟩
  | asked call he hcallbacks =>
    rw [hcallbacks] at hcb
    simp at hcb

/-- Where takes and callbacks are attended to, a disconnect leaves other devices alone. -/
theorem Attended.isolated (h : Attended s o) (e : Event) : Isolated s e where
  active _ _ hd ha hne := h.active_kept hd ha hne
  sender _ _ _ hd hne hw := h.sender_kept hd hne hw
  flags _ _ _ hcb hne := h.flags_kept hcb hne

end

theorem up_snoc (es : List Event) (e : Event) :
    up (es ++ [e]) = upAfter (systemAfter es) (up es) e := by
  have hstate : ∀ es : List Event, (after (fun (p : System × Option String) e =>
      (p.1.step e, upAfter p.1 p.2 e)) ({}, none) es).1 = systemAfter es := by
    intro es
    induction es using List.reverseRecOn with
    | nil => rfl
    | append_singleton es e ih => simp [ih]
  simp [up, hstate]

theorem attended_of_separate (r : Run)
    (h : Steps (fun es e => Separate (systemAfter es) (up es) e) r.events) :
    Always (fun es => Attended (systemAfter es) (up es)) r.events := by
  refine always_of_steps ?_ (fun es e _ hes he => ?_) (r.possible.and h)
  · refine ⟨nofun, nofun, nofun, ?_, ?_⟩
    · intro x hx
      cases hx
    · rintro (hflag | hflag) <;> cases hflag
  · rw [systemAfter_snoc, up_snoc]
    exact hes.step he.1 he.2

/-- In a run that keeps the overlaps out, each section of a disconnect leaves the connections to
other devices alone, and each callback of a disconnect the flags of another selected device. -/
theorem disconnects_leave_other_devices_alone (r : Run)
    (h : Steps (fun es e => Separate (systemAfter es) (up es) e) r.events) :
    Steps (fun es e => Isolated (systemAfter es) e) r.events :=
  fun i hi => (attended_of_separate r h i (Nat.le_of_lt hi)).isolated _

/-- A printer is connected and disconnected while a disconnect of another one runs; then the
other one is selected and connected, and its worker loses the connection. -/
def separateRun : Run where
  events := [.plugin (.set_user_selected_machine "printer-a"),
    .plugin (.connect_printer "printer-a" ""), .connect 0 "printer-a" "" 1, .advance 0, .advance 0,
    .advance 0, .worker 0 (.dial true), .worker 0 (.answer true), .worker 0 .record,
    .worker 0 .report, .disconnect 1 "printer-a", .disconnect 2 "printer-b", .advance 1, .advance 2,
    .advance 1, .advance 1, .advance 2, .advance 1, .advance 1, .advance 2,
    .plugin (.set_user_selected_machine "printer-b"), .plugin (.connect_printer "printer-b" ""),
    .connect 3 "printer-b" "" 2, .advance 3, .advance 3, .advance 3, .worker 0 .canceled,
    .worker 0 .check, .worker 0 .clear, .worker 1 (.dial false), .worker 1 .check,
    .worker 1 .emit, .worker 1 .clear, .clear_on, .clear_on]
  possible := by decide

theorem a_disconnect_beside_another_takes_its_own :
    Steps (fun es e => Isolated (systemAfter es) e) separateRun.events :=
  disconnects_leave_other_devices_alone separateRun (by decide)

/-- A connect to another device comes between the look of a disconnect and its take. -/
def overtaken : Run where
  events := [.connect 0 "printer-a" "" 1, .advance 0, .advance 0, .advance 0,
    .disconnect 1 "printer-a", .advance 1,
    .connect 2 "printer-b" "" 2, .advance 2, .advance 2, .advance 2, .advance 2, .advance 2,
    .advance 1]
  possible := by decide

theorem a_disconnect_takes_the_connection_to_another_device :
    ¬ Steps (fun es e => Isolated (systemAfter es) e) overtaken.events := by
  intro h
  have hkept := (h 12 (by decide)).active "printer-a" ⟨"printer-b", 2, 1⟩ (by decide) (by decide)
    (by decide)
  revert hkept
  decide

end bambu_farm_client.connection_calls
