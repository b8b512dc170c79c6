-- The sender of the active connection. The farm loop clears the senders of
-- connections that are active, and a call that is about to remove a sender may
-- remove the one that a newer connect has just inserted. Where the sections of
-- the calls keep out of each other's way, the active device has its sender.
import BambuFarm.ConnectionCalls

open runs bambu_farm
open bambu_farm_client.connection bambu_farm_client.session_state

namespace bambu_farm_client.connection_calls

/-! ## The law, and the order of the sections -/

/-- `bambu_network_rs_send` finds a sender for the device of the active connection. -/
def HasSender (s : System) : Prop :=
  ∀ a, s.client.ACTIVE_CONNECTION_STATE = some a → s.client.MSG_TX a.device_id ≠ none

/-- No operation is under way. -/
def Idle (s : System) : Prop := (∀ c, s.calls c = none) ∧ s.clearing = none

instance (es : List Event) : Decidable (Idle (systemAfter es)) :=
  inferInstanceAs (Decidable (_ ∧ _))

/-- The device whose sender the section inserts. -/
def Point.inserts : Point → Option String
  | .insert device_id _ _ => some device_id
  | _ => none

/-- The device whose sender is in and whose connection is not active yet. -/
def Point.enters : Point → Option String
  | .publish a => some a.device_id
  | _ => none

/-- The device whose sender the section removes. -/
def Point.removes : Point → Option String
  | .remove a _ => some a.device_id
  | .drop device_id => some device_id
  | _ => none

namespace System

variable (s : System)

/-- The device whose sender the worker under the guard removes next. -/
def clears : Option String :=
  match s.clearing with
  | some (w, .remove) => s.client.workers[w]?.map (·.device_id)
  | _ => none

/-- The device whose sender will be removed by the next section of the call, or of the worker,
that the event is a section of. -/
def closes : Event → Option String
  | .worker w .clear => s.client.workers[w]?.bind fun x =>
    if s.client.isActive x.device_id x.generation then some x.device_id else none
  | e => (s.reaches e).bind Point.removes

end System

/-- The order that the sections keep. The farm loop does not clear the senders between the
insert of a connect and the end of its connection. And between the section that leads to the
removal of a sender and the removal, no connect inserts a sender for that device, nor does such
a section come between the insert of a connect for the device and its publish. -/
def Spaced (s : System) (e : Event) : Prop :=
  (e = .farm_clear → s.client.ACTIVE_CONNECTION_STATE = none ∧
    s.NoCall fun point => point.enters.isSome) ∧
  (∀ d ∈ (s.point e).bind Point.inserts, s.clears ≠ some d ∧
    s.NoCall fun point => point.removes = some d) ∧
  ∀ d ∈ s.closes e, s.NoCall fun point => point.enters = some d

instance (es : List Event) : DecidablePred (Spaced (systemAfter es)) :=
  fun _ => inferInstanceAs (Decidable (_ ∧ _ ∧ _))

/-- The device has a sender, and nothing is about to remove it. -/
structure Safe (s : System) (d : String) : Prop where
  sender : s.client.MSG_TX d ≠ none
  calls : s.NoCall fun point => point.removes = some d
  clears : s.clears ≠ some d

/-- Safe are the devices of the active connection and of those that are about to be active. -/
structure Provided (s : System) : Prop where
  active : ∀ a, s.client.ACTIVE_CONNECTION_STATE = some a → Safe s a.device_id
  entering : ∀ c a, s.calls c = some (.publish a) → Safe s a.device_id
  clearing : ∀ w point, s.clearing = some (w, point) → w < s.client.workers.length

section

variable {s : System} {e : Event} {d : String}

/-- What is about to lose its sender is not active. -/
theorem closes_inactive (hcloses : s.closes e = some d) {a : Active}
    (ha : s.activeAfter e = some a) : a.device_id ≠ d := by
  cases e with
  | advance c =>
    simp only [System.closes, System.reaches, System.activeAfter] at hcloses ha
    cases hpoint : s.calls c with
    | none => simp [hpoint] at hcloses
    | some point =>
      rw [hpoint] at hcloses ha
      cases point with
      | look d' =>
        simp only [Option.bind_some, System.next] at hcloses
        split at hcloses
        · cases hcloses
        · rename_i hne
          rintro rfl
          cases hcloses
          exact hne (by rw [show s.client.ACTIVE_CONNECTION_STATE = some a from ha]; rfl)
      | take caller => cases ha
      | forget b caller => cases caller <;> cases hcloses
      | _ => cases hcloses
  | worker w t =>
    cases t with
    | clear =>
      simp only [System.closes] at hcloses
      obtain ⟨x, hx, hd⟩ := Option.bind_eq_some_iff.mp hcloses
      simp only [System.activeAfter, hx, Option.any_some] at ha
      split at hd
      · rename_i hactive
        simp [hactive] at ha
      · cases hd
    | _ => cases hcloses
  | farm_reconnect c now =>
    simp only [System.closes, System.reaches] at hcloses
    obtain ⟨point, hpoint, hd⟩ := Option.bind_eq_some_iff.mp hcloses
    obtain ⟨printer, -, rfl⟩ := Option.map_eq_some_iff.mp hpoint
    cases hd
  | _ => cases hcloses

/-- The worker under the guard is the one that was, or has just found itself active. -/
theorem clearing_step {w : WorkerId} {point : ClearPoint}
    (h : (s.step e).clearing = some (w, point)) :
    s.clearing = some (w, point) ∨ (point = .forget ∧ s.clearing = some (w, .remove)) ∨
      (e = .worker w .clear ∧ ∃ x, s.client.workers[w]? = some x ∧
        s.client.isActive x.device_id x.generation = true) := by
  cases e with
  | advance c =>
    left
    simp only [System.step] at h
    split at h
    · rename_i p _
      cases p with
      | take caller =>
        simp only [System.advance] at h
        split at h <;> exact h
      | _ => exact h
    · exact h
  | worker v t =>
    simp only [System.step] at h
    split at h
    · rename_i x hx
      cases t with
      | clear =>
        simp only [System.worker, System.beginClear] at h
        split at h
        · rename_i hactive
          cases h
          exact .inr (.inr ⟨rfl, x, hx, hactive⟩)
        · exact .inl h
      | _ => exact .inl h
    · exact .inl h
  | clear_on =>
    simp only [System.step] at h
    split at h
    · rename_i v p hclearing
      split at h
      · cases p with
        | remove =>
          cases h
          exact .inr (.inl ⟨rfl, hclearing⟩)
        | forget => cases h
      · exact .inl h
    · exact .inl h
  | farm_reconnect c now =>
    left
    simp only [System.step] at h
    split at h <;> exact h
  | _ => exact .inl h

/-- The sender that the worker under the guard removes next is the one that it would have
removed before, unless the worker has just begun. -/
theorem clears_step (hvalid : ∀ w point, s.clearing = some (w, point) → w < s.client.workers.length)
    (h : (s.step e).clears = some d) : s.clears = some d ∨ s.closes e = some d := by
  unfold System.clears at h
  split at h
  · rename_i w hclearing
    obtain ⟨y, hy, rfl⟩ := Option.map_eq_some_iff.mp h
    have hmoved := System.worker_step hy
    obtain hold | ⟨hforget, -⟩ | ⟨rfl, x, hx, hactive⟩ := clearing_step hclearing
    · obtain ⟨x, hx⟩ : ∃ x, s.client.workers[w]? = some x :=
        ⟨_, List.getElem?_eq_getElem (hvalid w _ hold)⟩
      exact .inl (by simp [System.clears, hold, hx, hmoved.device hx])
    · cases hforget
    · exact .inr (by rw [System.closes, hx, Option.bind_some, if_pos hactive, hmoved.device hx])
  · cases h

/-- A sender is removed by the farm loop, or by a section that was about to. -/
theorem removes_cases (h : s.removes d e = true) :
    e = .farm_clear ∨ (∃ c point, s.calls c = some point ∧ point.removes = some d) ∨
      s.clears = some d := by
  cases e with
  | advance c =>
    simp only [System.removes] at h
    split at h
    · rename_i a caller hc
      exact .inr (.inl ⟨c, _, hc, by simpa [Point.removes] using h⟩)
    · rename_i d' hc
      exact .inr (.inl ⟨c, _, hc, by simpa [Point.removes] using h⟩)
    · cases h
  | clear_on =>
    simp only [System.removes] at h
    split at h
    · rename_i w hclearing
      obtain ⟨x, hx, hd⟩ := (Option.any_eq_true _ _).mp h
      exact .inr (.inr (by simpa [System.clears, hclearing, hx] using hd))
    · cases h
  | farm_clear => exact .inl rfl
  | _ => cases h

/-- The event brings a call to the removal of a sender only as it closes in on it. -/
theorem reaches_removal {point : Point} (h : s.reaches e = some point)
    (hd : point.removes = some d) : s.closes e = some d := by
  cases e with
  | worker w t => cases h
  | _ => simp [System.closes, h, hd]

theorem Safe.step (h : Safe s d)
    (hvalid : ∀ w point, s.clearing = some (w, point) → w < s.client.workers.length)
    (hfarm : e ≠ .farm_clear) (hcloses : s.closes e ≠ some d) : Safe (s.step e) d where
  sender := by
    have hkeep : s.removes d e = false := by
      by_contra hremoves
      obtain hclear | ⟨c, point, hc, hd⟩ | hd := removes_cases (Bool.not_eq_false _ ▸ hremoves)
      · exact hfarm hclear
      · have := h.calls c point hc
        simp [hd] at this
      · exact h.clears hd
    rw [System.tx_step, hkeep]
    simp only [Bool.false_eq_true, if_false]
    split
    · simp
    · exact h.sender
  calls := h.calls.step fun point hpoint => by
    by_contra hd
    exact hcloses (reaches_removal hpoint (by simpa using hd))
  clears hd := (clears_step hvalid hd).elim h.clears hcloses

/-- A device is safe behind an insert that no removal overlaps. -/
theorem safe_insert {c : CallId} {password : String} {now : Generation}
    (hvalid : ∀ w point, s.clearing = some (w, point) → w < s.client.workers.length)
    (hc : s.calls c = some (.insert d password now)) (hclears : s.clears ≠ some d)
    (hcalls : s.NoCall fun point => point.removes = some d) : Safe (s.step (.advance c)) d where
  sender := by simp [System.tx_step, System.removes, System.inserts, hc]
  calls := hcalls.step fun point hpoint => by
    rw [System.reaches, hc] at hpoint
    cases hpoint
    rfl
  clears hd := by
    obtain hd | hd := clears_step hvalid hd
    · exact hclears hd
    · simp [System.closes, System.reaches, hc, System.next, Point.removes] at hd

/-- A call comes to its publish only behind its insert. -/
theorem reaches_publish {a : Active} (h : s.reaches e = some (.publish a)) :
    ∃ c password now, e = .advance c ∧ s.calls c = some (.insert a.device_id password now) := by
  obtain ⟨c, p, rfl, hc, hnext⟩ | ⟨d, hd⟩ | ⟨d, password, now, hd⟩ := System.reaches_cases h
  · refine ⟨c, ?_⟩
    cases p with
    | look d' =>
      simp only [System.next, Option.some.injEq] at hnext
      split at hnext <;> cases hnext
    | take caller =>
      simp only [System.next] at hnext
      split at hnext
      · cases caller <;> cases hnext
      · cases hnext
    | forget b caller => cases caller <;> cases hnext
    | insert d' password now =>
      cases hnext
      exact ⟨password, now, rfl, hc⟩
    | _ => cases hnext
  · cases hd
  · cases hd

/-- What one event keeps, when the sections keep their order. -/
theorem Provided.step (h : Provided s) (he : Spaced s e) : Provided (s.step e) where
  active a ha := by
    rw [System.active_step] at ha
    have hcloses : s.closes e ≠ some a.device_id := fun hd => closes_inactive hd ha rfl
    obtain ⟨c, b, rfl, hc, hb⟩ | hnone | hsame := System.activeAfter_cases s e
    · rw [hb, Option.some.injEq] at ha
      exact (h.entering c a (ha ▸ hc)).step h.clearing (by simp) hcloses
    · rw [hnone] at ha
      cases ha
    · rw [hsame] at ha
      refine (h.active a ha).step h.clearing ?_ hcloses
      intro hfarm
      rw [(he.1 hfarm).1] at ha
      cases ha
  entering c a hc := by
    obtain hold | ⟨hnew, -⟩ := System.calls_step hc
    · refine (h.entering c a hold).step h.clearing ?_ ?_
      · intro hfarm
        cases (he.1 hfarm).2 c _ hold
      · intro hd
        simpa [Point.enters] using he.2.2 _ hd c _ hold
    · obtain ⟨c', password, now, rfl, hc'⟩ := reaches_publish hnew
      obtain ⟨hclears, hcalls⟩ := he.2.1 a.device_id (by simp [System.point, hc', Point.inserts])
      exact safe_insert h.clearing hc' hclears hcalls
  clearing w point hclearing := by
    refine Nat.lt_of_lt_of_le ?_ System.workers_length_step
    obtain hold | ⟨-, hold⟩ | ⟨-, x, hx, -⟩ := clearing_step hclearing
    · exact h.clearing w point hold
    · exact h.clearing w _ hold
    · exact (List.getElem?_eq_some_iff.mp hx).1

end

theorem provided_of_spaced {es : List Event}
    (h : Steps (fun pre e => Spaced (systemAfter pre) e) es) :
    Always (fun pre => Provided (systemAfter pre)) es := by
  refine always_of_steps ⟨nofun, nofun, nofun⟩ (fun pre e _ hpre he => ?_) h
  rw [systemAfter_snoc]
  exact hpre.step he

/-- In a run whose sections keep their order the device of the active connection has a sender
at every point, between the operations as well as within them. -/
theorem the_active_device_has_a_sender (r : Run)
    (h : Steps (fun es e => Spaced (systemAfter es) e) r.events) :
    Always (fun es => HasSender (systemAfter es)) r.events :=
  (provided_of_spaced h).mono fun _ hes a ha => (hes.active a ha).sender

/-- The farm loop makes a pass, a printer is connected, and while it is disconnected a second
connect and a disconnect of a third printer come in between; then the farm is lost. -/
def spacedRun : Run where
  events := [.farm_clear, .connect 0 "printer-1" "" 1, .advance 0, .advance 0, .advance 0,
    .worker 0 (.dial true), .disconnect 1 "printer-1", .advance 1, .advance 1,
    .disconnect 2 "printer-3", .advance 2, .connect 0 "printer-2" "" 2, .advance 0, .advance 0,
    .advance 1, .advance 0, .advance 2, .advance 1, .advance 1, .worker 0 (.answer false),
    .worker 0 .check, .worker 0 .clear, .worker 1 (.dial false), .worker 1 .check,
    .worker 1 .emit, .worker 1 .clear, .clear_on, .clear_on, .advance 2, .farm_clear]
  possible := by decide

theorem an_overlapped_disconnect_takes_no_other_sender :
    Always (fun es => HasSender (systemAfter es)) spacedRun.events :=
  the_active_device_has_a_sender spacedRun (by decide)

/-- The farm is lost, and its loop starts over while a connection is active. -/
def farmLost : Run where
  events := [.connect 0 "printer-1" "" 1, .advance 0, .advance 0, .advance 0, .farm_clear]
  possible := by decide

/-- No operation is under way then, and the device of the active connection has no sender. -/
theorem a_farm_pass_drops_the_sender_of_an_active_device :
    ¬ Always (fun es => Idle (systemAfter es) → HasSender (systemAfter es)) farmLost.events := by
  intro h
  exact h.last (by decide) ⟨"printer-1", 1, 0⟩ (by decide) (by decide)

end bambu_farm_client.connection_calls
