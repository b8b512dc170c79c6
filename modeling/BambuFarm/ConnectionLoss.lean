-- The loss of a connection. A worker that ends while its attempt stands has
-- announced the disconnect, except when its receive loop ran out of failures:
-- four in a row end the loop in silence, and the session state stays connected.
import BambuFarm.ConnectionWorker

open runs bambu_farm
open bambu_farm_client.session_state

namespace bambu_farm_client.connection

/-! ## The law -/

/-- The failures in a row at the end of what the worker has received. -/
def failuresInARow (es : List Event) (w : WorkerId) : Nat :=
  after (fun n e => match e with
    | .worker v (.receive .failure) => if v = w then n + 1 else n
    | .worker v (.receive (.message _)) => if v = w then 0 else n
    | _ => n) 0 es

/-- The worker of the device has reported a success and called
`bambu_network_cb_disconnected` since, and its end leaves the session state not connected,
unless a worker has reported a success after that call. -/
def LossAnnounced (es : List Event) (w : WorkerId) (device_id : String) : Prop :=
  ∃ before since, es = before ++ .worker w .emit :: since ∧ .worker w .report ∈ before ∧
    (∃ status message, (clientAfter (before ++ [.worker w .emit])).callbacks =
      (clientAfter before).callbacks ++ [.disconnected device_id status message]) ∧
    ((∀ v, .worker v .report ∉ since) →
      (clientAfter (es ++ [.worker w .clear])).session.printer_connected_ = false)

/-- A worker that has reported a success and ends while it is the active one has announced
the loss. -/
def AnnouncesLoss (es : List Event) : Event → Prop
  | .worker w .clear => ∀ x, (clientAfter es).workers[w]? = some x → .worker w .report ∈ es →
      (clientAfter es).isActive x.device_id x.generation = true → LossAnnounced es w x.device_id
  | _ => True

/-- A worker whose stream has failed four times in a row ends only after its attempt was
superseded or disconnected. -/
def WithinBudget (es : List Event) : Event → Prop
  | .worker w .clear => 4 ≤ failuresInARow es w → ¬ Stands es w
  | _ => True

/-! ## The history of a worker -/

theorem failuresInARow_other {es : List Event} {e : Event} {w : WorkerId}
    (h : ∀ item, e ≠ .worker w (.receive item)) :
    failuresInARow (es ++ [e]) w = failuresInARow es w := by
  simp only [failuresInARow, after_snoc]
  split
  · rename_i v
    rw [if_neg]
    rintro rfl
    exact h _ rfl
  · rename_i v m
    rw [if_neg]
    rintro rfl
    exact h _ rfl
  · rfl

@[simp] theorem failuresInARow_failure (es : List Event) (w : WorkerId) :
    failuresInARow (es ++ [.worker w (.receive .failure)]) w = failuresInARow es w + 1 := by
  simp [failuresInARow]

@[simp] theorem failuresInARow_message (es : List Event) (w : WorkerId) (m : RecvMessage) :
    failuresInARow (es ++ [.worker w (.receive (.message m))]) w = 0 := by
  simp [failuresInARow]

theorem failuresInARow_none {es : List Event} {w : WorkerId} (h : ∀ s, .worker w s ∉ es) :
    failuresInARow es w = 0 := by
  induction es using List.reverseRecOn with
  | nil => rfl
  | append_singleton es e ih =>
    rw [failuresInARow_other]
    · exact ih fun s hs => h s (List.mem_append_left _ hs)
    · rintro item rfl
      exact h (.receive item) (by simp)

/-- The worker has emitted the disconnect event after it reported its success. -/
def Announced (es : List Event) (w : WorkerId) : Prop :=
  ∃ before since, es = before ++ .worker w .emit :: since ∧ .worker w .report ∈ before

/-- How a worker got to its end: with its failures spent, or with its loss announced, or
after its attempt has ended. -/
def Exited (es : List Event) (w : WorkerId) : Prop :=
  (.worker w .report ∈ es ∧ .worker w .emit ∉ es ∧ failuresInARow es w = 4) ∨
    (failuresInARow es w ≤ 3 ∧ (.worker w .report ∈ es → Announced es w ∨ ¬ Stands es w))

/-- What the events say of a worker in each phase. -/
def Fits (es : List Event) (w : WorkerId) : Phase → Prop
  | .receiving n => .worker w .report ∈ es ∧ .worker w .emit ∉ es ∧ failuresInARow es w = n ∧ n ≤ 3
  | .checking _ _ => .worker w .emit ∉ es ∧ failuresInARow es w ≤ 3
  | .emitting _ _ => .worker w .emit ∉ es ∧ failuresInARow es w ≤ 3
  | .clearing => Exited es w
  | .done => True
  | _ => .worker w .report ∉ es ∧ .worker w .emit ∉ es ∧ failuresInARow es w = 0

theorem stands_of_stands_step {es : List Event} {e : Event} (hg : Good es) {w : WorkerId}
    {x : Worker} (hx : (clientAfter es).workers[w]? = some x) (h : Stands (es ++ [e]) w) :
    Stands es w := by
  obtain ⟨a, ha, haw⟩ := h
  rw [attempt_step_eq hg] at ha
  rcases activeAfter_cases ha with hold | ⟨d, password, now, -, rfl⟩
  · exact ⟨a, hg.active ▸ hold, haw⟩
  · have hlt := (List.getElem?_eq_some_iff.mp hx).1
    exact absurd haw (Nat.ne_of_gt hlt)

theorem Announced.snoc {es : List Event} {w : WorkerId} (h : Announced es w) (e : Event) :
    Announced (es ++ [e]) w := by
  obtain ⟨before, since, rfl, hr⟩ := h
  exact ⟨before, since ++ [e], by simp, hr⟩

/-- An event that is no report, no receipt and no emit of the worker says nothing new of it. -/
theorem Fits.snoc {es : List Event} {e : Event} (hg : Good es) {w : WorkerId} {x : Worker}
    (hx : (clientAfter es).workers[w]? = some x) (hr : e ≠ .worker w .report)
    (he : e ≠ .worker w .emit) (hi : ∀ item, e ≠ .worker w (.receive item)) {p : Phase}
    (h : Fits es w p) : Fits (es ++ [e]) w p := by
  have hmr : .worker w .report ∈ es ++ [e] ↔ .worker w .report ∈ es := by
    simp [Ne.symm hr]
  have hme : .worker w .emit ∈ es ++ [e] ↔ .worker w .emit ∈ es := by
    simp [Ne.symm he]
  have hf : failuresInARow (es ++ [e]) w = failuresInARow es w := failuresInARow_other hi
  cases p with
  | clearing =>
    simp only [Fits, Exited, hmr, hme, hf] at h ⊢
    rcases h with h | ⟨hn, h⟩
    · exact Or.inl h
    · refine Or.inr ⟨hn, fun hrep => ?_⟩
      rcases h hrep with ha | hs
      · exact Or.inl (ha.snoc e)
      · exact Or.inr fun hs' => hs (stands_of_stands_step hg hx hs')
  | done => trivial
  | _ => simpa only [Fits, hmr, hme, hf] using h

/-- What the events so far say of each worker. -/
structure History (es : List Event) : Prop where
  known : ∀ w s, .worker w s ∈ es → w < (clientAfter es).workers.length
  fits : ∀ (w : WorkerId) (x : Worker), (clientAfter es).workers[w]? = some x → Fits es w x.phase

theorem fits_receive {es : List Event} {w : WorkerId} {n : Nat} (h : Fits es w (.receiving n))
    (item : Item) : Fits (es ++ [.worker w (.receive item)]) w (received n item) := by
  obtain ⟨hr, he, hf, hn⟩ := h
  cases item with
  | message m =>
    simp only [received, loop_top]
    split
    · simp [Fits, hr, he]
    · simp [Fits, he]
  | failure =>
    simp only [received, loop_top]
    split
    · left
      refine ⟨by simp [hr], by simp [he], ?_⟩
      rw [failuresInARow_failure, hf]
      omega
    · simp [Fits, hr, he, hf]
      omega

/-- A worker fits its history after each step of its own. -/
theorem fits_own_step {es : List Event} (hg : Good es) {w : WorkerId} {x : Worker}
    (hx : (clientAfter es).workers[w]? = some x) (h : Fits es w x.phase) {s : WorkerStep}
    (hs : x.ready s = true) :
    Fits (es ++ [.worker w s]) w
      (x.next ((clientAfter es).isActive x.device_id x.generation) s).phase := by
  have hsnoc : s ≠ .report → s ≠ .emit → (∀ item, s ≠ .receive item) →
      ∀ {p}, Fits es w p → Fits (es ++ [.worker w s]) w p := fun h1 h2 h3 _ hp =>
    hp.snoc hg hx (by simpa using h1) (by simpa using h2) (by simpa using h3)
  cases s with
  | dial ok =>
    have hp : x.phase = .dialing := by simpa [Worker.ready] using hs
    rw [hp] at h
    apply hsnoc (by simp) (by simp) (by simp)
    cases ok with
    | true => exact h
    | false => exact ⟨h.2.1, by rw [h.2.2]; omega⟩
  | answer ok =>
    have hp : x.phase = .calling := by simpa [Worker.ready] using hs
    rw [hp] at h
    apply hsnoc (by simp) (by simp) (by simp)
    cases ok with
    | true => exact h
    | false => exact ⟨h.2.1, by rw [h.2.2]; omega⟩
  | record =>
    have hp : x.phase = .answered := by simpa [Worker.ready] using hs
    rw [hp] at h
    exact hsnoc (by simp) (by simp) (by simp) (p := .recorded) h
  | report =>
    have hp : x.phase = .recorded := by simpa [Worker.ready] using hs
    rw [hp] at h
    refine ⟨by simp, by simp [h.2.1], ?_, by omega⟩
    rw [failuresInARow_other (by simp)]
    exact h.2.2
  | receive item =>
    cases hp : x.phase with
    | receiving n =>
      rw [hp] at h
      simpa only [Worker.next, hp] using fits_receive h item
    | _ => simp [Worker.ready, hp] at hs
  | canceled =>
    cases hp : x.phase with
    | receiving n =>
      rw [hp] at h
      obtain ⟨-, he, hf, hn⟩ := h
      exact hsnoc (by simp) (by simp) (by simp) (p := .checking 2 "Disconnected")
        ⟨he, hf ▸ hn⟩
    | _ => simp [Worker.ready, hp] at hs
  | check =>
    cases hp : x.phase with
    | checking status message =>
      rw [hp] at h
      simp only [Worker.next, hp]
      apply hsnoc (by simp) (by simp) (by simp)
      split
      · exact h
      · rename_i hact
        rw [hg.isActive_iff hx] at hact
        exact Or.inr ⟨h.2, fun _ => Or.inr hact⟩
    | _ => simp [Worker.ready, hp] at hs
  | emit =>
    cases hp : x.phase with
    | emitting status message =>
      rw [hp] at h
      refine Or.inr ⟨?_, fun hr => Or.inl ⟨es, [], rfl, by simpa using hr⟩⟩
      rw [failuresInARow_other (by simp)]
      exact h.2
    | _ => simp [Worker.ready, hp] at hs
  | clear => trivial
  | send_loop_ended => exact hsnoc (by simp) (by simp) (by simp) h

theorem history_start : History [] where
  known := by simp
  fits := by
    intro w x hx
    simp [clientAfter] at hx

/-- A worker that a connect has just spawned has no history. -/
theorem fits_spawned {es : List Event} (h : History es) (d password : String) (now : Generation) :
    Fits (es ++ [.connect d password now]) (clientAfter es).workers.length .dialing := by
  have hnone : ∀ s, .worker (clientAfter es).workers.length s ∉ es := fun s hs =>
    Nat.lt_irrefl _ (h.known _ s hs)
  refine ⟨by simp [hnone], by simp [hnone], ?_⟩
  rw [failuresInARow_other (by simp)]
  exact failuresInARow_none hnone

theorem history_step {es : List Event} {e : Event} (hg : Good es) (hp : Possible es e = true)
    (h : History es) : History (es ++ [e]) where
  known := by
    intro w s hs
    rw [clientAfter_snoc, workers_length_step]
    rcases List.mem_append.mp hs with hs | hs
    · have := h.known w s hs
      omega
    · rw [List.mem_singleton] at hs
      subst hs
      obtain ⟨x, hx, -⟩ := Option.any_eq_true _ _ |>.mp hp
      have := (List.getElem?_eq_some_iff.mp hx).1
      omega
  fits := by
    intro w x' hx'
    rw [clientAfter_snoc] at hx'
    rcases worker_came hx' with ⟨x, hx, -, -⟩ | ⟨d, password, now, rfl, rfl, rfl⟩
    · by_cases he : ∃ s, e = .worker w s
      · obtain ⟨s, rfl⟩ := he
        obtain ⟨y, hy, hready⟩ := Option.any_eq_true _ _ |>.mp hp
        rw [hx, Option.some.injEq] at hy
        subst hy
        rw [own_step hx s, Option.some.injEq] at hx'
        subst hx'
        exact fits_own_step hg hx (h.fits w x hx) hready
      · push Not at he
        have hphase : x'.phase = x.phase := by
          rcases other_step hx he with h' | h' <;>
          · rw [hx', Option.some.injEq] at h'
            rw [h']
        rw [hphase]
        exact (h.fits w x hx).snoc hg hx (he _) (he _) (fun _ => he _)
    · exact fits_spawned h d password now

theorem history_of_possible {es : List Event}
    (h : Steps (fun es e => Possible es e = true) es) : History es :=
  (always_of_steps history_start
    (fun _ _ hes hh hp => history_step (good_of_possible hes) hp hh) h).last

/-! ## After the disconnect event -/

theorem disconnect_session (c : Client) (d : String) (h : c.session.printer_connected_ = false) :
    (c.disconnect d).session.printer_connected_ = false := by
  unfold Client.disconnect
  split
  · rfl
  · simpa [Client.removeTx] using h

/-- Without a report the session state stays as unconnected as it is. -/
theorem session_step {c : Client} {e : Event} (h : c.session.printer_connected_ = false)
    (he : ∀ w, e ≠ .worker w .report) (hp : ∀ call, e = .plugin call → isCallback call = false) :
    (step c e).session.printer_connected_ = false := by
  cases e with
  | connect d password now =>
    rw [step_connect]
    simpa [Client.connect, Client.startConnection, Client.disconnectActive_session] using h
  | disconnect d =>
    rw [step_disconnect]
    exact disconnect_session c d h
  | plugin call =>
    apply call_keeps_unconnected h
    rintro d rfl
    simpa [isCallback] using hp _ rfl
  | worker w s =>
    cases hx : c.workers[w]? with
    | none => simpa [step, hx] using h
    | some x =>
      rw [step_worker hx]
      simp only [Client.setWorker]
      cases s with
      | report => exact absurd rfl (he w)
      | receive item =>
        simp only [Client.act, Client.deliver]
        split
        · split <;> exact h
        · exact h
      | emit =>
        simp only [Client.act, Client.announce]
        split
        · rfl
        · exact h
      | clear =>
        simp only [Client.act, effect_clear, Client.clearActive]
        split
        · simpa [Client.removeTx] using h
        · exact h
      | _ => exact h

theorem session_run {pre since : List Event}
    (hL : Steps (fun es e => Possible es e = true) (pre ++ since))
    (hpre : (clientAfter pre).session.printer_connected_ = false)
    (hq : ∀ w, .worker w .report ∉ since) :
    (clientAfter (pre ++ since)).session.printer_connected_ = false := by
  induction since using List.reverseRecOn with
  | nil => simpa using hpre
  | append_singleton since e ih =>
    rw [← List.append_assoc, steps_snoc] at hL
    rw [← List.append_assoc, clientAfter_snoc]
    apply session_step
    · exact ih hL.1 fun w hw => hq w (List.mem_append_left _ hw)
    · rintro w rfl
      exact hq w (by simp)
    · rintro call rfl
      simpa [Possible] using hL.2

/-- A worker keeps its name to the end of the run. -/
theorem worker_kept_run {pre : List Event} {w : WorkerId} {x : Worker}
    (hx : (clientAfter pre).workers[w]? = some x) (post : List Event) :
    ∃ x', (clientAfter (pre ++ post)).workers[w]? = some x' ∧ x'.device_id = x.device_id := by
  induction post using List.reverseRecOn with
  | nil => exact ⟨x, by simpa using hx, rfl⟩
  | append_singleton post e ih =>
    obtain ⟨y, hy, hd⟩ := ih
    obtain ⟨y', hy', hd', -⟩ := worker_kept hy e
    refine ⟨y', ?_, hd'.trans hd⟩
    rwa [← List.append_assoc, clientAfter_snoc]

theorem emit_effect {es : List Event} {w : WorkerId}
    (hp : Possible es (.worker w .emit) = true) :
    ∃ x status message, (clientAfter es).workers[w]? = some x ∧
      (clientAfter (es ++ [.worker w .emit])).callbacks =
        (clientAfter es).callbacks ++ [.disconnected x.device_id status message] ∧
      (clientAfter (es ++ [.worker w .emit])).session.printer_connected_ = false := by
  obtain ⟨x, hx, hready⟩ := Option.any_eq_true _ _ |>.mp hp
  cases hphase : x.phase with
  | emitting status message =>
    refine ⟨x, status, message, hx, ?_⟩
    rw [clientAfter_snoc, step_worker hx]
    simp only [Client.act, Client.announce, hphase, effect_emit]
    exact ⟨rfl, rfl⟩
  | _ => simp [Worker.ready, hphase] at hready

/-! ## Losses within the budget are announced -/

theorem Announced.lossAnnounced {es : List Event} {w : WorkerId} {x : Worker}
    (h : Announced es w) (hL : Steps (fun es e => Possible es e = true) es)
    (hp : Possible es (.worker w .clear) = true)
    (hx : (clientAfter es).workers[w]? = some x) : LossAnnounced es w x.device_id := by
  obtain ⟨before, since, rfl, hr⟩ := h
  obtain ⟨y, status, message, hy, hcb, hses⟩ := emit_effect (steps_split hL).2
  obtain ⟨x', hx', hd⟩ := worker_kept_run hy (.worker w .emit :: since)
  rw [hx, Option.some.injEq] at hx'
  subst hx'
  refine ⟨before, since, rfl, hr, ⟨status, message, by rw [hcb, hd]⟩, fun hq => ?_⟩
  have hall := (steps_snoc _ _ _).mpr ⟨hL, hp⟩
  have happ : before ++ .worker w .emit :: since ++ [.worker w .clear] =
      before ++ [.worker w .emit] ++ (since ++ [.worker w .clear]) := by simp
  rw [happ] at hall ⊢
  exact session_run hall hses fun v => by simp [hq v]

theorem announces_loss_iff {es : List Event} {e : Event}
    (hL : Steps (fun es e => Possible es e = true) es) (hp : Possible es e = true) :
    AnnouncesLoss es e ↔ WithinBudget es e := by
  by_cases he : ∃ w, e = .worker w .clear
  · obtain ⟨w, rfl⟩ := he
    have hg := good_of_possible hL
    obtain ⟨x, hx, hready⟩ := Option.any_eq_true _ _ |>.mp hp
    have hphase : x.phase = .clearing := by simpa [Worker.ready] using hready
    have hexit : Exited es w := by
      have := (history_of_possible hL).fits w x hx
      rwa [hphase] at this
    simp only [AnnouncesLoss, hx, Option.some.injEq, forall_eq', WithinBudget, hg.isActive_iff hx]
    constructor
    · intro h hf hs
      rcases hexit with ⟨hr, he, -⟩ | ⟨hn, -⟩
      · obtain ⟨before, since, rfl, -⟩ := h hr hs
        exact he (by simp)
      · omega
    · intro h hr hs
      rcases hexit with ⟨-, -, hf⟩ | ⟨-, ha⟩
      · exact absurd hs (h (by omega))
      · rcases ha hr with ha | hn
        · exact ha.lossAnnounced hL hp hx
        · exact absurd hs hn
  · push Not at he
    have hother : AnnouncesLoss es e ∧ WithinBudget es e := by
      cases e with
      | worker w s =>
        cases s with
        | clear => exact absurd rfl (he w)
        | _ => exact ⟨trivial, trivial⟩
      | _ => exact ⟨trivial, trivial⟩
    exact iff_of_true hother.1 hother.2

/-- Every loss of a reported connection is announced exactly when no worker whose stream
has failed four times in a row ends while its attempt stands. -/
theorem no_connection_is_lost_in_silence (r : Run) :
    Steps AnnouncesLoss r.events ↔ Steps WithinBudget r.events :=
  steps_congr (fun _ _ hes hp => announces_loss_iff hes hp) r.possible

/-- The stream of a connected printer fails four times in a row. -/
def stream_lost : Run where
  events := [.connect "printer-1" "" 1, .worker 0 (.dial true), .worker 0 (.answer true),
    .worker 0 .record, .worker 0 .report, .worker 0 (.receive .failure),
    .worker 0 (.receive .failure), .worker 0 (.receive .failure), .worker 0 (.receive .failure),
    .worker 0 .clear]
  possible := by decide

/-- The worker drops the connection and announces nothing. -/
theorem a_failing_stream_is_dropped_in_silence : ¬ Steps AnnouncesLoss stream_lost.events := by
  intro h
  obtain ⟨before, since, heq, -⟩ := h 9 (by decide) _ rfl (by decide) (by decide)
  have hmem : Event.worker 0 .emit ∈ stream_lost.events.take 9 := by
    rw [heq]
    simp
  revert hmem
  decide

end bambu_farm_client.connection
