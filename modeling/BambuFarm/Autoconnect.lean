-- The two ways to a connect: the request of the user and the announcement of
-- the selected printer. The request looks at the flags of the session state;
-- the autoconnect looks at its own flag only and leaves the others alone. The
-- law here names the orders of calls that keep both of them away from a
-- connection that is live or on its way.
import BambuFarm.SessionDiscipline

open runs

namespace bambu_farm_client.session_state

/-! ## The connections that the calls tell of -/

/-- `live` is the device last reported connected and not disconnected since. `awaiting` is
the device of the last `bambu_network_rs_connect`, while its callback is still to come and
nothing has ended the attempt; `automatic` says whether an announcement issued it. `chosen`
says that a device was selected or loaded and no connect or logout came since. `aside` says
that since the last connect or connected callback the selection went to a device that does
not stand, or the user logged out. -/
structure Standing where
  live : Option String := none
  awaiting : Option String := none
  automatic : Bool := false
  chosen : Bool := false
  aside : Bool := false
  deriving DecidableEq

def Call.isAnnouncement : Call → Bool
  | .cb_printer_available _ => true
  | _ => false

namespace Standing

/-- The device is live or awaits its callback. -/
def Stands (g : Standing) (d : String) : Prop := g.live = some d ∨ g.awaiting = some d

instance (g : Standing) (d : String) : Decidable (g.Stands d) :=
  inferInstanceAs (Decidable (_ ∨ _))

/-- The device is connected no more, and waits for no connection. -/
def leave (g : Standing) (d : String) : Standing :=
  { g with live := g.live.filter (· ≠ d), awaiting := g.awaiting.filter (· ≠ d) }

def select (g : Standing) (d : String) : Standing :=
  { g with chosen := d ≠ "", aside := g.aside || !decide (g.Stands d) }

/-- A connect to a device tears down the connection to any other one. -/
def connect (g : Standing) (d : String) (automatic : Bool) : Standing where
  live := g.live.filter (· = d)
  awaiting := some d
  automatic := automatic

def afterEffect (c : Call) (g : Standing) : Effect → Standing
  | .rs_connect d _ => g.connect d c.isAnnouncement
  | .rs_disconnect d => g.leave d
  | _ => g

def afterCall (g : Standing) : Call → Standing
  | .set_config_dir loaded => if loaded = "" then g else g.select loaded
  | .set_user_selected_machine d => g.select d
  | .cb_connected d =>
    { g with live := some d, awaiting := g.awaiting.filter (· ≠ d), aside := false }
  | .cb_disconnected d _ => g.leave d
  | .user_logout => { g with awaiting := none, chosen := false, aside := true }
  | _ => g

end Standing

/-- The session state, with what its calls and their effects tell of the connections. -/
def follow (p : SessionState × Standing) (c : Call) : SessionState × Standing :=
  ((call p.1 c).1, (call p.1 c).2.foldl (Standing.afterEffect c) (p.2.afterCall c))

def standing (cs : List Call) : Standing := (after follow ({}, {}) cs).2

/-- The call issues no connect to a device that is live or awaits its callback. -/
def Undisturbed (cs : List Call) (c : Call) : Prop :=
  ∀ d password, .rs_connect d password ∈ (call (stateAfter cs) c).2 →
    (standing cs).live ≠ some d ∧ (standing cs).awaiting ≠ some d

/-! ## When a connect is issued -/

/-- The autoconnect to the device waits for its announcement. -/
def Armed (s : SessionState) (d : String) : Prop :=
  d ≠ "" ∧ s.selected_device_ = d ∧ s.auto_connect_pending_ = true

/-- The session state knows that the device is connected, or that a connect to it is on
its way. -/
def Tracks (s : SessionState) (d : String) : Prop :=
  s.selected_device_ = d ∧ (s.printer_connected_ = true ∨ s.connect_in_progress_ = true)

/-- A request is swallowed, or connects to a device that the session state has no track of. -/
theorem connect_printer_cases (s : SessionState) (d password : String) :
    bambu_network_connect_printer s d password = (s, []) ∨
      (¬ Tracks s d ∧ bambu_network_connect_printer s d password =
        (⟨d, false, false, true⟩, [.persist_selected_device d, .rs_connect d password])) := by
  have hstart := begin_connect_start_iff s d
  unfold bambu_network_connect_printer
  rcases begin_connect_cases s d with ⟨hr, hs⟩ | hs
  · left
    generalize s.begin_connect d = r at hr hs
    obtain ⟨r, s'⟩ := r
    subst hs
    cases r with
    | Start => exact absurd rfl hr
    | AlreadyConnected => rfl
    | AlreadyInProgress => rfl
  · rw [hs] at hstart ⊢
    exact .inr ⟨hstart.mp rfl, rfl⟩

/-- An announcement changes nothing, or is the one that the autoconnect waits for. -/
theorem printer_available_cases (s : SessionState) (d : String) :
    connect_selected_device_if_pending s d = (s, []) ∨
      (Armed s d ∧ connect_selected_device_if_pending s d =
        ({ s with auto_connect_pending_ := false }, [.dispatch_connected d, .rs_connect d ""])) := by
  unfold connect_selected_device_if_pending SessionState.claim_autoconnect_target
    SessionState.selected_device
  by_cases hsel : s.selected_device_ = "" ∨ d ≠ s.selected_device_
  · exact .inl (if_pos hsel)
  · rw [if_neg hsel]
    push Not at hsel
    obtain ⟨hne, rfl⟩ := hsel
    cases hp : s.auto_connect_pending_ with
    | false => simp
    | true => simp [Armed, hne, hp]

/-- Only a request and an announcement issue a connect. -/
theorem rs_connect_of_call {s : SessionState} {c : Call} {d password : String}
    (h : .rs_connect d password ∈ (call s c).2) :
    (∃ dev_id pw, c = .connect_printer dev_id pw) ∨ ∃ dev_id, c = .cb_printer_available dev_id := by
  cases c with
  | connect_printer dev_id pw => exact Or.inl ⟨dev_id, pw, rfl⟩
  | cb_printer_available dev_id => exact Or.inr ⟨dev_id, rfl⟩
  | disconnect_printer =>
    simp only [call, bambu_network_disconnect_printer] at h
    split_ifs at h <;> simp at h
  | user_logout =>
    simp only [call, bambu_network_user_logout] at h
    split_ifs at h <;> simp at h
  | set_user_selected_machine dev_id =>
    simp [call, bambu_network_set_user_selected_machine] at h
  | cb_connected dev_id => simp [call, bambu_network_cb_connected] at h
  | cb_disconnected dev_id status => simp [call, bambu_network_cb_disconnected] at h
  | set_config_dir loaded => simp [call] at h

/-! ## The order of the calls -/

/-- The order that the calls keep. No device is selected or loaded that is live or awaits its
callback. A connect to such a device is not requested while the connect that it awaits is one
of the autoconnect, or after the selection was moved off it. A connected callback comes while no
other device is awaited and no selection is left unused, and a disconnected callback for another
device comes only when no device stands. -/
def Orderly (g : Standing) : Call → Prop
  | .set_config_dir d => d ≠ "" → ¬ g.Stands d
  | .set_user_selected_machine d => d ≠ "" → ¬ g.Stands d
  | .connect_printer d _ => g.Stands d → g.aside = false ∧
      (g.awaiting = some d → g.automatic = false)
  | .cb_connected d => (∀ e ∈ g.awaiting, e = d) ∧ (d ≠ "" → g.chosen = false)
  | .cb_disconnected d _ => (∀ e ∈ g.live, e = d) ∧ ∀ e ∈ g.awaiting, e = d
  | _ => True

instance (g : Standing) : DecidablePred (Orderly g)
  | .set_config_dir _ => inferInstanceAs (Decidable (_ → _))
  | .set_user_selected_machine _ => inferInstanceAs (Decidable (_ → _))
  | .connect_printer _ _ => inferInstanceAs (Decidable (_ → _))
  | .cb_connected _ => inferInstanceAs (Decidable (_ ∧ _))
  | .cb_disconnected _ _ => inferInstanceAs (Decidable (_ ∧ _))
  | .disconnect_printer => .isTrue trivial
  | .user_logout => .isTrue trivial
  | .cb_printer_available _ => .isTrue trivial

/-- What such calls keep. At most one device stands. The autoconnect is armed for none that
does, and the session state has track of the one that stands, unless the autoconnect issued its
connect or the selection was moved off it. -/
structure Settled (s : SessionState) (g : Standing) : Prop where
  one : ∀ d e, g.Stands d → g.Stands e → d = e
  pending : s.auto_connect_pending_ = g.chosen
  armed : g.chosen = true → s.selected_device_ ≠ "" → ¬ g.Stands s.selected_device_
  tracked : ∀ d, g.Stands d → g.aside = false → (g.awaiting = some d → g.automatic = false) →
    Tracks s d

section

variable {s : SessionState} {g : Standing}

theorem stands_leave {d e : String} : (g.leave d).Stands e ↔ g.Stands e ∧ e ≠ d := by
  simp only [Standing.Stands, Standing.leave, Option.filter_eq_some_iff, decide_eq_true_eq]
  tauto

/-- Nothing but the device of a new connect stands, when that one did not stand before. -/
theorem stands_connect {d e : String} {automatic : Bool} (h : ¬ g.Stands d) :
    (g.connect d automatic).Stands e ↔ e = d := by
  have hlive : g.live.filter (· = d) = none := by
    rw [Option.filter_eq_none_iff]
    intro e' he'
    simp only [decide_eq_true_eq]
    rintro rfl
    exact h (.inl he')
  simp only [Standing.Stands, Standing.connect, hlive, reduceCtorEq, false_or, Option.some.injEq]
  exact eq_comm

namespace Settled

theorem leave (h : Settled s g) (d : String) : Settled s (g.leave d) where
  one e e' he he' := h.one e e' (stands_leave.mp he).1 (stands_leave.mp he').1
  pending := h.pending
  armed hc hs hst := h.armed hc hs (stands_leave.mp hst).1
  tracked e he ha hauto := by
    obtain ⟨hst, hne⟩ := stands_leave.mp he
    refine h.tracked e hst ha fun hawait => hauto ?_
    simp [Standing.leave, hawait, hne]

/-- A selection leaves the flags alone. -/
theorem select (h : Settled s g) {d : String} (hd : d ≠ "" → ¬ g.Stands d) :
    Settled { s with selected_device_ := d, auto_connect_pending_ := d ≠ "" } (g.select d) where
  one := h.one
  pending := rfl
  armed _ hs := hd hs
  tracked e he ha hauto := by
    simp only [Standing.select, Bool.or_eq_false_iff, Bool.not_eq_false', decide_eq_true_eq] at ha
    obtain ⟨haside, hst⟩ := ha
    obtain rfl := h.one e d he hst
    exact ⟨rfl, (h.tracked e he haside hauto).2⟩

/-- A connect to a device that did not stand. -/
theorem connect {s' : SessionState} {d : String} {automatic : Bool} (hd : ¬ g.Stands d)
    (hpending : s'.auto_connect_pending_ = false) (htracks : automatic = false → Tracks s' d) :
    Settled s' (g.connect d automatic) where
  one e e' he he' := by
    rw [stands_connect hd] at he he'
    rw [he, he']
  pending := hpending
  armed hc := by cases hc
  tracked e he _ hauto := by
    obtain rfl := (stands_connect hd).mp he
    exact htracks (hauto rfl)

theorem connected (h : Settled s g) {d : String} (hawait : ∀ e ∈ g.awaiting, e = d)
    (hchosen : d ≠ "" → g.chosen = false) :
    Settled (s.mark_connected d) (g.afterCall (.cb_connected d)) := by
  have hnone : g.awaiting.filter (· ≠ d) = none := by
    rw [Option.filter_eq_none_iff]
    intro e he
    simp [hawait e he]
  have hstands : ∀ e, (g.afterCall (.cb_connected d)).Stands e ↔ e = d := by
    intro e
    simp only [Standing.Stands, Standing.afterCall, hnone, Option.some.injEq, reduceCtorEq, or_false]
    exact eq_comm
  refine ⟨?_, h.pending, ?_, ?_⟩
  · intro e e' he he'
    rw [hstands] at he he'
    rw [he, he']
  · intro hc hs
    have hc' : g.chosen = true := hc
    rw [hchosen hs] at hc'
    cases hc'
  · intro e he _ _
    obtain rfl := (hstands e).mp he
    exact ⟨rfl, .inl rfl⟩

/-- With the callback of the device that stood nothing stands any more. -/
theorem disconnected (h : Settled s g) {d : String} (hlive : ∀ e ∈ g.live, e = d)
    (hawait : ∀ e ∈ g.awaiting, e = d) (failed : Bool) :
    Settled (s.mark_disconnected failed).2 (g.leave d) := by
  have hnone : ∀ e, ¬ (g.leave d).Stands e := by
    intro e he
    obtain ⟨hst, hne⟩ := stands_leave.mp he
    exact hne (hst.elim (hlive e) (hawait e))
  exact ⟨fun e _ he => absurd he (hnone e), h.pending, fun _ _ => hnone _,
    fun e he => absurd he (hnone e)⟩

theorem logged_out (h : Settled s g) :
    Settled s.clear_after_logout (g.afterCall .user_logout) := by
  have hstands : ∀ e, (g.afterCall .user_logout).Stands e → g.Stands e :=
    fun e he => he.elim .inl nofun
  exact ⟨fun d e hd he => h.one d e (hstands d hd) (hstands e he), rfl, nofun, fun _ _ => nofun⟩

/-- A request for a device that stands is refused, and any other one connects. -/
theorem requested (h : Settled s g) {d : String} (password : String)
    (hd : g.Stands d → g.aside = false ∧ (g.awaiting = some d → g.automatic = false)) :
    Settled (follow (s, g) (.connect_printer d password)).1
      (follow (s, g) (.connect_printer d password)).2 := by
  simp only [follow, call]
  rcases connect_printer_cases s d password with hs | ⟨hlost, hs⟩
  · rw [hs]
    exact h
  · rw [hs]
    exact connect (fun hst => hlost (h.tracked d hst (hd hst).1 (hd hst).2)) rfl
      fun _ => ⟨rfl, .inr rfl⟩

/-- The autoconnect is armed only for a device that does not stand. -/
theorem announced (h : Settled s g) (d : String) :
    Settled (follow (s, g) (.cb_printer_available d)).1
      (follow (s, g) (.cb_printer_available d)).2 := by
  simp only [follow, call]
  rcases printer_available_cases s d with hs | ⟨⟨hne, rfl, hp⟩, hs⟩
  · rw [hs]
    exact h
  · rw [hs]
    refine connect (h.armed (h.pending ▸ hp) hne) rfl fun hauto => ?_
    cases hauto

end Settled

/-- What orderly calls keep, one call after the other. -/
theorem settled_follow (h : Settled s g) {c : Call} (ho : Orderly g c) :
    Settled (follow (s, g) c).1 (follow (s, g) c).2 := by
  cases c with
  | set_config_dir loaded =>
    simp only [follow, call, bambu_network_set_config_dir, List.foldl_nil, Standing.afterCall]
    by_cases hl : loaded = ""
    · simpa [hl] using h
    · simpa [hl, SessionState.load_selected_device] using h.select ho
  | set_user_selected_machine d => exact h.select ho
  | connect_printer d password => exact h.requested password ho
  | disconnect_printer =>
    simp only [follow, call, bambu_network_disconnect_printer]
    split_ifs
    · exact h
    · exact h
    · exact h.leave _
  | user_logout =>
    simp only [follow, call, bambu_network_user_logout]
    split_ifs
    · exact h.logged_out
    · exact h.logged_out.leave _
  | cb_printer_available d => exact h.announced d
  | cb_connected d => exact h.connected ho.1 ho.2
  | cb_disconnected d status => exact h.disconnected ho.1 ho.2 (status = ConnectStatusFailed)

/-- Where things are settled, an orderly call disturbs nothing. -/
theorem Settled.undisturbed (h : Settled s g) {c : Call} (ho : Orderly g c) {d password : String}
    (hd : .rs_connect d password ∈ (call s c).2) : ¬ g.Stands d := by
  rcases rs_connect_of_call hd with ⟨dev_id, pw, rfl⟩ | ⟨dev_id, rfl⟩
  · rcases connect_printer_cases s dev_id pw with hs | ⟨hlost, hs⟩
    · simp [call, hs] at hd
    · obtain ⟨rfl, -⟩ : d = dev_id ∧ password = pw := by simpa [call, hs] using hd
      exact fun hst => hlost (h.tracked d hst (ho hst).1 (ho hst).2)
  · rcases printer_available_cases s dev_id with hs | ⟨⟨hne, rfl, hp⟩, hs⟩
    · simp [call, hs] at hd
    · obtain ⟨rfl, -⟩ : d = s.selected_device_ ∧ password = "" := by simpa [call, hs] using hd
      exact h.armed (h.pending ▸ hp) hne

end

/-! ## The law -/

theorem follow_state (cs : List Call) : (after follow ({}, {}) cs).1 = stateAfter cs := by
  unfold stateAfter
  induction cs using List.reverseRecOn with
  | nil => rfl
  | append_singleton cs c ih => simp [follow, ih]

theorem follow_eq (cs : List Call) :
    after follow ({}, {}) cs = (stateAfter cs, standing cs) :=
  Prod.ext (follow_state cs) rfl

theorem settled_start : Settled {} {} where
  one d e hd := by simp [Standing.Stands] at hd
  pending := rfl
  armed := nofun
  tracked d hd := by simp [Standing.Stands] at hd

theorem settled_of_orderly {cs : List Call} (h : Steps (fun pre c => Orderly (standing pre) c) cs) :
    Always (fun pre => Settled (stateAfter pre) (standing pre)) cs := by
  refine always_of_steps settled_start (fun pre c _ hpre hc => ?_) h
  have hnext := settled_follow hpre hc
  rwa [← follow_eq pre, ← after_snoc follow, follow_eq] at hnext

/-- In a run of orderly calls no connect, neither one of a request nor one of an announcement,
is issued to a device that is live or awaits its callback. -/
theorem no_connect_disturbs_a_standing_connection (cs : List Call)
    (h : Steps (fun pre c => Orderly (standing pre) c) cs) : Steps Undisturbed cs := by
  have hsettled := settled_of_orderly h
  intro i hi d password hd
  have hnot := (hsettled i (by omega)).undisturbed (h i hi) hd
  exact ⟨fun hl => hnot (.inl hl), fun ha => hnot (.inr ha)⟩

/-- The selected printer is connected for its announcement, announced and requested again,
disconnected and connected once more; then the user selects another one, which is connected
for its announcement. -/
theorem a_day_with_two_printers_disturbs_nothing :
    Steps Undisturbed [.set_config_dir "printer-a", .cb_printer_available "printer-a",
      .cb_printer_available "printer-a", .cb_connected "printer-a",
      .cb_printer_available "printer-a", .connect_printer "printer-a" "", .disconnect_printer,
      .cb_disconnected "printer-a" 0, .connect_printer "printer-a" "",
      .connect_printer "printer-a" "", .cb_connected "printer-a",
      .set_user_selected_machine "printer-b", .cb_printer_available "printer-b",
      .cb_connected "printer-b", .user_logout, .connect_printer "printer-a" ""] :=
  no_connect_disturbs_a_standing_connection _ (by decide)

/-- The user selects the printer that is connected already, and the next announcement
connects to it anew. -/
theorem a_second_selection_reconnects_a_live_printer :
    ¬ Steps Undisturbed [.set_user_selected_machine "printer-a", .cb_printer_available "printer-a",
      .cb_connected "printer-a", .set_user_selected_machine "printer-a",
      .cb_printer_available "printer-a"] := by
  intro h
  have hissued := (h 4 (by simp) "printer-a" "" (by decide)).1
  exact hissued (by decide)

end bambu_farm_client.session_state
