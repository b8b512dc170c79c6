-- The session state of the plugin: the selected device and the three flags
-- around it, the entry points and callbacks that drive it, and when the
-- connected flag speaks of the selected device.
import BambuFarm.Runs

open runs

namespace bambu_farm_client.session_state

/-! ## The state and its operations -/

inductive ConnectBeginResult
  | Start
  | AlreadyConnected
  | AlreadyInProgress
  deriving DecidableEq

structure SessionState where
  selected_device_ : String := ""
  auto_connect_pending_ : Bool := false
  printer_connected_ : Bool := false
  connect_in_progress_ : Bool := false
  deriving DecidableEq

namespace SessionState

def load_selected_device (s : SessionState) (dev_id : String) : SessionState :=
  { s with selected_device_ := dev_id, auto_connect_pending_ := dev_id ≠ "" }

def set_user_selected_device (s : SessionState) (dev_id : String) : SessionState :=
  { s with selected_device_ := dev_id, auto_connect_pending_ := dev_id ≠ "" }

def selected_device (s : SessionState) : String := s.selected_device_

def has_connected_selected_device (s : SessionState) : Bool :=
  s.selected_device_ ≠ "" && s.printer_connected_

def connected_selected_device (s : SessionState) : String :=
  if s.selected_device_ = "" ∨ s.printer_connected_ = false then "" else s.selected_device_

def begin_connect (s : SessionState) (dev_id : String) : ConnectBeginResult × SessionState :=
  if s.selected_device_ = dev_id ∧ s.printer_connected_ = true then
    (.AlreadyConnected, s)
  else if s.selected_device_ = dev_id ∧ s.connect_in_progress_ = true then
    (.AlreadyInProgress, s)
  else
    (.Start, { selected_device_ := dev_id, auto_connect_pending_ := false,
               printer_connected_ := false, connect_in_progress_ := true })

def should_ignore_disconnect (s : SessionState) : Bool :=
  s.connect_in_progress_ && !s.printer_connected_

def disconnect_target (s : SessionState) : String := s.selected_device_

def mark_connected (s : SessionState) (dev_id : String) : SessionState :=
  { s with selected_device_ := dev_id, connect_in_progress_ := false, printer_connected_ := true }

/-- Whether the disconnect is announced, and the state after it. -/
def mark_disconnected (s : SessionState) (failed : Bool) : Bool × SessionState :=
  (s.printer_connected_ || failed,
    { s with connect_in_progress_ := false, printer_connected_ := false })

def claim_autoconnect_target (s : SessionState) (discovered_device_id : String) :
    String × SessionState :=
  if s.auto_connect_pending_ = false ∨ s.selected_device_ ≠ discovered_device_id then
    ("", s)
  else
    (s.selected_device_, { s with auto_connect_pending_ := false })

def clear_after_logout (_ : SessionState) : SessionState :=
  { selected_device_ := "", auto_connect_pending_ := false,
    printer_connected_ := false, connect_in_progress_ := false }

end SessionState

/-! ## The entry points of the plugin -/

def ConnectStatusFailed : Int := 1

/-- A call of the plugin or of a callback. `set_config_dir` carries the device that the
state file of the directory holds, or the empty text. `cb_printer_available` carries the
`dev_id` field of the announced printer. The callback that `bambu_network_rs_disconnect`
makes before it returns is a `cb_disconnected` of its own. -/
inductive Call
  | set_config_dir (loaded : String)
  | set_user_selected_machine (dev_id : String)
  | connect_printer (dev_id password : String)
  | disconnect_printer
  | user_logout
  | cb_printer_available (dev_id : String)
  | cb_connected (dev_id : String)
  | cb_disconnected (dev_id : String) (status : Int)
  deriving DecidableEq

/-- What a call asks of the rest of the plugin. -/
inductive Effect
  | persist_selected_device (dev_id : String)
  | rs_connect (dev_id password : String)
  | rs_disconnect (dev_id : String)
  | clear_local_print_context (dev_id : String)
  | dispatch_connected (dev_id : String)
  | dispatch_disconnected (dev_id : String) (status : Int) (announce : Bool)
  deriving DecidableEq

open SessionState

def bambu_network_set_config_dir (s : SessionState) (loaded : String) : SessionState :=
  if loaded = "" then s else s.load_selected_device loaded

def bambu_network_set_user_selected_machine (s : SessionState) (dev_id : String) :
    SessionState × List Effect :=
  (s.set_user_selected_device dev_id, [.persist_selected_device dev_id])

def bambu_network_connect_printer (s : SessionState) (dev_id password : String) :
    SessionState × List Effect :=
  match s.begin_connect dev_id with
  | (.AlreadyConnected, s') => (s', [])
  | (.AlreadyInProgress, s') => (s', [])
  | (.Start, s') =>
    (s', [.persist_selected_device s'.selected_device, .rs_connect dev_id password])

def bambu_network_disconnect_printer (s : SessionState) : SessionState × List Effect :=
  if s.should_ignore_disconnect then (s, [])
  else if s.disconnect_target = "" then (s, [])
  else (s, [.rs_disconnect s.disconnect_target])

def bambu_network_user_logout (s : SessionState) : SessionState × List Effect :=
  let target := s.disconnect_target
  let s' := s.clear_after_logout
  (s', (if target = "" then [] else [.rs_disconnect target, .clear_local_print_context target]) ++
    [.persist_selected_device s'.selected_device])

/-- The announcement of a printer whose `dev_id` field is `dev_id`. -/
def connect_selected_device_if_pending (s : SessionState) (dev_id : String) :
    SessionState × List Effect :=
  if s.selected_device = "" ∨ dev_id ≠ s.selected_device then (s, [])
  else
    match s.claim_autoconnect_target dev_id with
    | (target, s') =>
      if target = "" then (s', []) else (s', [.dispatch_connected target, .rs_connect target ""])

def bambu_network_cb_connected (s : SessionState) (dev_id : String) : SessionState × List Effect :=
  (s.mark_connected dev_id, [.dispatch_connected dev_id])

def bambu_network_cb_disconnected (s : SessionState) (dev_id : String) (status : Int) :
    SessionState × List Effect :=
  match s.mark_disconnected (status = ConnectStatusFailed) with
  | (announce, s') => (s', [.dispatch_disconnected dev_id status announce])

def call (s : SessionState) : Call → SessionState × List Effect
  | .set_config_dir loaded => (bambu_network_set_config_dir s loaded, [])
  | .set_user_selected_machine dev_id => bambu_network_set_user_selected_machine s dev_id
  | .connect_printer dev_id password => bambu_network_connect_printer s dev_id password
  | .disconnect_printer => bambu_network_disconnect_printer s
  | .user_logout => bambu_network_user_logout s
  | .cb_printer_available dev_id => connect_selected_device_if_pending s dev_id
  | .cb_connected dev_id => bambu_network_cb_connected s dev_id
  | .cb_disconnected dev_id status => bambu_network_cb_disconnected s dev_id status

/-- The session state after the calls, from the start of the plugin. -/
def stateAfter (cs : List Call) : SessionState := after (fun s c => (call s c).1) {} cs

/-! ## What a call leaves behind -/

@[simp] theorem connect_printer_state (s : SessionState) (dev_id password : String) :
    (bambu_network_connect_printer s dev_id password).1 = (s.begin_connect dev_id).2 := by
  unfold bambu_network_connect_printer
  rcases h : s.begin_connect dev_id with ⟨r, s'⟩
  cases r <;> rfl

@[simp] theorem disconnect_printer_state (s : SessionState) :
    (bambu_network_disconnect_printer s).1 = s := by
  unfold bambu_network_disconnect_printer
  split_ifs <;> rfl

/-- An announcement touches only the pending flag. -/
theorem printer_available_state (s : SessionState) (dev_id : String) :
    (connect_selected_device_if_pending s dev_id).1.selected_device_ = s.selected_device_ ∧
      (connect_selected_device_if_pending s dev_id).1.printer_connected_ = s.printer_connected_ ∧
      (connect_selected_device_if_pending s dev_id).1.connect_in_progress_ =
        s.connect_in_progress_ := by
  unfold connect_selected_device_if_pending claim_autoconnect_target
  split_ifs
  · simp
  · simp
  · dsimp only
    split_ifs <;> simp

theorem begin_connect_already_connected (s : SessionState) (d : String) :
    (s.begin_connect d).1 = .AlreadyConnected ↔
      s.selected_device_ = d ∧ s.printer_connected_ = true := by
  unfold begin_connect
  split_ifs with h1 h2
  · simp [h1]
  · simp [h1]
  · simp [h1]

/-- A request either starts an attempt for its device, or changes nothing. -/
theorem begin_connect_cases (s : SessionState) (d : String) :
    ((s.begin_connect d).1 ≠ .Start ∧ (s.begin_connect d).2 = s) ∨
      s.begin_connect d = (.Start, ⟨d, false, false, true⟩) := by
  unfold begin_connect
  split_ifs
  · exact Or.inl ⟨by simp, rfl⟩
  · exact Or.inl ⟨by simp, rfl⟩
  · exact Or.inr rfl

/-- Only the connected callback sets the connected flag. -/
theorem call_keeps_unconnected {s : SessionState} (h : s.printer_connected_ = false) {c : Call}
    (hc : ∀ d, c ≠ .cb_connected d) : (call s c).1.printer_connected_ = false := by
  cases c with
  | set_config_dir loaded =>
    simp only [call, bambu_network_set_config_dir]
    split <;> exact h
  | set_user_selected_machine dev_id => exact h
  | connect_printer dev_id password =>
    simp only [call, connect_printer_state]
    rcases begin_connect_cases s dev_id with ⟨-, hs⟩ | hs
    · rwa [hs]
    · rw [hs]
  | disconnect_printer => simpa [call] using h
  | user_logout => rfl
  | cb_printer_available dev_id =>
    simp only [call, (printer_available_state s dev_id).2.1]
    exact h
  | cb_connected dev_id => exact absurd rfl (hc dev_id)
  | cb_disconnected dev_id status => rfl

/-! ## The marks of a connection -/

/-- The calls that say where the connection stands. -/
inductive Mark
  | connected (dev_id : String)
  | disconnected (dev_id : String)
  | started (dev_id : String)
  | logout
  deriving DecidableEq

/-- The mark that a call leaves. A connect request leaves one only when it starts an
attempt. -/
def markOf (s : SessionState) : Call → Option Mark
  | .cb_connected dev_id => some (.connected dev_id)
  | .cb_disconnected dev_id _ => some (.disconnected dev_id)
  | .connect_printer dev_id _ =>
    if (s.begin_connect dev_id).1 = .Start then some (.started dev_id) else none
  | .user_logout => some .logout
  | _ => none

/-- The session state with the most recent mark. -/
def observe (p : SessionState × Option Mark) (c : Call) : SessionState × Option Mark :=
  ((call p.1 c).1, (markOf p.1 c).or p.2)

/-- The most recent mark of the calls. -/
def lastMark (cs : List Call) : Option Mark := (after observe ({}, none) cs).2

theorem observe_state (cs : List Call) : (after observe ({}, none) cs).1 = stateAfter cs := by
  unfold stateAfter
  induction cs using List.reverseRecOn with
  | nil => rfl
  | append_singleton cs c ih => simp [observe, ih]

@[simp] theorem stateAfter_snoc (cs : List Call) (c : Call) :
    stateAfter (cs ++ [c]) = (call (stateAfter cs) c).1 := by
  simp [stateAfter]

@[simp] theorem lastMark_snoc (cs : List Call) (c : Call) :
    lastMark (cs ++ [c]) = (markOf (stateAfter cs) c).or (lastMark cs) := by
  simp [lastMark, observe, observe_state]

/-! ## Soundness of the connected flag -/

/-- The session state speaks of a device as connected only when the most recent mark is
the connected callback of that device. -/
def Sound (cs : List Call) : Prop :=
  (∀ d, d ≠ "" → (stateAfter cs).connected_selected_device = d →
    lastMark cs = some (.connected d)) ∧
  ∀ d, ((stateAfter cs).begin_connect d).1 = .AlreadyConnected →
    lastMark cs = some (.connected d)

/-- The one fact behind `Sound`: the flag and the selected device go together. -/
theorem sound_iff (cs : List Call) :
    Sound cs ↔ ((stateAfter cs).printer_connected_ = true →
      lastMark cs = some (.connected (stateAfter cs).selected_device_)) := by
  unfold Sound
  simp only [begin_connect_already_connected]
  constructor
  · rintro ⟨-, h⟩ hc
    exact h _ ⟨rfl, hc⟩
  · intro h
    refine ⟨fun d hd hcon => ?_, fun d hd => ?_⟩
    · unfold connected_selected_device at hcon
      split_ifs at hcon with hs
      · exact absurd hcon.symm hd
      · simp only [not_or, Bool.not_eq_false] at hs
        rw [← hcon]
        exact h hs.2
    · rw [← hd.1]
      exact h hd.2

/-- The call does not move the selection off the connected device. -/
def KeepsSelection (s : SessionState) : Call → Prop
  | .set_config_dir loaded =>
    loaded ≠ "" → s.printer_connected_ = true → loaded = s.selected_device_
  | .set_user_selected_machine dev_id => s.printer_connected_ = true → dev_id = s.selected_device_
  | _ => True

/-- Moving the selection while the flag is set is the only way to lose soundness. -/
theorem sound_step (cs : List Call) (c : Call) (h : Sound cs) :
    Sound (cs ++ [c]) ↔ KeepsSelection (stateAfter cs) c := by
  rw [sound_iff] at h ⊢
  rw [stateAfter_snoc, lastMark_snoc]
  generalize stateAfter cs = s at h ⊢
  cases c with
  | set_config_dir loaded =>
    simp only [call, bambu_network_set_config_dir, markOf, Option.none_or, KeepsSelection]
    by_cases hl : loaded = ""
    · simpa [hl] using h
    · simp only [hl, if_false, load_selected_device, ne_eq, not_false_eq_true, true_implies]
      constructor
      · intro h' hc
        have := (h hc).symm.trans (h' hc)
        simpa using this.symm
      · intro h' hc
        rw [h' hc]
        exact h hc
  | set_user_selected_machine dev_id =>
    simp only [call, bambu_network_set_user_selected_machine, set_user_selected_device, markOf,
      Option.none_or, KeepsSelection]
    constructor
    · intro h' hc
      have := (h hc).symm.trans (h' hc)
      simpa using this.symm
    · intro h' hc
      rw [h' hc]
      exact h hc
  | connect_printer dev_id password =>
    simp only [call, connect_printer_state, markOf, KeepsSelection, iff_true]
    rcases begin_connect_cases s dev_id with ⟨hr, hs⟩ | hs
    · rw [hs]
      simpa [hr] using h
    · simp [hs]
  | disconnect_printer =>
    simp only [call, disconnect_printer_state, markOf, Option.none_or, KeepsSelection, iff_true]
    exact h
  | user_logout =>
    simp [call, bambu_network_user_logout, clear_after_logout, KeepsSelection]
  | cb_printer_available dev_id =>
    obtain ⟨h1, h2, -⟩ := printer_available_state s dev_id
    simp only [call, h1, h2, markOf, Option.none_or, KeepsSelection, iff_true]
    exact h
  | cb_connected dev_id =>
    simp [call, bambu_network_cb_connected, mark_connected, markOf, KeepsSelection]
  | cb_disconnected dev_id status =>
    simp [call, bambu_network_cb_disconnected, mark_disconnected, KeepsSelection]

/-- A run of calls is sound at every point exactly when no call moves the selection to
another device while the connected flag is set. -/
theorem connected_means_the_selected_device (cs : List Call) :
    Always Sound cs ↔ Steps (fun pre c => KeepsSelection (stateAfter pre) c) cs := by
  apply always_iff_steps (L := fun _ _ => True)
  · rw [sound_iff]
    simp [stateAfter]
  · intro pre c _ _ hpre
    exact sound_step pre c hpre.last
  · intro i _
    trivial

/-- A printer is connected, then the user selects another one: the session state now
speaks of the other one as connected, and swallows a request to connect to it. -/
theorem a_selection_takes_over_the_connected_flag :
    ¬ Always Sound [.cb_connected "printer-a", .set_user_selected_machine "printer-b"] := by
  intro h
  have hb := h.last.2 "printer-b" rfl
  simp [lastMark, after, observe, markOf] at hb

end bambu_farm_client.session_state
