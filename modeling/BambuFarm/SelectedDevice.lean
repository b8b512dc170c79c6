-- The selected device on disk (`api.cpp`, `local_state.cpp`). A call that changes the selection
-- persists it outside of the lock of the session state: it reads the selection anew, opens the
-- state file and writes the text. The callbacks of the plugin run in between, and the process may
-- end at any point.
import BambuFarm.SessionState
import Mathlib.Data.List.TakeWhile

open runs
open bambu_farm_client.session_state

namespace bambu_farm_client.selected_device

/-! ## The state file -/

/-- What `std::getline` reads first. -/
def first_line (content : String) : String := String.ofList (content.toList.takeWhile (· ≠ '\n'))

def load_selected_device : Option String → String
  | none => ""
  | some content => first_line content

theorem first_line_eq_self {content : String} (h : '\n' ∉ content.toList) :
    first_line content = content := by
  have hall : content.toList.takeWhile (· ≠ '\n') = content.toList := by
    apply List.takeWhile_eq_self_iff.mpr
    intro c hc
    have hne : c ≠ '\n' := fun hn => h (hn ▸ hc)
    simpa using hne
  rw [first_line, hall, String.ofList_toList]

theorem newline_notMem_first_line (content : String) : '\n' ∉ (first_line content).toList := by
  rw [first_line, String.toList_ofList]
  intro h
  simpa using List.mem_takeWhile_imp h

theorem newline_notMem_load (file : Option String) :
    '\n' ∉ (load_selected_device file).toList := by
  cases file with
  | none => simp [load_selected_device]
  | some content => exact newline_notMem_first_line content

/-! ## The calls -/

/-- Where a call stands in `persist_selected_device`. -/
inductive Place
  | returned
  /-- The call has changed the selection. -/
  | changed
  /-- The selection is read. -/
  | copied (selected_device : String)
  /-- The file is open, and empty. -/
  | opened (selected_device : String)
  deriving DecidableEq

structure Plugin where
  session_state : SessionState := {}
  file : Option String := none
  calls : Nat → Place := fun _ => .returned

namespace Plugin

variable (s : Plugin)

def goTo (call : Nat) (place : Place) : Plugin :=
  { s with calls := Function.update s.calls call place }

/-- The directories are there, and the empty selection has no file. An access that fails leaves
the file alone, and ends the call. -/
def access (call : Nat) (selected_device : String) (done : Bool) : Plugin :=
  if selected_device = "" then { s with file := if done then none else s.file }.goTo call .returned
  else if done then { s with file := some "" }.goTo call (.opened selected_device)
  else s.goTo call .returned

def set_config_dir : Plugin :=
  { s with session_state :=
      bambu_network_set_config_dir s.session_state (load_selected_device s.file) }

@[simp] theorem goTo_self (call : Nat) (place : Place) : (s.goTo call place).calls call = place :=
  Function.update_self ..

@[simp] theorem goTo_ne {call c : Nat} (h : c ≠ call) (place : Place) :
    (s.goTo call place).calls c = s.calls c :=
  Function.update_of_ne h ..

end Plugin

/-- The sections of the calls, the callbacks, and the end of the process. -/
inductive Event
  | set_user_selected_machine (call : Nat) (dev_id : String)
  | connect_printer (call : Nat) (dev_id : String)
  | user_logout (call : Nat)
  /-- `persist_selected_device` reads the selection. -/
  | read (call : Nat)
  /-- It removes the file, or opens it. -/
  | access (call : Nat) (done : Bool)
  | write (call : Nat) (done : Bool)
  | cb_printer_available (dev_id : String)
  | cb_connected (dev_id : String)
  | cb_disconnected (dev_id : String) (status : Int)
  | set_config_dir
  /-- The process ends, and the next one sets the directory. -/
  | restart

def stepEvent (s : Plugin) : Event → Plugin
  | .set_user_selected_machine call dev_id =>
    { s with session_state := s.session_state.set_user_selected_device dev_id }.goTo call .changed
  | .connect_printer call dev_id =>
    match s.session_state.begin_connect dev_id with
    | (.Start, session_state) => { s with session_state := session_state }.goTo call .changed
    | (_, session_state) => { s with session_state := session_state }
  | .user_logout call =>
    { s with session_state := s.session_state.clear_after_logout }.goTo call .changed
  | .read call =>
    match s.calls call with
    | .changed => s.goTo call (.copied s.session_state.selected_device)
    | _ => s
  | .access call done =>
    match s.calls call with
    | .copied selected_device => s.access call selected_device done
    | _ => s
  | .write call done =>
    match s.calls call with
    | .opened selected_device =>
      { s with file := if done then some selected_device else s.file }.goTo call .returned
    | _ => s
  | .cb_printer_available dev_id =>
    { s with session_state := (connect_selected_device_if_pending s.session_state dev_id).1 }
  | .cb_connected dev_id =>
    { s with session_state := (bambu_network_cb_connected s.session_state dev_id).1 }
  | .cb_disconnected dev_id status =>
    { s with session_state := (bambu_network_cb_disconnected s.session_state dev_id status).1 }
  | .set_config_dir => s.set_config_dir
  | .restart => { file := s.file : Plugin }.set_config_dir

/-- The plugin after the events, from a start without a state file. -/
def pluginAfter (es : List Event) : Plugin := after stepEvent {} es

@[simp] theorem pluginAfter_snoc (es : List Event) (e : Event) :
    pluginAfter (es ++ [e]) = stepEvent (pluginAfter es) e := after_snoc ..

/-- The sections of a call come in their order. No two calls have the file open at once. -/
def Possible (pre : List Event) : Event → Prop
  | .set_user_selected_machine call _ => (pluginAfter pre).calls call = .returned
  | .connect_printer call _ => (pluginAfter pre).calls call = .returned
  | .user_logout call => (pluginAfter pre).calls call = .returned
  | .read call => (pluginAfter pre).calls call = .changed
  | .access call _ => (∃ d, (pluginAfter pre).calls call = .copied d) ∧
      ∀ other d, (pluginAfter pre).calls other ≠ .opened d
  | .write call _ => ∃ d, (pluginAfter pre).calls call = .opened d
  | _ => True

/-! ## The law -/

/-- No call is under way. -/
def Idle (s : Plugin) : Prop := ∀ call, s.calls call = .returned

/-- Each other call has returned. -/
def LastOne (s : Plugin) (call : Nat) : Prop := ∀ other, other ≠ call → s.calls other = .returned

/-- Between the calls the file holds the selection. -/
def Remembered (es : List Event) : Prop :=
  Idle (pluginAfter es) →
    load_selected_device (pluginAfter es).file = (pluginAfter es).session_state.selected_device

/-- The section that ends the last call leaves the selection of its own time in the file, and no
connection to another device comes up between the calls. -/
def Timely (pre : List Event) : Event → Prop
  | .access call done => ∀ d, (pluginAfter pre).calls call = .copied d →
      d = "" ∨ done = false → LastOne (pluginAfter pre) call →
      (if done then "" else load_selected_device (pluginAfter pre).file) =
        (pluginAfter pre).session_state.selected_device
  | .write call done => ∀ d, (pluginAfter pre).calls call = .opened d →
      LastOne (pluginAfter pre) call →
      (if done then first_line d else load_selected_device (pluginAfter pre).file) =
        (pluginAfter pre).session_state.selected_device
  | .cb_connected dev_id => Idle (pluginAfter pre) →
      dev_id = (pluginAfter pre).session_state.selected_device
  | _ => True

theorem idle_goTo {s : Plugin} {call : Nat} {place : Place} :
    Idle (s.goTo call place) ↔ place = .returned ∧ LastOne s call := by
  constructor
  · intro h
    refine ⟨by simpa using h call, fun other hne => ?_⟩
    simpa [hne] using h other
  · rintro ⟨rfl, h⟩ other
    by_cases hne : other = call
    · simp [hne]
    · simpa [hne] using h other hne

/-- An access ends the call, or leaves it with an empty file to write. -/
theorem access_cases (s : Plugin) (call : Nat) (d : String) (done : Bool) :
    ((d = "" ∨ done = false) ∧
      ∃ file, s.access call d done = { s with file := file }.goTo call .returned ∧
        load_selected_device file = if done then "" else load_selected_device s.file) ∨
    (d ≠ "" ∧ done = true ∧
      s.access call d done = { s with file := some "" }.goTo call (.opened d)) := by
  unfold Plugin.access
  by_cases hd : d = ""
  · rw [if_pos hd]
    exact .inl ⟨.inl hd, _, rfl, apply_ite ..⟩
  · rw [if_neg hd]
    cases done with
    | true => exact .inr ⟨hd, rfl, rfl⟩
    | false => exact .inl ⟨.inr rfl, s.file, rfl, rfl⟩

theorem set_config_dir_selected (s : Plugin) :
    s.set_config_dir.session_state.selected_device =
      if load_selected_device s.file = "" then s.session_state.selected_device
      else load_selected_device s.file := by
  unfold Plugin.set_config_dir bambu_network_set_config_dir
  split_ifs
  · rfl
  · rfl

theorem printer_available_selected (s : SessionState) (dev_id : String) :
    (connect_selected_device_if_pending s dev_id).1.selected_device = s.selected_device :=
  (printer_available_state s dev_id).1

/-- A call that has just changed the selection is under way. -/
theorem not_idle_goTo {s : Plugin} {call : Nat} {place : Place} (h : place ≠ .returned) :
    ¬ Idle (s.goTo call place) := fun hi => h (idle_goTo.mp hi).1

/-- A request for a connect changes the selection, or nothing. -/
theorem connect_cases (s : Plugin) (call : Nat) (dev_id : String) :
    stepEvent s (.connect_printer call dev_id) = s ∨
      stepEvent s (.connect_printer call dev_id) =
        { s with session_state := ⟨dev_id, false, false, true⟩ }.goTo call .changed := by
  simp only [stepEvent]
  rcases begin_connect_cases s.session_state dev_id with ⟨hne, hs⟩ | hs
  · left
    rcases hb : s.session_state.begin_connect dev_id with ⟨r, session_state⟩
    rw [hb] at hne hs
    cases hs
    cases r with
    | Start => exact absurd rfl hne
    | AlreadyConnected => rfl
    | AlreadyInProgress => rfl
  · right
    rw [hs]

theorem remembered_step (es : List Event) (e : Event) (he : Possible es e) (h : Remembered es) :
    Remembered (es ++ [e]) ↔ Timely es e := by
  unfold Remembered Timely
  rw [pluginAfter_snoc]
  cases e with
  | set_user_selected_machine call dev_id =>
    refine iff_of_true (fun hi => absurd hi ?_) trivial
    exact not_idle_goTo (by simp)
  | connect_printer call dev_id =>
    refine iff_of_true ?_ trivial
    rcases connect_cases (pluginAfter es) call dev_id with hs | hs
    · rw [hs]
      exact h
    · rw [hs]
      exact fun hi => absurd hi (not_idle_goTo (by simp))
  | user_logout call =>
    refine iff_of_true (fun hi => absurd hi ?_) trivial
    exact not_idle_goTo (by simp)
  | read call =>
    have hcall : (pluginAfter es).calls call = .changed := he
    refine iff_of_true ?_ trivial
    simp only [stepEvent, hcall]
    exact fun hi => absurd hi (not_idle_goTo (by simp))
  | access call done =>
    obtain ⟨⟨d, hd⟩, -⟩ := he
    simp only [stepEvent, hd]
    rcases access_cases (pluginAfter es) call d done with ⟨hends, file, hs, hfile⟩ | ⟨hne, hdone, hs⟩
    · rw [hs, ← hfile]
      constructor
      · intro hp d' _ _ hlast
        exact hp (idle_goTo.mpr ⟨rfl, hlast⟩)
      · intro ht hi
        exact ht d rfl hends (idle_goTo.mp hi).2
    · rw [hs]
      refine iff_of_true (fun hi => absurd hi (not_idle_goTo (by simp))) ?_
      rintro d' hd' (rfl | hfalse)
      · cases hd'
        exact absurd rfl hne
      · exact absurd (hdone.symm.trans hfalse) (by decide)
  | write call done =>
    obtain ⟨d, hd⟩ := he
    simp only [stepEvent, hd]
    have hfile : load_selected_device (if done then some d else (pluginAfter es).file) =
        if done then first_line d else load_selected_device (pluginAfter es).file :=
      apply_ite ..
    constructor
    · intro hp d' hd' hlast
      cases hd'
      exact hfile.symm.trans (hp (idle_goTo.mpr ⟨rfl, hlast⟩))
    · intro ht hi
      exact hfile.trans (ht d rfl (idle_goTo.mp hi).2)
  | cb_printer_available dev_id =>
    refine iff_of_true ?_ trivial
    simp only [stepEvent, printer_available_selected]
    exact h
  | cb_connected dev_id =>
    constructor
    · intro hp hi
      exact (hp hi).symm.trans (h hi)
    · intro ht hi
      exact (h hi).trans (ht hi).symm
  | cb_disconnected dev_id status => exact iff_of_true h trivial
  | set_config_dir =>
    refine iff_of_true (fun hi => ?_) trivial
    simp only [stepEvent, set_config_dir_selected]
    split_ifs
    · exact h hi
    · rfl
  | restart =>
    refine iff_of_true (fun _ => ?_) trivial
    simp only [stepEvent, set_config_dir_selected]
    split_ifs with hempty
    · exact hempty
    · rfl

/-! ## One call at a time -/

/-- The application makes one call at a time, the files obey, no device id breaks its line, and
only the selected device comes up. -/
def Orderly (pre : List Event) : Event → Prop
  | .set_user_selected_machine _ dev_id => Idle (pluginAfter pre) ∧ '\n' ∉ dev_id.toList
  | .connect_printer _ dev_id => Idle (pluginAfter pre) ∧ '\n' ∉ dev_id.toList
  | .user_logout _ => Idle (pluginAfter pre)
  | .set_config_dir => Idle (pluginAfter pre)
  | .access _ done => done = true
  | .write _ done => done = true
  | .cb_connected dev_id => dev_id = (pluginAfter pre).session_state.selected_device
  | _ => True

/-- Each call that persists the selection has the selection of the present. -/
structure Kept (s : Plugin) : Prop where
  line : '\n' ∉ s.session_state.selected_device.toList
  copied : ∀ call d, s.calls call = .copied d → d = s.session_state.selected_device
  opened : ∀ call d, s.calls call = .opened d → d = s.session_state.selected_device

theorem kept_of_idle {s : Plugin} (hline : '\n' ∉ s.session_state.selected_device.toList)
    (h : Idle s) : Kept s where
  line := hline
  copied := fun call d hd => absurd ((h call).symm.trans hd) (by simp)
  opened := fun call d hd => absurd ((h call).symm.trans hd) (by simp)

theorem Kept.goTo {s : Plugin} (h : Kept s) (call : Nat) {place : Place}
    (hplace : ∀ d, place = .copied d ∨ place = .opened d → d = s.session_state.selected_device) :
    Kept (s.goTo call place) where
  line := h.line
  copied := fun c d hd => by
    by_cases hc : c = call
    · rw [hc, Plugin.goTo_self] at hd
      exact hplace d (.inl hd)
    · rw [Plugin.goTo_ne _ hc] at hd
      exact h.copied c d hd
  opened := fun c d hd => by
    by_cases hc : c = call
    · rw [hc, Plugin.goTo_self] at hd
      exact hplace d (.inr hd)
    · rw [Plugin.goTo_ne _ hc] at hd
      exact h.opened c d hd

/-- The file is not looked at. -/
theorem Kept.file {s : Plugin} (h : Kept s) (file : Option String) :
    Kept { s with file := file } := ⟨h.line, h.copied, h.opened⟩

theorem kept_changed {s : Plugin} (hi : Idle s) (session_state : SessionState)
    (hline : '\n' ∉ session_state.selected_device_.toList) (call : Nat) :
    Kept ({ s with session_state := session_state }.goTo call .changed) := by
  have hkept : Kept { s with session_state := session_state } := kept_of_idle hline hi
  apply hkept.goTo call
  rintro d (hd | hd) <;> cases hd

theorem kept_set_config_dir {s : Plugin} (hi : Idle s)
    (hline : '\n' ∉ s.session_state.selected_device.toList) : Kept s.set_config_dir := by
  refine kept_of_idle ?_ hi
  rw [set_config_dir_selected]
  split_ifs with hempty
  · exact hline
  · exact newline_notMem_load s.file

theorem kept_step {es : List Event} {e : Event} (he : Possible es e) (ho : Orderly es e)
    (h : Kept (pluginAfter es)) : Kept (pluginAfter (es ++ [e])) := by
  rw [pluginAfter_snoc]
  cases e with
  | set_user_selected_machine call dev_id => exact kept_changed ho.1 _ ho.2 call
  | connect_printer call dev_id =>
    rcases connect_cases (pluginAfter es) call dev_id with hs | hs
    · rw [hs]
      exact h
    · rw [hs]
      exact kept_changed ho.1 _ ho.2 call
  | user_logout call =>
    exact kept_changed ho _ (by simp [SessionState.clear_after_logout]) call
  | read call =>
    have hcall : (pluginAfter es).calls call = .changed := he
    simp only [stepEvent, hcall]
    exact h.goTo call (by simp)
  | access call done =>
    obtain ⟨⟨d, hd⟩, -⟩ := he
    simp only [stepEvent, hd]
    rcases access_cases (pluginAfter es) call d done with ⟨-, file, hs, -⟩ | ⟨-, -, hs⟩
    · rw [hs]
      exact (h.file file).goTo call (by simp)
    · rw [hs]
      refine (h.file _).goTo call ?_
      rintro d' (hd' | hd')
      · cases hd'
      · cases hd'
        exact h.copied call d hd
  | write call done =>
    obtain ⟨d, hd⟩ := he
    simp only [stepEvent, hd]
    exact (h.file _).goTo call (by simp)
  | cb_printer_available dev_id =>
    have hs := printer_available_selected (pluginAfter es).session_state dev_id
    exact ⟨hs ▸ h.line, fun c d hd => (h.copied c d hd).trans hs.symm,
      fun c d hd => (h.opened c d hd).trans hs.symm⟩
  | cb_connected dev_id =>
    have hs : dev_id = (pluginAfter es).session_state.selected_device := ho
    subst hs
    exact ⟨h.line, h.copied, h.opened⟩
  | cb_disconnected dev_id status => exact ⟨h.line, h.copied, h.opened⟩
  | set_config_dir => exact kept_set_config_dir ho h.line
  | restart => exact kept_set_config_dir (fun _ => rfl) (by simp [SessionState.selected_device])

theorem timely_of_orderly {es : List Event} {e : Event} (h : Kept (pluginAfter es))
    (ho : Orderly es e) : Timely es e := by
  cases e with
  | access call done =>
    intro d hd hends _
    have hdone : done = true := ho
    rcases hends with rfl | hfalse
    · rw [if_pos hdone]
      exact h.copied call "" hd
    · exact absurd (hdone.symm.trans hfalse) (by decide)
  | write call done =>
    intro d hd _
    have hdone : done = true := ho
    have hsel := h.opened call d hd
    rw [if_pos hdone, first_line_eq_self (hsel ▸ h.line)]
    exact hsel
  | cb_connected dev_id => exact fun _ => ho
  | _ => trivial

theorem remembered_of_orderly {es : List Event} (h : Steps Possible es) (ho : Steps Orderly es) :
    Always Remembered es := by
  have hkept : Always (fun pre => Kept (pluginAfter pre) ∧ Remembered pre) es := by
    refine always_of_steps ⟨kept_of_idle (by simp [pluginAfter, SessionState.selected_device])
      fun _ => rfl, fun _ => rfl⟩ (fun pre e _ hpre he => ?_) (h.and ho)
    exact ⟨kept_step he.1 he.2 hpre.1,
      (remembered_step pre e he.1 hpre.2).mpr (timely_of_orderly hpre.1 he.2)⟩
  exact hkept.mono fun _ hpre => hpre.2

/-! ## The law of a run -/

/-- In every run, the state file holds the selection whenever no call is under way exactly when
each event is timely, and so it is when the calls come one at a time and the files obey. -/
theorem the_file_holds_the_selection (es : List Event) (h : Steps Possible es) :
    (Always Remembered es ↔ Steps Timely es) ∧ (Steps Orderly es → Always Remembered es) := by
  refine ⟨?_, remembered_of_orderly h⟩
  exact always_iff_steps (fun _ => rfl) (fun es e _ he hes => remembered_step es e he hes.last) h

/-- The user selects a printer, and it comes up. -/
def selectedRun : List Event :=
  [.set_user_selected_machine 0 "A1", .read 0, .access 0 true, .write 0 true, .cb_connected "A1"]

theorem lastOne_goTo {s : Plugin} {call : Nat} (h : LastOne s call) (place : Place) :
    LastOne (s.goTo call place) call := by
  intro other hne
  rw [Plugin.goTo_ne s hne]
  exact h other hne

theorem lastOne_new (session_state : SessionState) (file : Option String) (call : Nat) :
    LastOne { session_state := session_state, file := file } call := fun _ _ => rfl

theorem possible_selectedRun : Steps Possible selectedRun := by
  refine (steps_snoc _ [_, _, _, _] _).mpr ⟨?_, trivial⟩
  refine (steps_snoc _ [_, _, _] _).mpr ⟨?_, "A1", rfl⟩
  refine (steps_snoc _ [_, _] _).mpr ⟨?_, ⟨"A1", rfl⟩, fun other d hd => ?_⟩
  · refine (steps_snoc _ [_] _).mpr ⟨?_, rfl⟩
    exact (steps_snoc _ [] _).mpr ⟨steps_nil _, rfl⟩
  · have hlast : LastOne (pluginAfter [.set_user_selected_machine 0 "A1", .read 0]) 0 :=
      lastOne_goTo (lastOne_goTo (lastOne_new _ _ 0) .changed) (.copied "A1")
    by_cases hother : other = 0
    · rw [hother] at hd
      cases hd
    · rw [hlast other hother] at hd
      cases hd

theorem idle_selectedRun : Idle (pluginAfter selectedRun) :=
  idle_goTo.mpr ⟨rfl, lastOne_goTo (lastOne_goTo (lastOne_goTo (lastOne_new _ _ 0) .changed)
    (.copied "A1")) (.opened "A1")⟩

theorem timely_selectedRun : Steps Timely selectedRun := by
  refine (steps_snoc _ [_, _, _, _] _).mpr ⟨?_, fun _ => rfl⟩
  refine (steps_snoc _ [_, _, _] _).mpr ⟨?_, fun d hd _ => ?_⟩
  · refine (steps_snoc _ [_, _] _).mpr ⟨?_, fun d hd hends => ?_⟩
    · refine (steps_snoc _ [_] _).mpr ⟨?_, trivial⟩
      exact (steps_snoc _ [] _).mpr ⟨steps_nil _, trivial⟩
    · cases hd
      exact absurd hends (by decide)
  · cases hd
    decide

theorem the_file_holds_the_selected_printer : Always Remembered selectedRun :=
  (the_file_holds_the_selection selectedRun possible_selectedRun).1.mpr timely_selectedRun

/-! ## The next process -/

/-- What calls ask of the rest of the plugin. -/
def asks (s : SessionState) : List Call → List Effect
  | [] => []
  | c :: cs => (call s c).2 ++ asks (call s c).1 cs

/-- The devices that the plugin connects to. -/
def connects (effects : List Effect) : List String :=
  effects.filterMap fun
    | .rs_connect dev_id _ => some dev_id
    | _ => none

/-- A callback, before any device but `d` is connected. -/
def Callback (d : String) : Call → Prop
  | .cb_printer_available _ => True
  | .cb_connected dev_id => dev_id = d
  | .cb_disconnected _ _ => True
  | _ => False

theorem available_unarmed {s : SessionState} (h : s.auto_connect_pending_ = false)
    (dev_id : String) : connect_selected_device_if_pending s dev_id = (s, []) := by
  unfold connect_selected_device_if_pending SessionState.claim_autoconnect_target
  split_ifs with hother hclaim
  · rfl
  · simp
  · exact absurd (.inl h) hclaim

theorem available_other {s : SessionState} {dev_id : String} (h : dev_id ≠ s.selected_device_) :
    connect_selected_device_if_pending s dev_id = (s, []) := by
  unfold connect_selected_device_if_pending
  exact if_pos (.inr h)

theorem available_selected {s : SessionState} (hd : s.selected_device_ ≠ "")
    (h : s.auto_connect_pending_ = true) :
    connect_selected_device_if_pending s s.selected_device_ =
      ({ s with auto_connect_pending_ := false },
        [.dispatch_connected s.selected_device_, .rs_connect s.selected_device_ ""]) := by
  unfold connect_selected_device_if_pending SessionState.claim_autoconnect_target
  simp [SessionState.selected_device, hd, h]

/-- Without a pending autoconnect the callbacks connect to no device. -/
theorem connects_unarmed {d : String} {cs : List Call} (hcs : ∀ c ∈ cs, Callback d c) :
    ∀ s : SessionState, s.auto_connect_pending_ = false → connects (asks s cs) = [] := by
  induction cs with
  | nil => exact fun _ _ => rfl
  | cons c cs ih =>
    intro s h
    have hrest := ih fun c' hc' => hcs c' (.tail _ hc')
    have hc := hcs c (.head _)
    unfold asks
    cases c with
    | cb_printer_available dev_id =>
      simp only [call, available_unarmed h]
      exact hrest s h
    | cb_connected dev_id => exact hrest _ h
    | cb_disconnected dev_id status => exact hrest _ h
    | _ => exact absurd hc (by simp [Callback])

/-- The first announcement of the device takes the pending autoconnect. -/
theorem connects_armed {d : String} (hd : d ≠ "") {cs : List Call}
    (hcs : ∀ c ∈ cs, Callback d c) :
    ∀ s : SessionState, s.selected_device_ = d → s.auto_connect_pending_ = true →
      connects (asks s cs) = if .cb_printer_available d ∈ cs then [d] else [] := by
  induction cs with
  | nil => exact fun _ _ _ => rfl
  | cons c cs ih =>
    intro s hs h
    have hcs' : ∀ c' ∈ cs, Callback d c' := fun c' hc' => hcs c' (.tail _ hc')
    have hc := hcs c (.head _)
    unfold asks
    cases c with
    | cb_printer_available dev_id =>
      by_cases hdev : dev_id = s.selected_device_
      · subst hdev
        have hnone := connects_unarmed hcs' { s with auto_connect_pending_ := false } rfl
        simp only [call, available_selected (hs ▸ hd) h]
        rw [if_pos (by simp [hs]), ← hs]
        exact congrArg (s.selected_device_ :: ·) hnone
      · have hne : d ≠ dev_id := fun hd' => hdev (hd'.symm.trans hs.symm)
        simp only [call, available_other hdev]
        simpa [hne] using ih hcs' s hs h
    | cb_connected dev_id =>
      have hdev : dev_id = d := hc
      simp only [List.mem_cons, reduceCtorEq, false_or]
      exact ih hcs' (s.mark_connected dev_id) hdev h
    | cb_disconnected dev_id status =>
      simp only [List.mem_cons, reduceCtorEq, false_or]
      exact ih hcs' (call s (.cb_disconnected dev_id status)).1 hs h
    | _ => exact absurd hc (by simp [Callback])

/-- The directory is set before anything else happens. -/
theorem connects_loaded (d : String) {cs : List Call} (hcs : ∀ c ∈ cs, Callback d c) :
    connects (asks (bambu_network_set_config_dir {} d) cs) =
      if d ≠ "" ∧ .cb_printer_available d ∈ cs then [d] else [] := by
  unfold bambu_network_set_config_dir
  by_cases hempty : d = ""
  · rw [if_pos hempty, if_neg (fun hne => hne.1 hempty)]
    exact connects_unarmed hcs {} rfl
  · have hpending : (({} : SessionState).load_selected_device d).auto_connect_pending_ = true := by
      simp [SessionState.load_selected_device, hempty]
    rw [if_neg hempty, connects_armed hempty hcs _ rfl hpending]
    simp [hempty]

theorem session_after_restart {es : List Event} (h : Steps Possible es) (ho : Steps Orderly es)
    (hidle : Idle (pluginAfter es)) : (pluginAfter (es ++ [.restart])).session_state =
      bambu_network_set_config_dir {} (pluginAfter es).session_state.selected_device := by
  rw [pluginAfter_snoc, ← (remembered_of_orderly h ho).last hidle]
  rfl

/-- The device that was selected when the process ended is connected to once, when it is
announced to the next process, and no other device is. -/
theorem a_restart_connects_to_the_last_selection (es : List Event) (h : Steps Possible es)
    (ho : Steps Orderly es) (hidle : Idle (pluginAfter es)) (d : String)
    (hd : d = (pluginAfter es).session_state.selected_device) (cs : List Call)
    (hcs : ∀ c ∈ cs, Callback d c) :
    connects (asks (pluginAfter (es ++ [.restart])).session_state cs) =
      if d ≠ "" ∧ .cb_printer_available d ∈ cs then [d] else [] := by
  rw [session_after_restart h ho hidle, ← hd]
  exact connects_loaded d hcs

theorem orderly_selectedRun : Steps Orderly selectedRun := by
  refine (steps_snoc _ [_, _, _, _] _).mpr ⟨?_, rfl⟩
  refine (steps_snoc _ [_, _, _] _).mpr ⟨?_, rfl⟩
  refine (steps_snoc _ [_, _] _).mpr ⟨?_, rfl⟩
  refine (steps_snoc _ [_] _).mpr ⟨?_, trivial⟩
  exact (steps_snoc _ [] _).mpr ⟨steps_nil _, fun _ => rfl, by decide⟩

theorem the_selected_printer_is_connected_again :
    connects (asks (pluginAfter (selectedRun ++ [.restart])).session_state
      [.cb_printer_available "P1S", .cb_printer_available "A1", .cb_connected "A1",
        .cb_printer_available "A1"]) = ["A1"] := by
  have h := a_restart_connects_to_the_last_selection selectedRun possible_selectedRun
    orderly_selectedRun idle_selectedRun "A1" rfl
    [.cb_printer_available "P1S", .cb_printer_available "A1", .cb_connected "A1",
      .cb_printer_available "A1"] (by simp [Callback])
  rw [h]
  decide

end bambu_farm_client.selected_device
