-- The callbacks for the connected printer (`callback_registry.cpp`, `api.cpp`). A registration
-- asks the session state for the connected device before it sets the callback, and the connected
-- callback of the plugin marks the session state before it copies the callbacks. The law says
-- exactly when the two pass each other by.
import BambuFarm.SessionState

open runs
open bambu_farm_client.session_state

namespace bambu_farm_client.connected_callbacks

variable {φ : Type}

/-! ## The registry and its calls -/

inductive Slot
  | on_printer_connected
  | on_local_connect
  deriving DecidableEq

/-- Where a call stands. Between two sections it holds no lock. -/
inductive Place (φ : Type)
  | returned
  /-- The registration knows the connected device, or the empty text. -/
  | asked (slot : Slot) (fn : Option φ) (connected_device : String)
  /-- The callback is set. -/
  | installed (slot : Slot) (fn : Option φ) (connected_device : String)
  /-- `dispatch_connected` is called with the device. -/
  | dispatching (device_id : String)
  /-- The callbacks are copied. -/
  | copied (callbacks : Slot → Option φ) (device_id : String)

/-- The session state, the callbacks, and what the callbacks were called with since the last
mark. -/
structure Plugin (φ : Type) where
  session_state : SessionState := {}
  callbacks : Slot → Option φ := fun _ => none
  told : List (Slot × φ × String) := []
  calls : Nat → Place φ := fun _ => .returned

namespace Plugin

variable (s : Plugin φ)

def goTo (call : Nat) (place : Place φ) : Plugin φ :=
  { s with calls := Function.update s.calls call place }

def connected_device : String := s.session_state.connected_selected_device

/-- The call of a callback that may be empty. -/
def tell (slot : Slot) (callback : Option φ) (device_id : String) : Plugin φ :=
  match callback with
  | none => s
  | some fn => { s with told := s.told ++ [(slot, fn, device_id)] }

@[simp] theorem goTo_self (call : Nat) (place : Place φ) : (s.goTo call place).calls call = place :=
  Function.update_self ..

@[simp] theorem goTo_ne {call c : Nat} (h : c ≠ call) (place : Place φ) :
    (s.goTo call place).calls c = s.calls c :=
  Function.update_of_ne h ..

theorem tell_frame (slot : Slot) (callback : Option φ) (device_id : String) :
    (s.tell slot callback device_id).connected_device = s.connected_device ∧
    (s.tell slot callback device_id).callbacks = s.callbacks ∧
    (s.tell slot callback device_id).calls = s.calls ∧
    s.told ⊆ (s.tell slot callback device_id).told := by
  cases callback with
  | none => exact ⟨rfl, rfl, rfl, List.Subset.refl _⟩
  | some fn => exact ⟨rfl, rfl, rfl, List.subset_append_left _ _⟩

theorem mem_tell (slot : Slot) (fn : φ) (device_id : String) :
    (slot, fn, device_id) ∈ (s.tell slot (some fn) device_id).told :=
  List.mem_append_right _ (List.mem_singleton_self _)

end Plugin

/-- The sections of the calls. -/
inductive Event (φ : Type)
  /-- `bambu_network_set_on_printer_connected_fn` or `bambu_network_set_on_local_connect_fn`
  asks the session state. -/
  | ask (call : Nat) (slot : Slot) (fn : Option φ)
  | install (call : Nat)
  /-- The registration tells the callback what it asked for, and returns. -/
  | signal (call : Nat)
  /-- `bambu_network_cb_connected` marks the session state. -/
  | cb_connected (call : Nat) (device_id : String)
  /-- The announcement of a printer. The autoconnect tells the callbacks of its device before it
  connects. -/
  | cb_printer_available (call : Nat) (dev_id : String)
  | copy (call : Nat)
  | deliver (call : Nat)
  /-- Another call of the plugin changes the session state. -/
  | session (c : Call)

def stepEvent (s : Plugin φ) : Event φ → Plugin φ
  | .ask call slot fn => s.goTo call (.asked slot fn s.connected_device)
  | .install call =>
    match s.calls call with
    | .asked slot fn connected_device =>
      { s with callbacks := Function.update s.callbacks slot fn }.goTo call
        (.installed slot fn connected_device)
    | _ => s
  | .signal call =>
    match s.calls call with
    | .installed slot fn connected_device =>
      if connected_device = "" then s.goTo call .returned
      else (s.tell slot fn connected_device).goTo call .returned
    | _ => s
  | .cb_connected call device_id =>
    { s with session_state := s.session_state.mark_connected device_id, told := [] }.goTo call
      (.dispatching device_id)
  | .cb_printer_available call dev_id =>
    match connect_selected_device_if_pending s.session_state dev_id with
    | (session_state, .dispatch_connected target :: _) =>
      { s with session_state := session_state }.goTo call (.dispatching target)
    | (session_state, _) => { s with session_state := session_state }.goTo call .returned
  | .copy call =>
    match s.calls call with
    | .dispatching device_id => s.goTo call (.copied s.callbacks device_id)
    | _ => s
  | .deliver call =>
    match s.calls call with
    | .copied callbacks device_id =>
      ((s.tell .on_printer_connected (callbacks .on_printer_connected) device_id).tell
        .on_local_connect (callbacks .on_local_connect) device_id).goTo call .returned
    | _ => s
  | .session c => { s with session_state := (call s.session_state c).1 }

def pluginAfter (es : List (Event φ)) : Plugin φ := after stepEvent {} es

@[simp] theorem pluginAfter_snoc (es : List (Event φ)) (e : Event φ) :
    pluginAfter (es ++ [e]) = stepEvent (pluginAfter es) e := after_snoc ..

/-- The sections of a call come in their order. -/
def Possible (pre : List (Event φ)) : Event φ → Prop
  | .ask call _ _ => (pluginAfter pre).calls call = .returned
  | .install call => ∃ slot fn d, (pluginAfter pre).calls call = .asked slot fn d
  | .signal call => ∃ slot fn d, (pluginAfter pre).calls call = .installed slot fn d
  | .cb_connected call _ => (pluginAfter pre).calls call = .returned
  | .cb_printer_available call _ => (pluginAfter pre).calls call = .returned
  | .copy call => ∃ d, (pluginAfter pre).calls call = .dispatching d
  | .deliver call => ∃ callbacks d, (pluginAfter pre).calls call = .copied callbacks d
  | .session c => (∀ d, c ≠ .cb_connected d) ∧ ∀ d, c ≠ .cb_printer_available d

/-! ## What is due to a callback -/

/-- The call is on its way to tell the callback of the device. -/
inductive DueAt (slot : Slot) (fn : φ) (d : String) : Place φ → Prop
  | installed : DueAt slot fn d (.installed slot (some fn) d)
  | dispatching : DueAt slot fn d (.dispatching d)
  | copied {callbacks : Slot → Option φ} (h : callbacks slot = some fn) :
      DueAt slot fn d (.copied callbacks d)

/-- The callback was told of the device since the last mark, or a call is on its way to do so. -/
def Due (s : Plugin φ) (slot : Slot) (fn : φ) (d : String) : Prop :=
  (slot, fn, d) ∈ s.told ∨ ∃ call, DueAt slot fn d (s.calls call)

/-- The connected device is due to each callback. -/
def NoneMissed (es : List (Event φ)) : Prop :=
  (pluginAfter es).connected_device ≠ "" → ∀ slot fn, (pluginAfter es).callbacks slot = some fn →
    Due (pluginAfter es) slot fn (pluginAfter es).connected_device

/-- When one call takes a step, what the others are on their way to do stays. -/
theorem Due.step {s s' : Plugin φ} {slot : Slot} {fn : φ} {d : String} (h : Due s slot fn d)
    (call : Nat) (place : Place φ) (htold : s.told ⊆ s'.told)
    (hcalls : s'.calls = Function.update s.calls call place)
    (hcall : DueAt slot fn d (s.calls call) → Due s' slot fn d) : Due s' slot fn d := by
  rcases h with h | ⟨c, hc⟩
  · exact .inl (htold h)
  · by_cases heq : c = call
    · exact hcall (heq ▸ hc)
    · have hsame : s'.calls c = s.calls c := by rw [hcalls, Function.update_of_ne heq]
      exact .inr ⟨c, hsame ▸ hc⟩

theorem due_at {s : Plugin φ} {slot : Slot} {fn : φ} {d : String} {place : Place φ}
    (h : DueAt slot fn d place) (call : Nat) : Due (s.goTo call place) slot fn d :=
  .inr ⟨call, (s.goTo_self call place).symm ▸ h⟩

/-- A callback that is set while a device is connected was asked for that device, or hears of it
in another way. A selection does not move away from a connected device, unless the callbacks
hear of the new one. -/
def Careful (pre : List (Event φ)) : Event φ → Prop
  | .install call => ∀ slot fn d, (pluginAfter pre).calls call = .asked slot (some fn) d →
      (pluginAfter pre).connected_device ≠ "" → d = (pluginAfter pre).connected_device ∨
        Due (pluginAfter pre) slot fn (pluginAfter pre).connected_device
  | .session (.set_user_selected_machine d) =>
    (pluginAfter pre).session_state.printer_connected_ = true → d ≠ "" → ∀ slot fn,
      (pluginAfter pre).callbacks slot = some fn → Due (pluginAfter pre) slot fn d
  | .session (.set_config_dir d) =>
    (pluginAfter pre).session_state.printer_connected_ = true → d ≠ "" → ∀ slot fn,
      (pluginAfter pre).callbacks slot = some fn → Due (pluginAfter pre) slot fn d
  | _ => True

/-! ## The sections -/

theorem connected_selected_device_eq (s : SessionState) :
    s.connected_selected_device = if s.printer_connected_ = true then s.selected_device_ else "" := by
  unfold SessionState.connected_selected_device
  by_cases hs : s.selected_device_ = ""
  · simp [hs]
  · cases hp : s.printer_connected_ with
    | false => simp
    | true => simp [hs]

/-- The other calls keep the connected device, or take it away. -/
theorem connected_after_call (s : SessionState) (c : Call) (hc : ∀ d, c ≠ .cb_connected d)
    (hselect : ∀ d, c ≠ .set_user_selected_machine d) (hload : ∀ d, c ≠ .set_config_dir d) :
    (call s c).1.connected_selected_device = s.connected_selected_device ∨
      (call s c).1.connected_selected_device = "" := by
  cases c with
  | set_config_dir loaded => exact absurd rfl (hload loaded)
  | set_user_selected_machine dev_id => exact absurd rfl (hselect dev_id)
  | connect_printer dev_id password =>
    simp only [call, connect_printer_state]
    rcases begin_connect_cases s dev_id with ⟨-, hs⟩ | hs
    · exact .inl (by rw [hs])
    · exact .inr (by rw [hs, connected_selected_device_eq]; rfl)
  | disconnect_printer => exact .inl (by simp [call])
  | user_logout => exact .inr rfl
  | cb_printer_available dev_id =>
    obtain ⟨hsel, hconn, -⟩ := printer_available_state s dev_id
    simp only [connected_selected_device_eq, call, hsel, hconn]
    exact .inl trivial
  | cb_connected dev_id => exact absurd rfl (hc dev_id)
  | cb_disconnected dev_id status =>
    exact .inr (by rw [connected_selected_device_eq]; rfl)

theorem noneMissed_install {es : List (Event φ)} {c : Nat} (he : Possible es (.install c))
    (h : NoneMissed es) : NoneMissed (es ++ [.install c]) ↔ Careful es (.install c) := by
  obtain ⟨slot, fn, d, hplace⟩ := he
  unfold NoneMissed at h ⊢
  rw [pluginAfter_snoc]
  simp only [stepEvent, hplace]
  constructor
  · intro hp slot' fn' d' hd' hconn
    rw [hplace] at hd'
    cases hd'
    have hdue : Due _ slot fn' (pluginAfter es).connected_device :=
      hp hconn slot fn' (Function.update_self ..)
    rcases hdue with htold | ⟨c', hc'⟩
    · exact .inr (.inl htold)
    · by_cases hcc : c' = c
      · subst hcc
        rw [Plugin.goTo_self] at hc'
        cases hc'
        exact .inl rfl
      · rw [Plugin.goTo_ne _ hcc] at hc'
        exact .inr (.inr ⟨c', hc'⟩)
  · intro ht hconn slot' fn' hfn'
    have hkeep : Due (pluginAfter es) slot' fn' (pluginAfter es).connected_device →
        Due ({ pluginAfter es with
          callbacks := Function.update (pluginAfter es).callbacks slot fn }.goTo c
            (.installed slot fn d)) slot' fn' (pluginAfter es).connected_device := by
      intro hdue
      refine hdue.step c _ (List.Subset.refl _) rfl fun hat => ?_
      rw [hplace] at hat
      cases hat
    by_cases hslot : slot' = slot
    · subst hslot
      have hset : Function.update (pluginAfter es).callbacks slot' fn slot' = some fn' := hfn'
      rw [Function.update_self] at hset
      subst hset
      rcases ht slot' fn' d hplace hconn with rfl | hdue
      · exact due_at .installed c
      · exact hkeep hdue
    · exact hkeep (h hconn slot' fn' ((Function.update_of_ne hslot ..).symm.trans hfn'))

/-- A section that keeps the connected device and the callbacks misses none, when its call does not
forget what it is on its way to do. -/
theorem noneMissed_of_kept {es : List (Event φ)} {e : Event φ} {c : Nat} {place : Place φ}
    {s' : Plugin φ} (hs : stepEvent (pluginAfter es) e = s'.goTo c place)
    (hframe : s'.connected_device = (pluginAfter es).connected_device ∧
      s'.callbacks = (pluginAfter es).callbacks ∧ s'.calls = (pluginAfter es).calls ∧
      (pluginAfter es).told ⊆ s'.told)
    (hcall : ∀ slot fn d, d ≠ "" → (pluginAfter es).callbacks slot = some fn →
      DueAt slot fn d ((pluginAfter es).calls c) → Due (s'.goTo c place) slot fn d)
    (h : NoneMissed es) : NoneMissed (es ++ [e]) := by
  obtain ⟨hconnected, hcallbacks, hcalls, htold⟩ := hframe
  have hdev : (s'.goTo c place).connected_device = (pluginAfter es).connected_device := hconnected
  unfold NoneMissed at h ⊢
  rw [pluginAfter_snoc, hs, hdev]
  intro hconn slot fn hfn
  have hfn' : (pluginAfter es).callbacks slot = some fn := hcallbacks ▸ hfn
  refine (h hconn slot fn hfn').step c place htold ?_ (hcall slot fn _ hconn hfn')
  rw [Plugin.goTo, hcalls]

theorem noneMissed_signal {es : List (Event φ)} {c : Nat} (he : Possible es (.signal c))
    (h : NoneMissed es) : NoneMissed (es ++ [.signal c]) := by
  obtain ⟨slot, fn, d, hplace⟩ := he
  by_cases hd : d = ""
  · have hs : stepEvent (pluginAfter es) (.signal c) = (pluginAfter es).goTo c .returned := by
      simp [stepEvent, hplace, hd]
    refine noneMissed_of_kept hs ⟨rfl, rfl, rfl, List.Subset.refl _⟩ ?_ h
    intro slot' fn' d' hne _ hat
    rw [hplace] at hat
    cases hat
    exact absurd hd hne
  · have hs : stepEvent (pluginAfter es) (.signal c) =
        ((pluginAfter es).tell slot fn d).goTo c .returned := by
      simp [stepEvent, hplace, hd]
    refine noneMissed_of_kept hs (Plugin.tell_frame _ slot fn d) ?_ h
    intro slot' fn' d' _ _ hat
    rw [hplace] at hat
    cases hat
    exact .inl (Plugin.mem_tell _ _ _ _)

theorem noneMissed_deliver {es : List (Event φ)} {c : Nat} (he : Possible es (.deliver c))
    (h : NoneMissed es) : NoneMissed (es ++ [.deliver c]) := by
  obtain ⟨callbacks, d, hplace⟩ := he
  obtain ⟨hdev, hcallbacks, hcalls, htold⟩ := (pluginAfter es).tell_frame
    .on_printer_connected (callbacks .on_printer_connected) d
  obtain ⟨hdev', hcallbacks', hcalls', htold'⟩ := ((pluginAfter es).tell
    .on_printer_connected (callbacks .on_printer_connected) d).tell_frame
    .on_local_connect (callbacks .on_local_connect) d
  have hs : stepEvent (pluginAfter es) (.deliver c) =
      (((pluginAfter es).tell .on_printer_connected (callbacks .on_printer_connected) d).tell
        .on_local_connect (callbacks .on_local_connect) d).goTo c .returned := by
    simp [stepEvent, hplace]
  refine noneMissed_of_kept hs ⟨hdev'.trans hdev, hcallbacks'.trans hcallbacks,
    hcalls'.trans hcalls, fun x hx => htold' (htold hx)⟩ ?_ h
  intro slot fn d' _ _ hat
  rw [hplace] at hat
  cases hat with
  | copied hcopied =>
    cases slot with
    | on_printer_connected => exact .inl (htold' (hcopied ▸ Plugin.mem_tell ..))
    | on_local_connect => exact .inl (hcopied ▸ Plugin.mem_tell ..)

/-- A selection shows a connected device only while the connected flag is set. -/
theorem due_selected {s : Plugin φ} {session_state : SessionState} {d : String}
    (hsel : session_state.selected_device_ = d)
    (hconn : session_state.printer_connected_ = s.session_state.printer_connected_) :
    (session_state.connected_selected_device ≠ "" → ∀ slot fn, s.callbacks slot = some fn →
      Due s slot fn session_state.connected_selected_device) ↔
    (s.session_state.printer_connected_ = true → d ≠ "" → ∀ slot fn,
      s.callbacks slot = some fn → Due s slot fn d) := by
  rw [connected_selected_device_eq, hsel, hconn]
  by_cases hp : s.session_state.printer_connected_ = true
  · rw [if_pos hp]
    exact ⟨fun ht _ => ht, fun ht => ht hp⟩
  · rw [if_neg hp]
    exact iff_of_true (fun hne => absurd rfl hne) fun hp' => absurd hp' hp

theorem noneMissed_session {es : List (Event φ)} {c : Call} (he : Possible es (.session c))
    (h : NoneMissed es) : NoneMissed (es ++ [.session c]) ↔ Careful es (.session c) := by
  have hpost : NoneMissed (es ++ [.session c]) ↔
      ((call (pluginAfter es).session_state c).1.connected_selected_device ≠ "" → ∀ slot fn,
        (pluginAfter es).callbacks slot = some fn → Due (pluginAfter es) slot fn
          (call (pluginAfter es).session_state c).1.connected_selected_device) := by
    unfold NoneMissed
    rw [pluginAfter_snoc]
    rfl
  rw [hpost]
  by_cases hselect : ∃ d, c = .set_user_selected_machine d
  · obtain ⟨d, rfl⟩ := hselect
    exact due_selected rfl rfl
  · by_cases hload : ∃ d, c = .set_config_dir d
    · obtain ⟨d, rfl⟩ := hload
      simp only [call, bambu_network_set_config_dir]
      by_cases hd : d = ""
      · rw [if_pos hd]
        exact iff_of_true h fun _ hne => absurd hd hne
      · rw [if_neg hd]
        exact due_selected rfl rfl
    · have hcareful : Careful es (.session c) := by
        cases c with
        | set_user_selected_machine d => exact absurd ⟨d, rfl⟩ hselect
        | set_config_dir d => exact absurd ⟨d, rfl⟩ hload
        | _ => trivial
      refine iff_of_true ?_ hcareful
      rcases connected_after_call (pluginAfter es).session_state c he.1
        (fun d hd => hselect ⟨d, hd⟩) (fun d hd => hload ⟨d, hd⟩) with hsame | hnone
      · rw [hsame]
        exact h
      · rw [hnone]
        exact fun hne => absurd rfl hne

theorem noneMissed_available {es : List (Event φ)} {c : Nat} {dev_id : String}
    (he : Possible es (.cb_printer_available c dev_id)) (h : NoneMissed es) :
    NoneMissed (es ++ [.cb_printer_available c dev_id]) := by
  have hcall : (pluginAfter es).calls c = .returned := he
  obtain ⟨hsel, hconn, -⟩ := printer_available_state (pluginAfter es).session_state dev_id
  have hdev : (connect_selected_device_if_pending (pluginAfter es).session_state
      dev_id).1.connected_selected_device = (pluginAfter es).connected_device := by
    rw [Plugin.connected_device, connected_selected_device_eq, connected_selected_device_eq, hsel,
      hconn]
  have hs : ∃ place, stepEvent (pluginAfter es) (.cb_printer_available c dev_id) =
      { pluginAfter es with session_state := (connect_selected_device_if_pending
        (pluginAfter es).session_state dev_id).1 }.goTo c place := by
    simp only [stepEvent]
    split
    · rename_i heq
      rw [heq]
      exact ⟨_, rfl⟩
    · rename_i heq
      rw [heq]
      exact ⟨_, rfl⟩
  obtain ⟨place, hs⟩ := hs
  refine noneMissed_of_kept hs ⟨hdev, rfl, rfl, List.Subset.refl _⟩ ?_ h
  intro slot fn d _ _ hat
  rw [hcall] at hat
  cases hat

theorem noneMissed_step (es : List (Event φ)) (e : Event φ) (he : Possible es e)
    (h : NoneMissed es) : NoneMissed (es ++ [e]) ↔ Careful es e := by
  cases e with
  | ask c slot fn =>
    have hcall : (pluginAfter es).calls c = .returned := he
    refine iff_of_true ?_ trivial
    refine noneMissed_of_kept rfl ⟨rfl, rfl, rfl, List.Subset.refl _⟩ ?_ h
    intro slot' fn' d _ _ hat
    rw [hcall] at hat
    cases hat
  | install c => exact noneMissed_install he h
  | signal c => exact iff_of_true (noneMissed_signal he h) trivial
  | cb_connected c d =>
    refine iff_of_true ?_ trivial
    unfold NoneMissed
    rw [pluginAfter_snoc]
    intro _ slot fn _
    have hdev : (stepEvent (pluginAfter es) (.cb_connected c d)).connected_device = d := by
      change ((pluginAfter es).session_state.mark_connected d).connected_selected_device = d
      rw [connected_selected_device_eq]
      rfl
    rw [hdev]
    exact due_at .dispatching c
  | cb_printer_available c dev_id => exact iff_of_true (noneMissed_available he h) trivial
  | copy c =>
    refine iff_of_true ?_ trivial
    obtain ⟨d, hplace⟩ := he
    have hs : stepEvent (pluginAfter es) (.copy c) =
        (pluginAfter es).goTo c (.copied (pluginAfter es).callbacks d) := by
      simp [stepEvent, hplace]
    refine noneMissed_of_kept hs ⟨rfl, rfl, rfl, List.Subset.refl _⟩ ?_ h
    intro slot fn d' _ hfn hat
    rw [hplace] at hat
    cases hat
    exact due_at (.copied hfn) c
  | deliver c => exact iff_of_true (noneMissed_deliver he h) trivial
  | session c => exact noneMissed_session he h

/-! ## The law -/

/-- In every run the connected device is due to each callback exactly when each event is careful.
When no call is under way, what is due was told. -/
theorem each_callback_hears_of_the_connected_printer (es : List (Event φ))
    (h : Steps Possible es) :
    (Always NoneMissed es ↔ Steps Careful es) ∧
    (Steps Careful es → (∀ call, (pluginAfter es).calls call = .returned) →
      (pluginAfter es).connected_device ≠ "" → ∀ slot fn,
        (pluginAfter es).callbacks slot = some fn →
          (slot, fn, (pluginAfter es).connected_device) ∈ (pluginAfter es).told) := by
  have hlaw : Always NoneMissed es ↔ Steps Careful es :=
    always_iff_steps (fun hne => absurd rfl hne)
      (fun es e _ he hes => noneMissed_step es e he hes.last) h
  refine ⟨hlaw, fun hcareful hidle hconn slot fn hfn => ?_⟩
  rcases (hlaw.mpr hcareful).last hconn slot fn hfn with htold | ⟨call, hat⟩
  · exact htold
  · rw [hidle call] at hat
    cases hat

/-- The call that takes the section. -/
def Event.caller : Event φ → Option Nat
  | .ask call _ _ => some call
  | .install call => some call
  | .signal call => some call
  | .cb_connected call _ => some call
  | .cb_printer_available call _ => some call
  | .copy call => some call
  | .deliver call => some call
  | .session _ => none

/-- A section moves its own call only. -/
theorem calls_of_step (s : Plugin φ) (e : Event φ) {c : Nat} (h : e.caller ≠ some c) :
    (stepEvent s e).calls c = s.calls c := by
  cases e with
  | ask call slot fn => exact s.goTo_ne (fun hc => h (congrArg some hc.symm)) _
  | cb_connected call d => exact Plugin.goTo_ne _ (fun hc => h (congrArg some hc.symm)) _
  | session c => rfl
  | cb_printer_available call dev_id =>
    have hne : c ≠ call := fun hc => h (congrArg some hc.symm)
    simp only [stepEvent]
    split
    · exact Plugin.goTo_ne _ hne _
    · exact Plugin.goTo_ne _ hne _
  | install call =>
    have hne : c ≠ call := fun hc => h (congrArg some hc.symm)
    simp only [stepEvent]
    split
    · exact Plugin.goTo_ne _ hne _
    · rfl
  | signal call =>
    have hne : c ≠ call := fun hc => h (congrArg some hc.symm)
    simp only [stepEvent]
    split
    · split_ifs
      · exact Plugin.goTo_ne _ hne _
      · rw [Plugin.goTo_ne _ hne, (s.tell_frame _ _ _).2.2.1]
    · rfl
  | copy call =>
    have hne : c ≠ call := fun hc => h (congrArg some hc.symm)
    simp only [stepEvent]
    split
    · exact Plugin.goTo_ne _ hne _
    · rfl
  | deliver call =>
    have hne : c ≠ call := fun hc => h (congrArg some hc.symm)
    simp only [stepEvent]
    split
    · rw [Plugin.goTo_ne _ hne, (Plugin.tell_frame _ _ _ _).2.2.1, (s.tell_frame _ _ _).2.2.1]
    · rfl

theorem calls_of_run {es : List (Event φ)} {c : Nat} (h : ∀ e ∈ es, e.caller ≠ some c) :
    (pluginAfter es).calls c = .returned := by
  induction es using List.reverseRecOn with
  | nil => rfl
  | append_singleton es e ih =>
    rw [pluginAfter_snoc, calls_of_step _ _ (h e (by simp))]
    exact ih fun e' he' => h e' (List.mem_append_left _ he')

/-- Two calls that have returned are all there are. -/
theorem idle_of_two {es : List (Event φ)} (h0 : (pluginAfter es).calls 0 = .returned)
    (h1 : (pluginAfter es).calls 1 = .returned)
    (h : ∀ e ∈ es, e.caller = some 0 ∨ e.caller = some 1) (call : Nat) :
    (pluginAfter es).calls call = .returned := by
  by_cases heq : ∃ e ∈ es, e.caller = some call
  · obtain ⟨e, he, hcall⟩ := heq
    rcases h e he with hcaller | hcaller
    · cases hcaller.symm.trans hcall
      exact h0
    · cases hcaller.symm.trans hcall
      exact h1
  · exact calls_of_run fun e he hcall => heq ⟨e, he, hcall⟩

/-- The callback is set before the printer is connected. -/
def heardRun : List (Event Unit) :=
  [.ask 1 .on_local_connect (some ()), .install 1, .signal 1, .cb_connected 0 "A1", .copy 0,
    .deliver 0]

theorem possible_heardRun : Steps Possible heardRun := by
  refine (steps_snoc _ [_, _, _, _, _] _).mpr ⟨?_, _, "A1", rfl⟩
  refine (steps_snoc _ [_, _, _, _] _).mpr ⟨?_, "A1", rfl⟩
  refine (steps_snoc _ [_, _, _] _).mpr ⟨?_, rfl⟩
  refine (steps_snoc _ [_, _] _).mpr ⟨?_, .on_local_connect, some (), "", rfl⟩
  refine (steps_snoc _ [_] _).mpr ⟨?_, .on_local_connect, some (), "", rfl⟩
  exact (steps_snoc _ [] _).mpr ⟨steps_nil _, rfl⟩

theorem careful_heardRun : Steps Careful heardRun := by
  refine (steps_snoc _ [_, _, _, _, _] _).mpr ⟨?_, trivial⟩
  refine (steps_snoc _ [_, _, _, _] _).mpr ⟨?_, trivial⟩
  refine (steps_snoc _ [_, _, _] _).mpr ⟨?_, trivial⟩
  refine (steps_snoc _ [_, _] _).mpr ⟨?_, trivial⟩
  -- no device is connected when the callback is set
  refine (steps_snoc _ [_] _).mpr ⟨?_, fun _ _ _ _ hconn => absurd rfl hconn⟩
  exact (steps_snoc _ [] _).mpr ⟨steps_nil _, trivial⟩

/-- The registration asks before the printer is connected, and sets the callback behind the copy
of the callbacks. -/
def missedRun : List (Event Unit) :=
  [.ask 1 .on_local_connect (some ()), .cb_connected 0 "A1", .copy 0, .deliver 0, .install 1,
    .signal 1]

theorem possible_missedRun : Steps Possible missedRun := by
  refine (steps_snoc _ [_, _, _, _, _] _).mpr ⟨?_, .on_local_connect, some (), "", rfl⟩
  refine (steps_snoc _ [_, _, _, _] _).mpr ⟨?_, .on_local_connect, some (), "", rfl⟩
  refine (steps_snoc _ [_, _, _] _).mpr ⟨?_, _, "A1", rfl⟩
  refine (steps_snoc _ [_, _] _).mpr ⟨?_, "A1", rfl⟩
  refine (steps_snoc _ [_] _).mpr ⟨?_, rfl⟩
  exact (steps_snoc _ [] _).mpr ⟨steps_nil _, rfl⟩

/-- The callback that was there in time is told. The callback that is set in the end was told
nothing, and no call is on its way to it. -/
theorem the_early_callback_hears_and_the_late_one_misses :
    (.on_local_connect, (), "A1") ∈ (pluginAfter heardRun).told ∧
    ¬ Steps Careful missedRun ∧ (pluginAfter missedRun).connected_device = "A1" ∧
      (pluginAfter missedRun).told = [] := by
  refine ⟨?_, fun hcareful => ?_, rfl, rfl⟩
  · exact (each_callback_hears_of_the_connected_printer heardRun possible_heardRun).2
      careful_heardRun (idle_of_two rfl rfl (by simp [heardRun, Event.caller])) (by decide)
      .on_local_connect () rfl
  · have htold := (each_callback_hears_of_the_connected_printer missedRun possible_missedRun).2
      hcareful (idle_of_two rfl rfl (by simp [missedRun, Event.caller])) (by decide)
      .on_local_connect () rfl
    exact absurd htold List.not_mem_nil

end bambu_farm_client.connected_callbacks
