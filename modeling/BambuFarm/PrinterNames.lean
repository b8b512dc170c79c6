-- The names that a user gives while printers are announced (`api.cpp`). An announcement takes
-- its name in one locked section and is stored in another one, a rename sets the name, reads
-- the text of the printer, puts the name into it and stores it, each in a section of its own.
import BambuFarm.CallbackRegistry
import BambuFarm.NameOverrides

open json search runs tables
open bambu_farm_client.printer_metadata bambu_farm_client.print_job
open bambu_farm_client.callback_registry (Registry)

namespace bambu_farm_client.printer_names

variable {φ : Type}

/-! ## The calls -/

/-- Where a call stands. Between two sections it holds no lock. -/
inductive Place (φ : Type)
  | returned
  /-- The announcement has its name. -/
  | effective (json : Text)
  /-- The name is set. -/
  | overridden (dev_id : Text)
  /-- The text of the printer is read. -/
  | read (dev_id last_json : Text)
  /-- The name is put into the text. -/
  | updated (dev_id updated_json : Text)
  /-- The text is stored. -/
  | remembered (json : Text)
  | dispatching (callback : Option φ) (json : Text)
  | replaying (fn : φ) (rest : List Text)

/-- The names, the texts, and what the callbacks were called with. -/
structure Plugin (φ : Type) where
  overrides : Overrides
  on_msg_arrived : Option φ
  last_printer_json_by_id : Text → Option Text
  /-- The announcement of each printer that was stored last. -/
  announced : Text → Option Text
  calls : Nat → Place φ
  passed : List (φ × Text)

def dev_id_of (json : Text) : Text := json_string_field json (ascii "dev_id")

def opened (saved : Option Text) : Plugin φ where
  overrides := load_printer_name_overrides saved
  on_msg_arrived := none
  last_printer_json_by_id := fun _ => none
  announced := fun _ => none
  calls := fun _ => .returned
  passed := []

namespace Plugin

variable (s : Plugin φ)

def goTo (call : Nat) (place : Place φ) : Plugin φ :=
  { s with calls := Function.update s.calls call place }

def remember_printer_json (dev_id json : Text) : Plugin φ :=
  if dev_id = [] then s
  else { s with
    last_printer_json_by_id := Function.update s.last_printer_json_by_id dev_id (some json) }

def note_announced (dev_id json : Text) : Plugin φ :=
  { s with announced := Function.update s.announced dev_id (some json) }

/-- The call of a callback that may be empty. -/
def pass (callback : Option φ) (json : Text) : Plugin φ :=
  match callback with
  | none => s
  | some fn => { s with passed := s.passed ++ [(fn, json)] }

@[simp] theorem goTo_self (call : Nat) (place : Place φ) : (s.goTo call place).calls call = place :=
  Function.update_self ..

@[simp] theorem goTo_ne {call c : Nat} (h : c ≠ call) (place : Place φ) :
    (s.goTo call place).calls c = s.calls c :=
  Function.update_of_ne h ..

theorem remember_frame (dev_id json : Text) :
    (s.remember_printer_json dev_id json).overrides = s.overrides ∧
    (s.remember_printer_json dev_id json).announced = s.announced ∧
    (s.remember_printer_json dev_id json).calls = s.calls := by
  unfold remember_printer_json
  split_ifs
  · exact ⟨rfl, rfl, rfl⟩
  · exact ⟨rfl, rfl, rfl⟩

theorem remember_last {dev_id : Text} (h : dev_id ≠ []) (json d : Text) :
    (s.remember_printer_json dev_id json).last_printer_json_by_id d =
      if d = dev_id then some json else s.last_printer_json_by_id d := by
  rw [remember_printer_json, if_neg h]
  exact Function.update_apply ..

end Plugin

/-- The sections of the calls. -/
inductive Event (φ : Type)
  /-- `bambu_network_cb_printer_available` begins, and looks up the name. -/
  | announce (call : Nat) (json : Text)
  /-- `bambu_network_modify_printer_name` begins, and sets the name. -/
  | rename (call : Nat) (dev_id dev_name : Text)
  | read (call : Nat)
  | update (call : Nat)
  | remember (call : Nat)
  | dispatch (call : Nat)
  /-- The callback returns, and the call with it. -/
  | deliver (call : Nat)
  /-- `set_ssdp_callback` begins. The copy lists its entries in some order. -/
  | register (call : Nat) (fn : Option φ) (order : List (Text × Text))
  | replay (call : Nat)
  | refresh (call : Nat)

def replayPlace (order : List (Text × Text)) : Option φ → Place φ
  | none => .returned
  | some fn => .replaying fn (order.map Prod.snd)

/-- The rename of a printer without a text ends when it finds none. -/
def readPlace (dev_id last_json : Text) : Place φ :=
  if last_json = [] then .returned else .read dev_id last_json

def updatedPlace (updated_json : Text) : Place φ :=
  if updated_json = [] then .returned else .remembered updated_json

def stepEvent (s : Plugin φ) : Event φ → Plugin φ
  | .announce call json => s.goTo call (.effective (apply_name_override s.overrides json))
  | .rename call dev_id dev_name =>
    { s with overrides := set_name s.overrides dev_id dev_name }.goTo call (.overridden dev_id)
  | .read call =>
    match s.calls call with
    | .overridden dev_id =>
      s.goTo call (readPlace dev_id ((s.last_printer_json_by_id dev_id).getD []))
    | _ => s
  | .update call =>
    match s.calls call with
    | .read dev_id last_json =>
      s.goTo call (.updated dev_id (apply_name_override s.overrides last_json))
    | _ => s
  | .remember call =>
    match s.calls call with
    | .effective json =>
      ((s.remember_printer_json (dev_id_of json) json).note_announced (dev_id_of json) json).goTo
        call (.remembered json)
    | .updated dev_id updated_json =>
      (s.remember_printer_json dev_id updated_json).goTo call (updatedPlace updated_json)
    | _ => s
  | .dispatch call =>
    match s.calls call with
    | .remembered json => s.goTo call (.dispatching s.on_msg_arrived json)
    | _ => s
  | .deliver call =>
    match s.calls call with
    | .dispatching callback json => (s.pass callback json).goTo call .returned
    | _ => s
  | .register call fn order => { s with on_msg_arrived := fn }.goTo call (replayPlace order fn)
  | .replay call =>
    match s.calls call with
    | .replaying fn (json :: rest) => (s.pass (some fn) json).goTo call (.replaying fn rest)
    | _ => s
  | .refresh call =>
    match s.calls call with
    | .replaying _ [] => s.goTo call .returned
    | _ => s

def pluginAfter (saved : Option Text) (es : List (Event φ)) : Plugin φ :=
  after stepEvent (opened saved) es

/-- The JSON of an object without quotes and backslashes in its keys. -/
def IsObject (json : Text) : Prop :=
  ∃ ms, parse json = some (.obj ms) ∧ ∀ k, HasKey k (.obj ms) → quote ∉ k ∧ backslash ∉ k

/-- The call is at the section, and what is announced is an object. -/
def Possible (saved : Option Text) (es : List (Event φ)) : Event φ → Prop
  | .announce call json => (pluginAfter saved es).calls call = .returned ∧ IsObject json
  | .rename call _ _ => (pluginAfter saved es).calls call = .returned
  | .read call => ∃ dev_id, (pluginAfter saved es).calls call = .overridden dev_id
  | .update call => ∃ dev_id last_json,
      (pluginAfter saved es).calls call = .read dev_id last_json
  | .remember call => (∃ json, (pluginAfter saved es).calls call = .effective json) ∨
      ∃ dev_id json, (pluginAfter saved es).calls call = .updated dev_id json
  | .dispatch call => ∃ json, (pluginAfter saved es).calls call = .remembered json
  | .deliver call => ∃ callback json,
      (pluginAfter saved es).calls call = .dispatching callback json
  | .register call _ order => (pluginAfter saved es).calls call = .returned ∧
      Lists (pluginAfter saved es).last_printer_json_by_id order
  | .replay call => ∃ fn json rest,
      (pluginAfter saved es).calls call = .replaying fn (json :: rest)
  | .refresh call => ∃ fn, (pluginAfter saved es).calls call = .replaying fn []

/-! ## The law -/

/-- Names that printers had at some time of the run. -/
def WereNames (saved : Option Text) (es : List (Event φ)) (overrides : Overrides) : Prop :=
  ∃ pre, pre <+: es ∧ overrides = (pluginAfter saved pre).overrides

/-- An announcement of the printer, under names that printers had at some time. -/
def Version (saved : Option Text) (es : List (Event φ)) (dev_id json : Text) : Prop :=
  ∃ call announcement, .announce call announcement ∈ es ∧ dev_id_of announcement = dev_id ∧
    ∃ overrides, WereNames saved es overrides ∧ json = apply_name_override overrides announcement

/-- All calls have returned. -/
def Idle (s : Plugin φ) : Prop := ∀ call, s.calls call = .returned

/-- No printer is renamed while another call has a text of it that is not stored yet. -/
def Unhurried (saved : Option Text) (es : List (Event φ)) : Event φ → Prop
  | .rename _ dev_id _ => ∀ c json,
      ((pluginAfter saved es).calls c = .effective json → dev_id_of json ≠ dev_id) ∧
      (pluginAfter saved es).calls c ≠ .updated dev_id json
  | _ => True

/-- No announcement is stored while a rename has a text of its printer. -/
def Apart (saved : Option Text) (es : List (Event φ)) : Event φ → Prop
  | .remember call => ∀ json, (pluginAfter saved es).calls call = .effective json → ∀ c last_json,
      (pluginAfter saved es).calls c ≠ .read (dev_id_of json) last_json ∧
      (pluginAfter saved es).calls c ≠ .updated (dev_id_of json) last_json
  | _ => True

/-- What the texts of printers are after a run in which objects are announced. -/
structure NamesLaw (saved : Option Text) (es : List (Event φ)) : Prop where
  stored : ∀ dev_id json, (pluginAfter saved es).last_printer_json_by_id dev_id = some json →
    Version saved es dev_id json
  passed : ∀ fn json, (fn, json) ∈ (pluginAfter saved es).passed →
    Version saved es (dev_id_of json) json
  /-- The callback has seen every text as it is. -/
  seen : Idle (pluginAfter saved es) → ∀ fn, (pluginAfter saved es).on_msg_arrived = some fn →
    ∀ dev_id json, (pluginAfter saved es).last_printer_json_by_id dev_id = some json →
      (fn, json) ∈ (pluginAfter saved es).passed
  /-- Every text has the name that its printer has, if one is in force. -/
  current : Steps (Unhurried saved) es → Idle (pluginAfter saved es) →
    ∀ dev_id json, (pluginAfter saved es).last_printer_json_by_id dev_id = some json →
      apply_name_override (pluginAfter saved es).overrides json = json
  /-- Apart from the name, every text is the one that was announced last. -/
  latest : Steps (Apart saved) es →
    ∀ dev_id json, (pluginAfter saved es).last_printer_json_by_id dev_id = some json →
      ∃ announcement, (pluginAfter saved es).announced dev_id = some announcement ∧
        ∃ overrides, WereNames saved es overrides ∧
          json = apply_name_override overrides announcement

/-! ## Names put in one after the other -/

/-- The name and the id are those of members, if they are found at all. -/
structure Replaceable (j : Text) : Prop where
  dev_name : find_json_string_value_range j (ascii "dev_name") ≠ none →
    ∃ front value rest, FirstMember (ascii "dev_name") j front value rest
  dev_id : find_json_string_value_range j (ascii "dev_id") ≠ none →
    ∃ front value rest, FirstMember (ascii "dev_id") j front value rest

theorem replaceable_of_object {j : Text} (h : IsObject j) : Replaceable j := by
  obtain ⟨ms, hj, hkeys⟩ := h
  have hquote : ∀ k, HasKey k (.obj ms) → quote ∉ k := fun k hk => (hkeys k hk).1
  refine ⟨fun hrange => ?_, fun hrange => ?_⟩
  · exact firstMember_of_range (by decide) (by decide) hj hquote hrange
  · exact firstMember_of_range (by decide) (by decide) hj hquote hrange

/-- The text with another name in its member. -/
def renamed (front rest name : Text) : Text :=
  front ++ (needle (ascii "dev_name") ++ (json_escape name ++ quote :: rest))

section apply

variable {j front value rest name : Text} {m : Overrides}

theorem apply_of_shown (h : FirstMember (ascii "dev_name") j front value rest)
    (hname : shown m (dev_id_of j) = some name) :
    apply_name_override m j = renamed front rest name := by
  unfold dev_id_of at hname
  rw [apply_eq, hname, h.range_eq]
  exact h.replace_eq (json_escape name)

theorem renamed_first (h : FirstMember (ascii "dev_name") j front value rest) (name : Text) :
    FirstMember (ascii "dev_name") (renamed front rest name) front (json_escape name) rest :=
  h.replaced (escaped_json_escape name)

/-- The id stays where it was, with another name. -/
theorem renamed_dev_id (hj : Replaceable j) (h : FirstMember (ascii "dev_name") j front value rest)
    (hdev : dev_id_of j ≠ []) (name : Text) :
    ∃ idFront idRest,
      FirstMember (ascii "dev_id") (renamed front rest name) idFront (dev_id_of j) idRest := by
  obtain ⟨idFront, idValue, idRest, hid⟩ := hj.dev_id (field_ne_nil hdev)
  have hvalue : idValue = dev_id_of j := hid.field_eq.symm
  rw [← hvalue]
  exact FirstMember.other (by decide) (by decide) (by decide) (by decide) (by decide) (by decide) h
    hid (escaped_json_escape name)

/-- An override leaves the text as it is, or puts a name into its member. -/
theorem apply_cases (hj : Replaceable j) (m : Overrides) : apply_name_override m j = j ∨
    dev_id_of j ≠ [] ∧ ∃ name front value rest, FirstMember (ascii "dev_name") j front value rest ∧
      apply_name_override m j = renamed front rest name := by
  cases hname : shown m (dev_id_of j) with
  | none => exact .inl (apply_unnamed (.inl hname))
  | some name =>
    by_cases hrange : find_json_string_value_range j (ascii "dev_name") = none
    · exact .inl (apply_unnamed (.inr hrange))
    · obtain ⟨front, value, rest, hfirst⟩ := hj.dev_name hrange
      have hdev := (shown_eq_some.mp hname).1
      exact .inr ⟨hdev, name, front, value, rest, hfirst, apply_of_shown hfirst hname⟩

theorem dev_id_of_apply (hj : Replaceable j) (m : Overrides) :
    dev_id_of (apply_name_override m j) = dev_id_of j := by
  rcases apply_cases hj m with h | ⟨hdev, name, front, value, rest, hfirst, h⟩
  · rw [h]
  · obtain ⟨idFront, idRest, hid⟩ := renamed_dev_id hj hfirst hdev name
    rw [h]
    exact hid.field_eq

theorem replaceable_apply (hj : Replaceable j) (m : Overrides) :
    Replaceable (apply_name_override m j) := by
  rcases apply_cases hj m with h | ⟨hdev, name, front, value, rest, hfirst, h⟩
  · rwa [h]
  · obtain ⟨idFront, idRest, hid⟩ := renamed_dev_id hj hfirst hdev name
    rw [h]
    exact ⟨fun _ => ⟨_, _, _, renamed_first hfirst name⟩, fun _ => ⟨_, _, _, hid⟩⟩

/-- The last name counts, and a name that is taken back stays. -/
theorem apply_apply (hj : Replaceable j) (m m' : Overrides) :
    apply_name_override m' (apply_name_override m j) = apply_name_override m' j ∨
      apply_name_override m' (apply_name_override m j) = apply_name_override m j := by
  rcases apply_cases hj m with h | ⟨hdev, name, front, value, rest, hfirst, h⟩
  · rw [h]
    exact .inl rfl
  · cases hname : shown m' (dev_id_of j) with
    | none => exact .inr (apply_unnamed (.inl (by rw [← hname, ← dev_id_of_apply hj m]; rfl)))
    | some name' =>
      have hid := dev_id_of_apply hj m
      rw [h] at hid ⊢
      left
      rw [apply_of_shown (renamed_first hfirst name) (hid ▸ hname), apply_of_shown hfirst hname]

theorem apply_again (hj : Replaceable j) (m : Overrides) :
    apply_name_override m (apply_name_override m j) = apply_name_override m j :=
  (apply_apply hj m m).elim id id

/-- The name of another printer does not matter. -/
theorem apply_set_name {dev_id dev_name : Text} (hdev : dev_id_of j ≠ dev_id) (m : Overrides) :
    apply_name_override (set_name m dev_id dev_name) j = apply_name_override m j := by
  have hshown : shown (set_name m dev_id dev_name) (dev_id_of j) = shown m (dev_id_of j) := by
    simp only [shown, set_name, Function.update_of_ne hdev]
  unfold dev_id_of at hshown
  rw [apply_eq, apply_eq, hshown]

end apply

/-! ## Versions of announcements -/

section versions

variable {saved : Option Text} {es : List (Event φ)} {e : Event φ} {dev_id json : Text}
  {m : Overrides}

theorem pluginAfter_snoc :
    pluginAfter saved (es ++ [e]) = stepEvent (pluginAfter saved es) e :=
  after_snoc _ _ _ _

theorem WereNames.snoc (h : WereNames saved es m) : WereNames saved (es ++ [e]) m := by
  obtain ⟨pre, hpre, hm⟩ := h
  exact ⟨pre, hpre.trans (List.prefix_append _ _), hm⟩

theorem wereNames_now (saved : Option Text) (es : List (Event φ)) :
    WereNames saved es (pluginAfter saved es).overrides :=
  ⟨es, List.prefix_rfl, rfl⟩

theorem object_of_announced (h : Steps (Possible saved) es) {call : Nat}
    (hmem : .announce call json ∈ es) : IsObject json := by
  obtain ⟨i, hi, hget⟩ := List.getElem_of_mem hmem
  have hstep := h i hi
  rw [hget] at hstep
  exact hstep.2

theorem Version.snoc (h : Version saved es dev_id json) : Version saved (es ++ [e]) dev_id json := by
  obtain ⟨call, announcement, hmem, hdev, m, hm, hjson⟩ := h
  exact ⟨call, announcement, List.mem_append_left _ hmem, hdev, m, hm.snoc, hjson⟩

theorem Version.replaceable (h : Steps (Possible saved) es) (hv : Version saved es dev_id json) :
    Replaceable json ∧ dev_id_of json = dev_id := by
  obtain ⟨call, announcement, hmem, hdev, m, -, rfl⟩ := hv
  have hj := replaceable_of_object (object_of_announced h hmem)
  exact ⟨replaceable_apply hj m, (dev_id_of_apply hj m).trans hdev⟩

/-- A version with another name is a version. -/
theorem Version.apply (h : Steps (Possible saved) es) (hv : Version saved es dev_id json)
    (hm : WereNames saved es m) : Version saved es dev_id (apply_name_override m json) := by
  obtain ⟨call, announcement, hmem, hdev, m', hm', rfl⟩ := hv
  have hj := replaceable_of_object (object_of_announced h hmem)
  rcases apply_apply hj m' m with happly | happly
  · exact ⟨call, announcement, hmem, hdev, m, hm, happly⟩
  · exact ⟨call, announcement, hmem, hdev, m', hm', happly⟩

end versions

/-! ## Where the texts are -/

/-- The call has a text of the printer. -/
inductive Carries : Place φ → Text → Text → Prop
  | effective (json : Text) : Carries (.effective json) (dev_id_of json) json
  | read (dev_id json : Text) : Carries (.read dev_id json) dev_id json
  | updated (dev_id json : Text) : Carries (.updated dev_id json) dev_id json
  | remembered (json : Text) : Carries (.remembered json) (dev_id_of json) json
  | dispatching (callback : Option φ) (json : Text) :
      Carries (.dispatching callback json) (dev_id_of json) json
  | replaying {fn : φ} {rest : List Text} {json : Text} (h : json ∈ rest) :
      Carries (.replaying fn rest) (dev_id_of json) json

/-- Every text is one that its printer can have. -/
structure Sound (V : Text → Text → Prop) (s : Plugin φ) : Prop where
  stored : ∀ dev_id json, s.last_printer_json_by_id dev_id = some json → dev_id ≠ [] ∧ V dev_id json
  carried : ∀ call dev_id json, Carries (s.calls call) dev_id json → V dev_id json
  passed : ∀ fn json, (fn, json) ∈ s.passed → V (dev_id_of json) json

namespace Sound

variable {V : Text → Text → Prop} {s : Plugin φ} {call : Nat}

theorem mono {W : Text → Text → Prop} (h : Sound V s) (hVW : ∀ d t, V d t → W d t) : Sound W s where
  stored := fun d t ht => ⟨(h.stored d t ht).1, hVW d t (h.stored d t ht).2⟩
  carried := fun c d t ht => hVW d t (h.carried c d t ht)
  passed := fun fn t ht => hVW _ t (h.passed fn t ht)

theorem goTo {place : Place φ} (h : Sound V s) (hplace : ∀ d t, Carries place d t → V d t) :
    Sound V (s.goTo call place) := by
  refine ⟨h.stored, fun c d t ht => ?_, h.passed⟩
  by_cases hc : c = call
  · rw [hc, Plugin.goTo_self] at ht
    exact hplace d t ht
  · rw [Plugin.goTo_ne _ hc] at ht
    exact h.carried c d t ht

theorem remember {dev_id json : Text} (h : Sound V s) (hjson : V dev_id json) :
    Sound V (s.remember_printer_json dev_id json) := by
  by_cases hdev : dev_id = []
  · rwa [Plugin.remember_printer_json, if_pos hdev]
  · have hlast := s.remember_last hdev json
    rw [Plugin.remember_printer_json, if_neg hdev] at hlast ⊢
    refine ⟨fun d t ht => ?_, h.carried, h.passed⟩
    rw [hlast] at ht
    split_ifs at ht with hd
    · cases ht
      exact ⟨hd ▸ hdev, hd ▸ hjson⟩
    · exact h.stored d t ht

theorem pass {json : Text} (h : Sound V s) (hjson : V (dev_id_of json) json) (callback : Option φ) :
    Sound V (s.pass callback json) := by
  cases callback with
  | none => exact h
  | some fn =>
    refine ⟨h.stored, h.carried, fun f t ht => ?_⟩
    rcases List.mem_append.mp ht with ht | ht
    · exact h.passed f t ht
    · rw [List.mem_singleton, Prod.mk.injEq] at ht
      rw [ht.2]
      exact hjson

end Sound

section sound

variable {saved : Option Text} {es : List (Event φ)} {e : Event φ}

theorem sound_step (hes : Steps (Possible saved) es) (he : Possible saved es e)
    (h : Sound (Version saved es) (pluginAfter saved es)) :
    Sound (Version saved (es ++ [e])) (stepEvent (pluginAfter saved es) e) := by
  have hdev : ∀ d t, Version saved es d t → dev_id_of t = d :=
    fun d t hv => (hv.replaceable hes).2
  have hnow := wereNames_now saved es
  have hold := h.mono fun d t (hv : Version saved es d t) => hv.snoc (e := e)
  unfold Possible at he
  cases e with
  | announce call json =>
    refine hold.goTo fun d t ht => ?_
    cases ht
    have hj := replaceable_of_object he.2
    exact ⟨call, json, List.mem_append_right _ (List.mem_singleton_self _),
      (dev_id_of_apply hj _).symm, _, hnow.snoc, rfl⟩
  | rename call dev_id dev_name =>
    have hnamed : Sound (Version saved (es ++ [.rename call dev_id dev_name]))
        { pluginAfter saved es with
          overrides := set_name (pluginAfter saved es).overrides dev_id dev_name } :=
      ⟨hold.stored, hold.carried, hold.passed⟩
    refine hnamed.goTo fun d t ht => ?_
    cases ht
  | read call =>
    obtain ⟨dev_id, hplace⟩ := he
    simp only [stepEvent, hplace]
    refine hold.goTo fun d t ht => ?_
    unfold readPlace at ht
    split_ifs at ht with hempty
    · cases ht
    · cases ht
      cases hlast : (pluginAfter saved es).last_printer_json_by_id dev_id with
      | none => exact absurd (by rw [hlast]; rfl) hempty
      | some json => exact (hold.stored dev_id json hlast).2
  | update call =>
    obtain ⟨dev_id, last_json, hplace⟩ := he
    simp only [stepEvent, hplace]
    refine hold.goTo fun d t ht => ?_
    cases ht
    have hlast := h.carried call dev_id last_json (hplace ▸ .read dev_id last_json)
    exact (hlast.apply hes hnow).snoc
  | remember call =>
    rcases he with ⟨json, hplace⟩ | ⟨dev_id, json, hplace⟩
    · simp only [stepEvent, hplace]
      have hjson := hold.carried call _ json (hplace ▸ Carries.effective json)
      have hstored := hold.remember hjson
      refine Sound.goTo ⟨hstored.stored, hstored.carried, hstored.passed⟩ fun d t ht => ?_
      cases ht
      exact hjson
    · simp only [stepEvent, hplace]
      have hcarries := hplace ▸ Carries.updated dev_id json
      have hjson := hold.carried call dev_id json hcarries
      have hid := hdev dev_id json (h.carried call dev_id json hcarries)
      refine (hold.remember hjson).goTo fun d t ht => ?_
      unfold updatedPlace at ht
      split_ifs at ht
      · cases ht
      · cases ht
        rwa [hid]
  | dispatch call =>
    obtain ⟨json, hplace⟩ := he
    simp only [stepEvent, hplace]
    refine hold.goTo fun d t ht => ?_
    cases ht
    exact hold.carried call _ json (hplace ▸ .remembered json)
  | deliver call =>
    obtain ⟨callback, json, hplace⟩ := he
    simp only [stepEvent, hplace]
    have hjson := hold.carried call _ json (hplace ▸ Carries.dispatching callback json)
    refine (hold.pass hjson callback).goTo fun d t ht => ?_
    cases ht
  | register call fn order =>
    have hset : Sound (Version saved (es ++ [.register call fn order]))
        { pluginAfter saved es with on_msg_arrived := fn } :=
      ⟨hold.stored, hold.carried, hold.passed⟩
    refine hset.goTo fun d t ht => ?_
    cases fn with
    | none => cases ht
    | some fn =>
      cases ht with
      | replaying hmem =>
        obtain ⟨entry, hentry, rfl⟩ := List.mem_map.mp hmem
        have hlast := (he.2.mem entry.1 entry.2).mp hentry
        have hid := hdev _ _ (h.stored _ _ hlast).2
        rw [hid]
        exact (hold.stored _ _ hlast).2
  | replay call =>
    obtain ⟨fn, json, rest, hplace⟩ := he
    simp only [stepEvent, hplace]
    have hjson := hold.carried call _ json (hplace ▸ Carries.replaying List.mem_cons_self)
    refine (hold.pass hjson (some fn)).goTo fun d t ht => ?_
    cases ht with
    | replaying hmem =>
      exact hold.carried call _ t (hplace ▸ .replaying (List.mem_cons_of_mem _ hmem))
  | refresh call =>
    obtain ⟨fn, hplace⟩ := he
    simp only [stepEvent, hplace]
    refine hold.goTo fun d t ht => ?_
    cases ht

theorem sound_after (h : Steps (Possible saved) es) :
    Sound (Version saved es) (pluginAfter saved es) := by
  induction es using List.reverseRecOn with
  | nil =>
    refine ⟨fun d t ht => ?_, fun c d t ht => ?_, fun fn t ht => ?_⟩
    · cases ht
    · cases ht
    · cases ht
  | append_singleton es e ih =>
    rw [steps_snoc] at h
    rw [pluginAfter_snoc]
    exact sound_step h.1 h.2 (ih h.1)

end sound

/-! ## The registry behind the calls -/

/-- What the registry sees of a call. -/
def Place.shown : Place φ → callback_registry.Place φ
  | .remembered json => .remembered json
  | .dispatching callback json => .dispatching callback json
  | .replaying fn rest => .replaying fn rest
  | _ => .returned

def Plugin.registry (s : Plugin φ) : Registry φ where
  on_msg_arrived := s.on_msg_arrived
  last_printer_json_by_id := s.last_printer_json_by_id
  calls := fun call => (s.calls call).shown
  passed := s.passed

section registry

variable (s : Plugin φ) (call : Nat)

theorem registry_goTo (place : Place φ) :
    (s.goTo call place).registry = s.registry.goTo call place.shown := by
  have hcalls : (fun c => ((s.goTo call place).calls c).shown) =
      Function.update (fun c => (s.calls c).shown) call place.shown := by
    funext c
    by_cases hc : c = call
    · rw [hc, Plugin.goTo_self, Function.update_self]
    · rw [Plugin.goTo_ne _ hc, Function.update_of_ne hc]
  simp only [Plugin.registry, hcalls]
  rfl

/-- A section that the registry does not see. -/
theorem registry_goTo_same {place : Place φ} (h : place.shown = (s.calls call).shown) :
    (s.goTo call place).registry = s.registry := by
  rw [registry_goTo, Registry.goTo, h]
  have hsame : Function.update s.registry.calls call (s.calls call).shown = s.registry.calls :=
    Function.update_eq_self call s.registry.calls
  rw [hsame]

theorem registry_remember (dev_id json : Text) :
    (s.remember_printer_json dev_id json).registry =
      s.registry.remember_printer_json dev_id json := by
  unfold Plugin.remember_printer_json Registry.remember_printer_json
  split_ifs
  · rfl
  · rfl

theorem registry_pass (callback : Option φ) (json : Text) :
    (s.pass callback json).registry = s.registry.pass callback json := by
  cases callback with
  | none => rfl
  | some fn => rfl

/-- An announcement that is stored as it is. -/
theorem announced_plain (json : Text) :
    callback_registry.announced (fun _ => none) json = (dev_id_of json, json) := by
  have hplain : apply_name_override (fun _ => none) json = json :=
    apply_unnamed (.inl (by unfold shown; split_ifs <;> rfl))
  rw [callback_registry.announced, hplain]
  rfl

variable {s call} in
/-- A stored text is an announcement to the registry. -/
theorem registry_store {json : Text} {place : Place φ} (hplace : place = .remembered json) :
    ((s.remember_printer_json (dev_id_of json) json).goTo call place).registry =
      callback_registry.stepEvent s.registry (.announce call (fun _ => none) json) := by
  rw [hplace, registry_goTo, registry_remember, callback_registry.stepEvent, announced_plain]
  rfl

end registry

section simulation

variable {saved : Option Text} {es : List (Event φ)} {e : Event φ}

/-- A section does nothing to the registry, or what one of its events does. -/
theorem registry_step (hes : Steps (Possible saved) es) (he : Possible saved es e)
    {fs : List (callback_registry.Event φ)}
    (hfs : callback_registry.registryAfter fs = (pluginAfter saved es).registry) :
    (stepEvent (pluginAfter saved es) e).registry = (pluginAfter saved es).registry ∨
      ∃ f, callback_registry.Possible fs f ∧ (stepEvent (pluginAfter saved es) e).registry =
        callback_registry.stepEvent (pluginAfter saved es).registry f := by
  have hsound := sound_after hes
  have hcalls : ∀ {call place}, (pluginAfter saved es).calls call = place →
      (callback_registry.registryAfter fs).calls call = place.shown := by
    rintro call place rfl
    rw [hfs]
    rfl
  unfold Possible at he
  cases e with
  | announce call json =>
    left
    exact registry_goTo_same _ _ (by rw [he.1]; rfl)
  | rename call dev_id dev_name =>
    left
    exact registry_goTo_same { pluginAfter saved es with
      overrides := set_name (pluginAfter saved es).overrides dev_id dev_name } _ (by
        change _ = ((pluginAfter saved es).calls call).shown
        rw [he]
        rfl)
  | read call =>
    obtain ⟨dev_id, hplace⟩ := he
    left
    simp only [stepEvent, hplace]
    refine registry_goTo_same _ _ ?_
    rw [hplace]
    unfold readPlace
    split_ifs
    · rfl
    · rfl
  | update call =>
    obtain ⟨dev_id, last_json, hplace⟩ := he
    left
    simp only [stepEvent, hplace]
    exact registry_goTo_same _ _ (by rw [hplace]; rfl)
  | remember call =>
    rcases he with ⟨json, hplace⟩ | ⟨dev_id, json, hplace⟩
    · right
      refine ⟨.announce call (fun _ => none) json, hcalls hplace, ?_⟩
      simp only [stepEvent, hplace]
      exact registry_store rfl
    · have hjson := hsound.carried call dev_id json (hplace ▸ .updated dev_id json)
      have hid := (hjson.replaceable hes).2
      simp only [stepEvent, hplace]
      unfold updatedPlace
      split_ifs with hempty
      · have hnone : dev_id = [] := by rw [← hid, hempty]; rfl
        left
        rw [Plugin.remember_printer_json, if_pos hnone]
        exact registry_goTo_same _ _ (by rw [hplace]; rfl)
      · right
        refine ⟨.announce call (fun _ => none) json, hcalls hplace, ?_⟩
        rw [← hid]
        exact registry_store rfl
  | dispatch call =>
    obtain ⟨json, hplace⟩ := he
    right
    refine ⟨.dispatch call, ⟨json, hcalls hplace⟩, ?_⟩
    have hshown : (pluginAfter saved es).registry.calls call = .remembered json :=
      congrArg Place.shown hplace
    simp only [stepEvent, callback_registry.stepEvent, hplace, hshown]
    exact registry_goTo _ _ _
  | deliver call =>
    obtain ⟨callback, json, hplace⟩ := he
    right
    refine ⟨.deliver call, ⟨callback, json, hcalls hplace⟩, ?_⟩
    have hshown : (pluginAfter saved es).registry.calls call = .dispatching callback json :=
      congrArg Place.shown hplace
    simp only [stepEvent, callback_registry.stepEvent, hplace, hshown]
    rw [registry_goTo, registry_pass]
    rfl
  | register call fn order =>
    right
    refine ⟨.register call fn order, ⟨hcalls he.1, ?_⟩, ?_⟩
    · rw [hfs]
      exact he.2
    · rw [stepEvent, registry_goTo]
      cases fn with
      | none => rfl
      | some fn => rfl
  | replay call =>
    obtain ⟨fn, json, rest, hplace⟩ := he
    right
    refine ⟨.replay call, ⟨fn, json, rest, hcalls hplace⟩, ?_⟩
    have hshown : (pluginAfter saved es).registry.calls call = .replaying fn (json :: rest) :=
      congrArg Place.shown hplace
    simp only [stepEvent, callback_registry.stepEvent, hplace, hshown]
    rw [registry_goTo, registry_pass]
    rfl
  | refresh call =>
    obtain ⟨fn, hplace⟩ := he
    right
    refine ⟨.refresh call, ⟨fn, hcalls hplace⟩, ?_⟩
    have hshown : (pluginAfter saved es).registry.calls call = .replaying fn [] :=
      congrArg Place.shown hplace
    simp only [stepEvent, callback_registry.stepEvent, hplace, hshown]
    exact registry_goTo _ _ _

/-- The registry goes through a run of its own. -/
theorem registry_simulates (h : Steps (Possible saved) es) :
    ∃ fs, Steps callback_registry.Possible fs ∧
      callback_registry.registryAfter fs = (pluginAfter saved es).registry := by
  induction es using List.reverseRecOn with
  | nil => exact ⟨[], steps_nil _, rfl⟩
  | append_singleton es e ih =>
    rw [steps_snoc] at h
    obtain ⟨fs, hpossible, hfs⟩ := ih h.1
    rw [pluginAfter_snoc]
    rcases registry_step h.1 h.2 hfs with hsame | ⟨f, hf, hstep⟩
    · exact ⟨fs, hpossible, hfs.trans hsame.symm⟩
    · refine ⟨fs ++ [f], (steps_snoc _ _ _).mpr ⟨hpossible, hf⟩, ?_⟩
      rw [callback_registry.registryAfter_snoc, hfs, hstep]

/-- When all calls have returned, the callback has seen the texts as they are. -/
theorem seen_after (h : Steps (Possible saved) es) (hidle : Idle (pluginAfter saved es)) {fn : φ}
    (hfn : (pluginAfter saved es).on_msg_arrived = some fn) {dev_id json : Text}
    (hjson : (pluginAfter saved es).last_printer_json_by_id dev_id = some json) :
    (fn, json) ∈ (pluginAfter saved es).passed := by
  obtain ⟨fs, hpossible, hfs⟩ := registry_simulates h
  have hcovered := callback_registry.covered_of_possible hpossible
  rw [hfs] at hcovered
  have hreturned : ∀ call, (pluginAfter saved es).registry.calls call = .returned :=
    fun call => congrArg Place.shown (hidle call)
  cases hcovered fn hfn dev_id json hjson with
  | passed hmem => exact hmem
  | remembered call hplace => exact absurd ((hreturned call).symm.trans hplace) (by simp)
  | dispatching call hplace => exact absurd ((hreturned call).symm.trans hplace) (by simp)
  | replaying call rest hplace => exact absurd ((hreturned call).symm.trans hplace) (by simp)

end simulation

/-! ## Texts on their way to the callback -/

/-- The section only hands texts out. -/
def Event.Hands : Event φ → Prop
  | .dispatch _ | .deliver _ | .register .. | .replay _ | .refresh _ => True
  | _ => False

/-- The call does not look at the stored texts any more. -/
def Place.Done : Place φ → Prop
  | .returned | .remembered _ | .dispatching .. | .replaying .. => True
  | _ => False

/-- What is left of a state when a text was handed out. -/
structure Handed (s s' : Plugin φ) (call : Nat) (place : Place φ) : Prop where
  overrides : s'.overrides = s.overrides
  last : s'.last_printer_json_by_id = s.last_printer_json_by_id
  announced : s'.announced = s.announced
  calls : s'.calls = Function.update s.calls call place
  before : (s.calls call).Done
  behind : place.Done

theorem handed_pass {s : Plugin φ} {call : Nat} {place : Place φ} (callback : Option φ)
    (json : Text) (hbefore : (s.calls call).Done) (hbehind : place.Done) :
    Handed s ((s.pass callback json).goTo call place) call place := by
  cases callback with
  | none => exact ⟨rfl, rfl, rfl, rfl, hbefore, hbehind⟩
  | some fn => exact ⟨rfl, rfl, rfl, rfl, hbefore, hbehind⟩

theorem handed_step {saved : Option Text} {es : List (Event φ)} {e : Event φ}
    (he : Possible saved es e) (hhands : e.Hands) :
    ∃ call place, Handed (pluginAfter saved es) (stepEvent (pluginAfter saved es) e) call place := by
  unfold Possible at he
  cases e with
  | announce | rename | read | update | remember => cases hhands
  | dispatch call =>
    obtain ⟨json, hplace⟩ := he
    simp only [stepEvent, hplace]
    exact ⟨call, _, rfl, rfl, rfl, rfl, by rw [hplace]; trivial, trivial⟩
  | deliver call =>
    obtain ⟨callback, json, hplace⟩ := he
    simp only [stepEvent, hplace]
    exact ⟨call, _, handed_pass callback json (by rw [hplace]; trivial) trivial⟩
  | register call fn order =>
    refine ⟨call, replayPlace order fn, rfl, rfl, rfl, rfl, by rw [he.1]; trivial, ?_⟩
    cases fn with
    | none => trivial
    | some fn => trivial
  | replay call =>
    obtain ⟨fn, json, rest, hplace⟩ := he
    simp only [stepEvent, hplace]
    exact ⟨call, _, handed_pass (some fn) json (by rw [hplace]; trivial) trivial⟩
  | refresh call =>
    obtain ⟨fn, hplace⟩ := he
    simp only [stepEvent, hplace]
    exact ⟨call, _, rfl, rfl, rfl, rfl, by rw [hplace]; trivial, trivial⟩

end bambu_farm_client.printer_names
