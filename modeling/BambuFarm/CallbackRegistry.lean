-- The callback for discovered printers (`callback_registry.cpp`). An announcement is
-- stored in one locked section and handed out behind another one, a registration
-- takes its copy of what is stored in the section that sets the callback.
import BambuFarm.PrinterMetadata

open json tables runs
open bambu_farm_client.printer_metadata (Overrides apply_name_override json_string_field)

namespace bambu_farm_client.callback_registry

variable {φ : Type}

/-! ## The registry and its calls -/

/-- Where a call stands. Between two sections it holds no lock. -/
inductive Place (φ : Type)
  | returned
  /-- The announcement is stored. -/
  | remembered (json : Text)
  /-- The callback was copied, and is called with the announcement. -/
  | dispatching (callback : Option φ) (json : Text)
  /-- The registration passes the rest of its copy to the callback. -/
  | replaying (fn : φ) (rest : List Text)

/-- The registry, its calls, and what the callbacks were called with. -/
structure Registry (φ : Type) where
  on_msg_arrived : Option φ
  last_printer_json_by_id : Text → Option Text
  calls : Nat → Place φ
  passed : List (φ × Text)

def initial : Registry φ :=
  { on_msg_arrived := none, last_printer_json_by_id := fun _ => none, calls := fun _ => .returned,
    passed := [] }

namespace Registry

variable (s : Registry φ)

def goTo (call : Nat) (place : Place φ) : Registry φ :=
  { s with calls := Function.update s.calls call place }

def remember_printer_json (dev_id json : Text) : Registry φ :=
  if dev_id = [] then s
  else { s with
    last_printer_json_by_id := Function.update s.last_printer_json_by_id dev_id (some json) }

/-- The call of a callback that may be empty. -/
def pass (callback : Option φ) (json : Text) : Registry φ :=
  match callback with
  | none => s
  | some fn => { s with passed := s.passed ++ [(fn, json)] }

@[simp] theorem goTo_calls (call : Nat) (place : Place φ) :
    (s.goTo call place).calls = Function.update s.calls call place := rfl

@[simp] theorem goTo_on_msg_arrived (call : Nat) (place : Place φ) :
    (s.goTo call place).on_msg_arrived = s.on_msg_arrived := rfl

@[simp] theorem goTo_last_printer_json (call : Nat) (place : Place φ) :
    (s.goTo call place).last_printer_json_by_id = s.last_printer_json_by_id := rfl

@[simp] theorem goTo_passed (call : Nat) (place : Place φ) :
    (s.goTo call place).passed = s.passed := rfl

theorem pass_frame (callback : Option φ) (json : Text) :
    (s.pass callback json).on_msg_arrived = s.on_msg_arrived ∧
    (s.pass callback json).last_printer_json_by_id = s.last_printer_json_by_id ∧
    (s.pass callback json).calls = s.calls ∧ s.passed ⊆ (s.pass callback json).passed := by
  cases callback with
  | none => exact ⟨rfl, rfl, rfl, List.Subset.refl _⟩
  | some fn => exact ⟨rfl, rfl, rfl, List.subset_append_left _ _⟩

theorem remember_frame (dev_id json : Text) :
    (s.remember_printer_json dev_id json).on_msg_arrived = s.on_msg_arrived ∧
    (s.remember_printer_json dev_id json).calls = s.calls ∧
    (s.remember_printer_json dev_id json).passed = s.passed := by
  unfold remember_printer_json
  split_ifs
  · exact ⟨rfl, rfl, rfl⟩
  · exact ⟨rfl, rfl, rfl⟩

theorem remember_last (dev_id json : Text) :
    (s.remember_printer_json dev_id json).last_printer_json_by_id =
      if dev_id = [] then s.last_printer_json_by_id
      else Function.update s.last_printer_json_by_id dev_id (some json) := by
  unfold remember_printer_json
  split_ifs
  · rfl
  · rfl

end Registry

/-- The sections of the calls. -/
inductive Event (φ : Type)
  /-- `bambu_network_cb_printer_available` begins, with the names that printers have. -/
  | announce (call : Nat) (overrides : Overrides) (json : Text)
  | dispatch (call : Nat)
  /-- The callback returns, and the call with it. -/
  | deliver (call : Nat)
  /-- `set_ssdp_callback` begins. The copy lists its entries in some order. -/
  | register (call : Nat) (fn : Option φ) (order : List (Text × Text))
  | replay (call : Nat)
  /-- The refresh is asked for, and the call returns. -/
  | refresh (call : Nat)

/-- The JSON of an announcement, with the id that it is stored under. -/
def announced (overrides : Overrides) (json : Text) : Text × Text :=
  (json_string_field (apply_name_override overrides json) (ascii "dev_id"),
    apply_name_override overrides json)

/-- A callback that is not null sees the copy. -/
def replayPlace (order : List (Text × Text)) : Option φ → Place φ
  | none => .returned
  | some fn => .replaying fn (order.map Prod.snd)

def stepEvent (s : Registry φ) : Event φ → Registry φ
  | .announce call overrides json =>
    (s.remember_printer_json (announced overrides json).1 (announced overrides json).2).goTo call
      (.remembered (announced overrides json).2)
  | .dispatch call =>
    match s.calls call with
    | .remembered json => s.goTo call (.dispatching s.on_msg_arrived json)
    | _ => s
  | .deliver call =>
    match s.calls call with
    | .dispatching callback json => (s.pass callback json).goTo call .returned
    | _ => s
  | .register call fn order =>
    { s with on_msg_arrived := fn }.goTo call (replayPlace order fn)
  | .replay call =>
    match s.calls call with
    | .replaying fn (json :: rest) => (s.pass (some fn) json).goTo call (.replaying fn rest)
    | _ => s
  | .refresh call =>
    match s.calls call with
    | .replaying _ [] => s.goTo call .returned
    | _ => s

def registryAfter (es : List (Event φ)) : Registry φ := after stepEvent initial es

/-- The call is at the section. -/
def Possible (es : List (Event φ)) : Event φ → Prop
  | .announce call _ _ => (registryAfter es).calls call = .returned
  | .dispatch call => ∃ json, (registryAfter es).calls call = .remembered json
  | .deliver call => ∃ callback json, (registryAfter es).calls call = .dispatching callback json
  | .register call _ order => (registryAfter es).calls call = .returned ∧
      Lists (registryAfter es).last_printer_json_by_id order
  | .replay call => ∃ fn json rest, (registryAfter es).calls call = .replaying fn (json :: rest)
  | .refresh call => ∃ fn, (registryAfter es).calls call = .replaying fn []

/-! ## The law -/

/-- What an event stores. -/
def rememberedBy : Event φ → Option (Text × Text)
  | .announce _ overrides json =>
    if (announced overrides json).1 = [] then none else some (announced overrides json)
  | _ => none

/-- The JSON that was remembered last for a device. -/
def lastRemembered (es : List (Event φ)) (dev_id : Text) : Option Text :=
  ((es.filterMap rememberedBy).filter fun e => e.1 = dev_id).getLast?.map (·.2)

def installedBy : Event φ → Option (Option φ)
  | .register _ fn _ => some fn
  | _ => none

/-- The callback of the last registration. -/
def lastInstalled (es : List (Event φ)) : Option φ := (es.filterMap installedBy).getLast?.join

/-- When all calls have returned, the last callback has seen every printer as it is. -/
def NoneMissed (es : List (Event φ)) : Prop :=
  (∀ call, (registryAfter es).calls call = .returned) →
    ∀ fn, lastInstalled es = some fn → ∀ dev_id, dev_id ≠ [] →
      ∀ json, lastRemembered es dev_id = some json → (fn, json) ∈ (registryAfter es).passed

/-! ## What is on its way -/

/-- The callback was called with the JSON, or a call is on its way to do so. -/
inductive Due (s : Registry φ) (fn : φ) (json : Text) : Prop
  | passed (h : (fn, json) ∈ s.passed)
  | remembered (call : Nat) (h : s.calls call = .remembered json)
  | dispatching (call : Nat) (h : s.calls call = .dispatching (some fn) json)
  | replaying (call : Nat) (rest : List Text) (h : s.calls call = .replaying fn rest)
      (hmem : json ∈ rest)

/-- What is stored is due to the callback. -/
def Covered (s : Registry φ) : Prop :=
  ∀ fn, s.on_msg_arrived = some fn →
    ∀ dev_id json, s.last_printer_json_by_id dev_id = some json → Due s fn json

section step

variable {s s' : Registry φ} {fn : φ} {json : Text}

/-- What the call itself is on its way to do. -/
inductive DueAt (fn : φ) (json : Text) : Place φ → Prop
  | remembered : DueAt fn json (.remembered json)
  | dispatching : DueAt fn json (.dispatching (some fn) json)
  | replaying {rest : List Text} (h : json ∈ rest) : DueAt fn json (.replaying fn rest)

theorem DueAt.due (call : Nat) (h : DueAt fn json (s.calls call)) : Due s fn json := by
  generalize hplace : s.calls call = place at h
  cases h with
  | remembered => exact .remembered call hplace
  | dispatching => exact .dispatching call hplace
  | replaying h => exact .replaying call _ hplace h

/-- When one call takes a step, what the others are on their way to do stays. -/
theorem Due.step (h : Due s fn json) (call : Nat) (place : Place φ) (hpassed : s.passed ⊆ s'.passed)
    (hcalls : s'.calls = Function.update s.calls call place)
    (hcall : DueAt fn json (s.calls call) → Due s' fn json) : Due s' fn json := by
  have hplace : ∀ c, DueAt fn json (s.calls c) → Due s' fn json := by
    intro c hc
    by_cases heq : c = call
    · exact hcall (heq ▸ hc)
    · have hsame : s'.calls c = s.calls c := by rw [hcalls, Function.update_of_ne heq]
      exact DueAt.due c (hsame ▸ hc)
  cases h with
  | passed h => exact .passed (hpassed h)
  | remembered c h => exact hplace c (h ▸ .remembered)
  | dispatching c h => exact hplace c (h ▸ .dispatching)
  | replaying c rest h hmem => exact hplace c (h ▸ .replaying hmem)

end step

theorem covered_initial : Covered (initial : Registry φ) := by
  intro fn hfn
  cases hfn

section run

variable {es : List (Event φ)} {e : Event φ}

theorem registryAfter_snoc : registryAfter (es ++ [e]) = stepEvent (registryAfter es) e :=
  after_snoc _ _ _ _

/-- The callback is called with a JSON by the call at which it is due. -/
theorem covered_pass {s : Registry φ} (h : Covered s) {call : Nat} {place : Place φ}
    {callback : Option φ} {json : Text}
    (hcall : ∀ fn j, DueAt fn j (s.calls call) →
      callback = some fn ∧ json = j ∨ DueAt fn j place) :
    Covered ((s.pass callback json).goTo call place) := by
  obtain ⟨hcallback, hlast, hcalls, hpassed⟩ := s.pass_frame callback json
  intro fn hfn dev_id j hj
  rw [Registry.goTo_on_msg_arrived, hcallback] at hfn
  rw [Registry.goTo_last_printer_json, hlast] at hj
  refine (h fn hfn dev_id j hj).step call place hpassed ?_ fun hdue => ?_
  · rw [Registry.goTo_calls, hcalls]
  · rcases hcall fn j hdue with ⟨rfl, rfl⟩ | hplace
    · exact .passed (List.mem_append_right _ (List.mem_singleton_self _))
    · exact DueAt.due call (by simpa using hplace)

theorem covered_announce {s : Registry φ} (h : Covered s) {call : Nat}
    (hcall : s.calls call = .returned) (dev_id json : Text) :
    Covered ((s.remember_printer_json dev_id json).goTo call (.remembered json)) := by
  obtain ⟨hcallback, hcalls, hpassed⟩ := s.remember_frame dev_id json
  intro fn hfn d j hj
  rw [Registry.goTo_on_msg_arrived, hcallback] at hfn
  rw [Registry.goTo_last_printer_json, s.remember_last] at hj
  have hold : s.last_printer_json_by_id d = some j ∨ j = json := by
    split_ifs at hj
    · exact .inl hj
    · by_cases hd : d = dev_id
      · subst hd
        rw [Function.update_self] at hj
        exact .inr (Option.some.inj hj).symm
      · rw [Function.update_of_ne hd] at hj
        exact .inl hj
  rcases hold with hold | rfl
  · refine (h fn hfn d j hold).step call (.remembered json) ?_ ?_ fun hdue => ?_
    · rw [Registry.goTo_passed, hpassed]
      exact List.Subset.refl _
    · rw [Registry.goTo_calls, hcalls]
    · rw [hcall] at hdue
      cases hdue
  · exact .remembered call (by simp)

theorem covered_step (hpossible : Possible es e) (h : Covered (registryAfter es)) :
    Covered (stepEvent (registryAfter es) e) := by
  unfold Possible at hpossible
  generalize registryAfter es = s at h hpossible
  cases e with
  | announce call overrides json => exact covered_announce h hpossible _ _
  | dispatch call =>
    obtain ⟨json, hplace⟩ := hpossible
    simp only [stepEvent, hplace]
    intro fn hfn dev_id j hj
    refine (h fn hfn dev_id j hj).step call _ (List.Subset.refl _) rfl fun hdue => ?_
    rw [hplace] at hdue
    cases hdue
    refine .dispatching call ?_
    rw [Registry.goTo_calls, Function.update_self, show s.on_msg_arrived = some fn from hfn]
  | deliver call =>
    obtain ⟨callback, json, hplace⟩ := hpossible
    simp only [stepEvent, hplace]
    refine covered_pass h fun fn j hdue => .inl ?_
    rw [hplace] at hdue
    cases hdue
    exact ⟨rfl, rfl⟩
  | register call fn order =>
    obtain ⟨-, horder⟩ := hpossible
    intro f hf dev_id j hj
    obtain rfl : fn = some f := hf
    refine .replaying call (order.map Prod.snd) (Function.update_self ..) ?_
    exact List.mem_map.mpr ⟨(dev_id, j), (horder.mem dev_id j).mpr hj, rfl⟩
  | replay call =>
    obtain ⟨fn, json, rest, hplace⟩ := hpossible
    simp only [stepEvent, hplace]
    refine covered_pass h fun f j hdue => ?_
    rw [hplace] at hdue
    cases hdue with
    | replaying hmem =>
      rcases List.mem_cons.mp hmem with rfl | hmem
      · exact .inl ⟨rfl, rfl⟩
      · exact .inr (.replaying hmem)
  | refresh call =>
    obtain ⟨fn, hplace⟩ := hpossible
    simp only [stepEvent, hplace]
    intro f hf dev_id j hj
    refine (h f hf dev_id j hj).step call _ (List.Subset.refl _) rfl fun hdue => ?_
    rw [hplace] at hdue
    cases hdue with
    | replaying hmem => cases hmem

theorem covered_of_possible (h : Steps Possible es) : Covered (registryAfter es) := by
  refine (always_of_steps (P := fun es => Covered (registryAfter es)) covered_initial
    (fun es e _ hes he => ?_) h).last
  rw [registryAfter_snoc]
  exact covered_step he hes

theorem stepEvent_on_msg_arrived (s : Registry φ) (e : Event φ) :
    (stepEvent s e).on_msg_arrived = (installedBy e).getD s.on_msg_arrived := by
  cases e with
  | announce call overrides json => exact (s.remember_frame _ _).1
  | dispatch call => simp only [stepEvent]; split <;> rfl
  | deliver call =>
    simp only [stepEvent]
    split
    · exact (s.pass_frame _ _).1
    · rfl
  | register call fn order => rfl
  | replay call =>
    simp only [stepEvent]
    split
    · exact (s.pass_frame _ _).1
    · rfl
  | refresh call => simp only [stepEvent]; split <;> rfl

theorem stepEvent_last_printer_json (s : Registry φ) (e : Event φ) :
    (stepEvent s e).last_printer_json_by_id =
      enter rememberedBy s.last_printer_json_by_id e := by
  cases e with
  | announce call overrides json =>
    rw [stepEvent, Registry.goTo_last_printer_json, s.remember_last, enter, rememberedBy]
    split_ifs
    · rfl
    · rfl
  | dispatch call => simp only [stepEvent]; split <;> rfl
  | deliver call =>
    simp only [stepEvent]
    split
    · exact (s.pass_frame _ _).2.1
    · rfl
  | register call fn order => rfl
  | replay call =>
    simp only [stepEvent]
    split
    · exact (s.pass_frame _ _).2.1
    · rfl
  | refresh call => simp only [stepEvent]; split <;> rfl

/-- The registry holds the callback that was installed last. -/
theorem on_msg_arrived_eq (es : List (Event φ)) :
    (registryAfter es).on_msg_arrived = lastInstalled es := by
  induction es using List.reverseRecOn with
  | nil => rfl
  | append_singleton es e ih =>
    rw [registryAfter_snoc, stepEvent_on_msg_arrived, ih, lastInstalled, lastInstalled,
      List.filterMap_append]
    cases h : installedBy e with
    | none => simp [h]
    | some fn => simp [h]

/-- The registry holds the JSON that was remembered last for each device. -/
theorem last_printer_json_eq (es : List (Event φ)) :
    (registryAfter es).last_printer_json_by_id = collect (es.filterMap rememberedBy) := by
  induction es using List.reverseRecOn with
  | nil => rfl
  | append_singleton es e ih =>
    rw [registryAfter_snoc, stepEvent_last_printer_json, ih, collect_filterMap_snoc]

end run

theorem no_printer_is_missed (es : List (Event φ)) (h : Steps Possible es) :
    Always NoneMissed es := by
  intro i _ hreturned fn hfn dev_id _ json hjson
  have hcovered := covered_of_possible (h.take i)
  rw [← on_msg_arrived_eq] at hfn
  rw [lastRemembered, ← collect_apply, ← last_printer_json_eq] at hjson
  cases hcovered fn hfn dev_id json hjson with
  | passed h => exact h
  | remembered call h =>
    rw [hreturned call] at h
    cases h
  | dispatching call h =>
    rw [hreturned call] at h
    cases h
  | replaying call rest h =>
    rw [hreturned call] at h
    cases h

/-- The callback is set after the announcement of a printer was stored, and before it is
handed out. -/
def registeredBetween : List (Event Unit) :=
  [.announce 0 (fun _ => none) (printer_metadata.announcement (ascii "A1")),
    .register 1 (some ()) [(ascii "A1", printer_metadata.announcement (ascii "A1"))],
    .dispatch 0, .deliver 0, .replay 1, .refresh 1]

theorem printer_between_is_not_missed : Steps Possible registeredBetween ∧
    Always NoneMissed registeredBetween := by
  have hpossible : Steps Possible registeredBetween := by
    refine (steps_snoc _ [_, _, _, _, _] _).mpr ⟨(steps_snoc _ [_, _, _, _] _).mpr
      ⟨(steps_snoc _ [_, _, _] _).mpr ⟨(steps_snoc _ [_, _] _).mpr ⟨(steps_snoc _ [_] _).mpr
        ⟨(steps_snoc _ [] _).mpr ⟨steps_nil _, rfl⟩, rfl, ?_⟩, _, rfl⟩, _, _, rfl⟩, _, _, _, rfl⟩,
          _, rfl⟩
    have hstored : [Event.announce (φ := Unit) 0 (fun _ => none)
        (printer_metadata.announcement (ascii "A1"))].filterMap rememberedBy =
          [(ascii "A1", printer_metadata.announcement (ascii "A1"))] := by
      decide +kernel
    rw [last_printer_json_eq, hstored]
    exact Lists.nil.insert _ _
  exact ⟨hpossible, no_printer_is_missed _ hpossible⟩

end bambu_farm_client.callback_registry
