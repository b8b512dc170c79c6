-- From the list of the server to a connect (`api.rs`, `api.cpp`). Each printer of a list becomes
-- a JSON text, the text gets the name that the user gave, and the id that is found in it is
-- compared with the selected device.
import BambuFarm.PrinterAnnouncements
import BambuFarm.PrinterNames
import BambuFarm.SelectedDevice

open json runs search text
open bambu_farm_client.available_printers
open bambu_farm_client.printer_metadata (Overrides apply_name_override json_string_field)
open bambu_farm_client.printer_names (IsObject Replaceable dev_id_of dev_id_of_apply
  replaceable_of_object)
open bambu_farm_client.session_state (SessionState Call Effect call)
open bambu_farm_client.selected_device

namespace bambu_farm.listed_printers

/-! ## The way of a printer -/

def json_matches_device (json dev_id : Text) : Bool :=
  dev_id ≠ [] && json_string_field json (ascii "dev_id") = dev_id

/-- The id that the session state claims is the one of the text, so it is the selected device. -/
def connect_selected_device_if_pending (s : SessionState) (json : Text) :
    SessionState × List Effect :=
  if json_matches_device json (as_bytes s.selected_device) then
    bambu_farm_client.session_state.connect_selected_device_if_pending s s.selected_device
  else (s, [])

/-- What comes to the plugin: a printer of a list, shown under the names of its time, or news of
a connection. -/
inductive Arrival
  | printer (overrides : Overrides) (option : PrinterOption)
  | cb_connected (dev_id : String)
  | cb_disconnected (dev_id : String) (status : Int)

variable (printer_host_for_device : String → Option String)

/-- `emit_available_printer` up to the end of `bambu_network_cb_printer_available`. -/
def arrive (s : SessionState) : Arrival → SessionState × List Effect
  | .printer overrides option =>
    match emit_available_printer printer_host_for_device option with
    | none => (s, [])
    | some json => connect_selected_device_if_pending s (apply_name_override overrides json)
  | .cb_connected dev_id => call s (.cb_connected dev_id)
  | .cb_disconnected dev_id status => call s (.cb_disconnected dev_id status)

/-- What the arrivals ask of the rest of the plugin. -/
def arrivals (s : SessionState) : List Arrival → List Effect
  | [] => []
  | a :: rest =>
    (arrive printer_host_for_device s a).2 ++
      arrivals (arrive printer_host_for_device s a).1 rest

/-! ## The text of a printer -/

/-- The printer with the host that is announced, unless it is skipped. -/
def located (printer : PrinterOption) : Option PrinterOption :=
  if isBlank printer.host then
    (printer_host_for_device printer.dev_id).bind fun host =>
      if isBlank host then none else some { printer with host := host }
  else some printer

/-- The text of a printer with a host. -/
def announcementOf (printer : PrinterOption) : Text :=
  lbrace :: (fields printer).flatMap line ++ lastLines

theorem emit_located (printer : PrinterOption) :
    emit_available_printer printer_host_for_device printer =
      (located printer_host_for_device printer).map announcementOf := by
  unfold located
  cases hblank : isBlank printer.host with
  | false => exact emit_text printer_host_for_device hblank
  | true =>
    rw [if_pos rfl, emit_available_printer, hblank, if_pos rfl]
    cases hhost : printer_host_for_device printer.dev_id with
    | none => rfl
    | some host =>
      cases hb : isBlank host with
      | true => simp [hb]
      | false =>
        have htext : emit_available_printer (fun _ => none) { printer with host := host } = _ :=
          emit_text (fun _ => none) hb
        simp only [emit_available_printer, hb] at htext
        simpa [hb, announcementOf] using htext

theorem dev_id_of_located {printer located_printer : PrinterOption}
    (h : located printer_host_for_device printer = some located_printer) :
    located_printer.dev_id = printer.dev_id := by
  unfold located at h
  split_ifs at h
  · obtain ⟨host, -, hhost⟩ := Option.bind_eq_some_iff.mp h
    split_ifs at hhost
    cases hhost
    rfl
  · cases h
    rfl

theorem as_bytes_inj {s t : String} (h : as_bytes s = as_bytes t) : s = t := by
  have hbytes : s.toList.utf8Encode = t.toList.utf8Encode := congrArg List.toByteArray h
  rw [String.utf8Encode_toList, String.utf8Encode_toList] at hbytes
  exact String.toByteArray_inj.mp hbytes

theorem isObject_announcementOf {printer : PrinterOption} (h : AllPlain printer) :
    IsObject (announcementOf printer) := by
  refine ⟨_, parse_plain h, fun k hk => ?_⟩
  have hstrings : ∀ m ∈ (fields printer).map lineMember ++ lastMembers, ∃ t, m.2 = .str t := by
    intro m hm
    rcases List.mem_append.mp hm with hm | hm
    · obtain ⟨field, -, rfl⟩ := List.mem_map.mp hm
      exact ⟨field.2, rfl⟩
    · simp only [lastMembers, List.mem_cons, List.not_mem_nil, or_false] at hm
      rcases hm with rfl | rfl | rfl <;> exact ⟨_, rfl⟩
  cases hk with
  | here hmem =>
    have hkey : k ∈ fieldKeys ++ keys lastMembers := by
      rcases List.mem_append.mp hmem with hmem | hmem
      · obtain ⟨field, hfield, hk⟩ := List.mem_map.mp hmem
        cases hk
        exact List.mem_append_left _ (List.mem_map_of_mem hfield)
      · exact List.mem_append_right _ (List.mem_map_of_mem hmem)
    exact (by decide : ∀ k ∈ fieldKeys ++ keys lastMembers, quote ∉ k ∧ backslash ∉ k) k hkey
  | member hmem hinner =>
    obtain ⟨t, ht⟩ := hstrings _ hmem
    cases ht
    cases hinner

/-- A name that the user gave does not hide the id. -/
theorem dev_id_of_shown {printer : PrinterOption} (h : AllPlain printer) (overrides : Overrides) :
    dev_id_of (apply_name_override overrides (announcementOf printer)) =
      as_bytes printer.dev_id := by
  rw [dev_id_of_apply (replaceable_of_object (isObject_announcementOf h))]
  exact field_plain h

/-! ## The connect -/

/-- The announcement of a printer whose strings are plain is the call with its id. -/
theorem arrive_printer (s : SessionState) {printer located_printer : PrinterOption}
    (hloc : located printer_host_for_device printer = some located_printer)
    (hplain : AllPlain located_printer) (overrides : Overrides) :
    arrive printer_host_for_device s (.printer overrides printer) =
      call s (.cb_printer_available printer.dev_id) := by
  have hid := dev_id_of_shown hplain overrides
  rw [dev_id_of_located printer_host_for_device hloc] at hid
  simp only [arrive, emit_located, hloc, Option.map_some, call]
  unfold listed_printers.connect_selected_device_if_pending json_matches_device
  change json_string_field _ (ascii "dev_id") = _ at hid
  rw [hid]
  by_cases hsel : printer.dev_id = s.selected_device
  · rw [hsel]
    by_cases hempty : s.selected_device = ""
    · have hskip : bambu_farm_client.session_state.connect_selected_device_if_pending s
          s.selected_device = (s, []) := if_pos (.inl hempty)
      rw [hskip]
      split_ifs
      · rfl
      · rfl
    · have hne : as_bytes s.selected_device ≠ [] := fun hnil => hempty (as_bytes_inj hnil)
      exact if_pos (by simp [hne])
  · have hne : as_bytes printer.dev_id ≠ as_bytes s.selected_device :=
      fun h => hsel (as_bytes_inj h)
    rw [available_other hsel]
    exact if_neg (by simp [hne])

/-- What an arrival is to the session state. -/
def callOf : Arrival → Option Call
  | .printer _ option =>
    (located printer_host_for_device option).map fun p => .cb_printer_available p.dev_id
  | .cb_connected dev_id => some (.cb_connected dev_id)
  | .cb_disconnected dev_id status => some (.cb_disconnected dev_id status)

/-- The ids of the printers that are announced. -/
def announced_ids (as : List Arrival) : List String :=
  as.filterMap fun
    | .printer _ option => (located printer_host_for_device option).map (·.dev_id)
    | _ => none

/-- The strings of an announced printer need no escape, and no device but `d` comes up. -/
def Expected (d : String) : Arrival → Prop
  | .printer _ option => ∀ p, located printer_host_for_device option = some p → AllPlain p
  | .cb_connected dev_id => dev_id = d
  | .cb_disconnected _ _ => True

section arrivals

variable {d : String} {as : List Arrival}

theorem arrivals_eq (h : ∀ a ∈ as, Expected printer_host_for_device d a) :
    ∀ s : SessionState, arrivals printer_host_for_device s as =
      asks s (as.filterMap (callOf printer_host_for_device)) := by
  induction as with
  | nil => exact fun _ => rfl
  | cons a as ih =>
    intro s
    have hrest := ih fun a' ha' => h a' (.tail _ ha')
    have ha := h a (.head _)
    unfold arrivals
    cases a with
    | cb_connected dev_id => exact congrArg _ (hrest _)
    | cb_disconnected dev_id status => exact congrArg _ (hrest _)
    | printer overrides option =>
      cases hloc : located printer_host_for_device option with
      | none =>
        have hskip : arrive printer_host_for_device s (.printer overrides option) = (s, []) := by
          simp [arrive, emit_located, hloc]
        rw [List.filterMap_cons_none (by simp [callOf, hloc]), hskip]
        exact hrest s
      | some p =>
        rw [List.filterMap_cons_some (b := .cb_printer_available option.dev_id)
          (by simp [callOf, hloc, dev_id_of_located _ hloc]),
          arrive_printer printer_host_for_device s hloc (ha p hloc)]
        exact congrArg _ (hrest _)

theorem callback_of_expected (h : ∀ a ∈ as, Expected printer_host_for_device d a) :
    ∀ c ∈ as.filterMap (callOf printer_host_for_device), Callback d c := by
  intro c hc
  obtain ⟨a, hmem, ha⟩ := List.mem_filterMap.mp hc
  have hexpected := h a hmem
  cases a with
  | cb_connected dev_id =>
    cases ha
    exact hexpected
  | cb_disconnected dev_id status =>
    cases ha
    trivial
  | printer overrides option =>
    obtain ⟨p, -, rfl⟩ := Option.map_eq_some_iff.mp ha
    trivial

theorem mem_announced_ids : .cb_printer_available d ∈ as.filterMap (callOf printer_host_for_device) ↔
    d ∈ announced_ids printer_host_for_device as := by
  unfold announced_ids
  rw [List.mem_filterMap, List.mem_filterMap]
  refine exists_congr fun a => and_congr_right fun _ => ?_
  cases a with
  | printer overrides option => simp [callOf]
  | cb_connected dev_id => simp [callOf]
  | cb_disconnected dev_id status => simp [callOf]

end arrivals

def selectedPrinter : PrinterOption :=
  { dev_name := "bench", dev_id := "A1", model := "C11", host := "192.168.1.7" }

end bambu_farm.listed_printers
