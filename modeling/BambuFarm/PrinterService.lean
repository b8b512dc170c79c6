-- The printers of the server from its start on: the list that `main` makes of the
-- configuration and of what the slicer has stored, and the calls that read and write
-- it. A call holds the lock of the list for one section at a time, and scans and
-- sessions lie between the sections.
import BambuFarm.Discovery
import BambuFarm.PrinterMerge

open text frames runs bambu_farm
open bambu_farm_server.printers bambu_farm_server.discovery

namespace bambu_farm_server.service

/-! ## The start -/

/-- A table of the configuration, each value as the text that it is shown by. -/
abbrev Table := String → Option String

/-- The words are of ASCII letters and digits, so the case of other letters does not matter. -/
def configured_model (model : String) : Option String :=
  match to_ascii_lowercase model with
  | "x1c" => some "3DPrinter-X1-Carbon"
  | "x1" => some "3DPrinter-X1"
  | "p1p" => some "C11"
  | "p1s" => some "C12"
  | "a1mini" => some "N1"
  | "a1_mini" => some "N1"
  | "a1m" => some "N1"
  | "a1" => some "N2S"
  | _ => none

/-- A value that is no table is read as an empty one. -/
def construct_printer (config : Option Table) : Option Printer :=
  let printer := config.getD fun _ => none
  match printer "dev_id" with
  | none => none
  | some dev_id =>
    match (printer "model").elim (some "") configured_model with
    | none => none
    | some model =>
      some {
        name := (printer "name").getD ""
        id := dev_id
        ip := (printer "host").getD ""
        model := model
        password := (printer "password").getD "" }

/-- What the server finds around it when it starts. -/
structure Startup where
  /-- The `printers` of the configuration. -/
  configs : List (Option Table)
  xdg_config_home : Option String
  home : Option String
  /-- `none` for a path that does not exist, and the content of a file that can be read. -/
  path : String → Option (Option String)
  from_str : String → Option JsonValue
  order : MapOrder

namespace Startup

variable (st : Startup)

def bambu_studio_conf_candidates : List String :=
  (st.xdg_config_home.map fun dir => dir ++ "/BambuStudio/BambuStudio.conf").toList ++
    st.home.elim [] fun home =>
      [home ++ "/.var/app/com.bambulab.BambuStudio/config/BambuStudio/BambuStudio.conf",
        home ++ "/.config/BambuStudio/BambuStudio.conf"]

/-- The printer of an entry of `user_access_code`. -/
def persisted_printer (entry : String × JsonValue) : Option Printer :=
  if isBlank entry.1 then none
  else (nonBlank entry.2.as_str).map fun password =>
    { name := "", id := entry.1, ip := "", model := "", password := password }

def load_persisted_studio_printers : List Printer :=
  match st.bambu_studio_conf_candidates.find? fun path => (st.path path).isSome with
  | none => []
  | some path =>
    match ((st.path path).join).bind st.from_str with
    | none => []
    | some root =>
      (((root.get "user_access_code").bind JsonValue.as_object).getD []).filterMap persisted_printer

/-- The entries that the list is merged from. -/
def configured : List Printer := st.configs.filterMap construct_printer

/-- The list of `Farm.printers` when the server begins to listen, if it has an entry. -/
def printers : List Printer := merge_printers st.order st.configured st.load_persisted_studio_printers

end Startup

/-! ## The calls -/

/-- Where a call stands. Between two sections it holds no lock. -/
inductive Place
  | returned
  /-- `refresh_discovery_metadata` has these printers of its copy before it. -/
  | refreshing (rest : List Printer)
  | refound (printer : Printer) (discovered : DiscoveryMatch) (rest : List Printer)
  /-- The stream of `get_available_printers` between two lists. -/
  | listing
  /-- `connect_printer` has the password that it will store. -/
  | looked_up (request : ConnectRequest) (printer : Printer)
  | resolving (request : ConnectRequest) (printer : Printer)
  | discovered (request : ConnectRequest) (printer : Printer) (discovered : DiscoveryMatch)
  /-- `connect_printer_session` is called, for the first or the second time. -/
  | connecting (request : ConnectRequest) (printer : Printer) (again : Bool)
  | failed (request : ConnectRequest) (printer : Printer)
  | rediscovered (request : ConnectRequest) (printer : Printer) (discovered : DiscoveryMatch)

structure Service where
  printers : List Printer
  calls : Nat → Place
  /-- The lists that were sent. -/
  lists : List (List PrinterOption)
  /-- The printers for which a session was tried, with the requests. -/
  dialled : List (ConnectRequest × Printer)

inductive Event
  /-- `get_available_printers` begins. -/
  | refresh (call : Nat)
  /-- `connect_printer` looks up the printer and settles the password. -/
  | connect (call : Nat) (request : ConnectRequest)
  /-- The call looks for its printer in the network as it is then. -/
  | scan (call : Nat) (lan : Lan)
  /-- The call writes into the list what it has. -/
  | write (call : Nat)
  | list (call : Nat)
  /-- The client reads no further list. -/
  | hang_up (call : Nat)
  | session (call : Nat) (opened : Bool)

/-- The printer of a connect at the host that was found. -/
def resolved (printer : Printer) (discovered : DiscoveryMatch) : Printer :=
  { printer with
    ip := discovered.ip.to_string
    name := if isBlank printer.name then
        (discovered.name.or (discovered.model.bind display_name_from_model_code)).getD
          ("Bambu " ++ printer.id)
      else printer.name
    model := if isBlank printer.model then discovered.model.getD "" else printer.model }

/-- The printer of the second session. -/
def rediscovered (printer : Printer) (discovered : DiscoveryMatch) : Printer :=
  { printer with
    ip := discovered.ip.to_string
    name := if isBlank printer.name then discovered.name.getD printer.name else printer.name
    model := if isBlank printer.model then discovered.model.getD printer.model else printer.model }

/-- The round of the refresh for one printer. -/
def refreshPlace (from_str : String → Option JsonValue) (lan : Lan) (printer : Printer)
    (rest : List Printer) : Place :=
  if !isBlank printer.ip && !isBlank printer.name && !isBlank printer.model then .refreshing rest
  else if isBlank printer.password then .refreshing rest
  else match discover_printer from_str lan printer with
    | none => .refreshing rest
    | some discovered => .refound printer discovered rest

namespace Service

variable (s : Service)

def goTo (call : Nat) (place : Place) : Service :=
  { s with calls := Function.update s.calls call place }

def writeList (u : Update) : Service := { s with printers := update s.printers u }

theorem writeList_printers (u : Update) : (s.writeList u).printers = update s.printers u := rfl

theorem ids_writeList (u : Update) :
    (s.writeList u).printers.map (·.id) = s.printers.map (·.id) := by
  rw [writeList_printers]
  exact ids_of_forall₂_kept (update_kept s.printers u)

end Service

variable (st : Startup)

def stepEvent (s : Service) : Event → Service
  | .refresh call =>
    match s.calls call with
    | .returned => s.goTo call (.refreshing s.printers)
    | _ => s
  | .connect call request =>
    match s.calls call with
    | .returned =>
      match lookup_printer s.printers request.dev_id with
      | .error _ => s
      | .ok printer =>
        if connect_password printer request = "" then s
        else s.goTo call (.looked_up request
          { printer with password := connect_password printer request })
    | _ => s
  | .scan call lan =>
    match s.calls call with
    | .refreshing (printer :: rest) => s.goTo call (refreshPlace st.from_str lan printer rest)
    | .resolving request printer =>
      match discover_printer st.from_str lan printer with
      | none => s.goTo call .returned
      | some m => s.goTo call (.discovered request printer m)
    | .failed request printer =>
      match discover_printer st.from_str lan printer with
      | none => s.goTo call .returned
      | some m =>
        if m.ip.to_string = printer.ip then s.goTo call .returned
        else s.goTo call (.rediscovered request printer m)
    | _ => s
  | .write call =>
    match s.calls call with
    | .refound printer m rest =>
      (s.writeList (.discovery printer.id m)).goTo call (.refreshing rest)
    | .looked_up request printer =>
      (s.writeList (.password printer.id printer.password)).goTo call
        (if !isBlank printer.ip then .connecting request printer false
          else .resolving request printer)
    | .discovered request printer m =>
      (s.writeList (.discovery printer.id m)).goTo call
        (.connecting request (resolved printer m) false)
    | .rediscovered request printer m =>
      (s.writeList (.discovery printer.id m)).goTo call
        (.connecting request (rediscovered printer m) true)
    | _ => s
  | .list call =>
    match s.calls call with
    | .refreshing [] | .listing =>
      { s with lists := s.lists ++ [available_options s.printers] }.goTo call .listing
    | _ => s
  | .hang_up call =>
    match s.calls call with
    | .refreshing [] | .listing => s.goTo call .returned
    | _ => s
  | .session call opened =>
    match s.calls call with
    | .connecting request printer again =>
      { s with dialled := s.dialled ++ [(request, printer)] }.goTo call
        (if opened || again then .returned else .failed request printer)
    | _ => s

def opened : Service :=
  { printers := st.printers, calls := fun _ => .returned, lists := [], dialled := [] }

def serviceAfter (es : List Event) : Service := after (stepEvent st) (opened st) es

/-! ## Where hosts and passwords come from -/

/-- A text that the configuration, the slicer or a request gave as the password of the device. -/
def Told (es : List Event) (id raw : String) : Prop :=
  (∃ entry ∈ st.configured ++ st.load_persisted_studio_printers,
    entry.id = id ∧ entry.password = raw) ∨
  ∃ call request, .connect call request ∈ es ∧ request.dev_id = id ∧ request.password = raw

/-- A password that was told, with or without the white space around it. -/
def PasswordOf (es : List Event) (id password : String) : Prop :=
  ∃ raw, Told st es id raw ∧ (password = raw ∨ password = trim raw)

/-- A scan found the device at the address, with a password that it was told. -/
def Found (es : List Event) (id ip : String) : Prop :=
  ∃ call lan printer a, .scan call lan ∈ es ∧ printer.id = id ∧
    PasswordOf st es id printer.password ∧ Answers lan printer a ∧ ip = a.to_string

/-- The host is the one of the configuration, or it was found. -/
def HostOf (es : List Event) (id ip : String) : Prop :=
  (∃ entry ∈ st.configured ++ st.load_persisted_studio_printers, entry.id = id ∧ entry.ip = ip) ∨
  Found st es id ip

/-- An entry with nothing in it that came from nowhere. -/
structure Sound (es : List Event) (printer : Printer) : Prop where
  listed : printer.id ∈ st.printers.map (·.id)
  host : HostOf st es printer.id printer.ip
  password : PasswordOf st es printer.id printer.password
  model : isBlank printer.model = true ∨ Known printer.model

/-- What a client is told of a printer. -/
structure Shown (es : List Event) (option : PrinterOption) : Prop where
  name : isBlank option.dev_name = false
  model : option.model = "unknown" ∨ Known option.model
  host : HostOf st es option.dev_id option.host

/-- What a session is tried with. -/
structure Dialled (es : List Event) (request : ConnectRequest) (printer : Printer) : Prop where
  sound : Sound st es printer
  id : printer.id = request.dev_id
  host : isBlank printer.ip = false
  password : isBlank printer.password = false
  requested : isBlank request.password = false → printer.password = trim request.password

structure ServiceLaw (es : List Event) : Prop where
  ids : (serviceAfter st es).printers.map (·.id) = st.printers.map (·.id)
  ascending : ((serviceAfter st es).printers.map (·.id)).Pairwise (· < ·)
  entries : ∀ printer ∈ (serviceAfter st es).printers, Sound st es printer
  lists : ∀ options ∈ (serviceAfter st es).lists,
    options.map (·.dev_id) = st.printers.map (·.id) ∧ ∀ option ∈ options, Shown st es option
  dialled : ∀ request printer, (request, printer) ∈ (serviceAfter st es).dialled →
    Dialled st es request printer

variable {st} {es fs : List Event}

theorem Told.mono {id raw : String} (h : Told st es id raw) (hsub : es ⊆ fs) : Told st fs id raw := by
  rcases h with hentry | ⟨call, request, hmem, hid, hraw⟩
  · exact .inl hentry
  · exact .inr ⟨call, request, hsub hmem, hid, hraw⟩

theorem PasswordOf.mono {id password : String} (h : PasswordOf st es id password)
    (hsub : es ⊆ fs) : PasswordOf st fs id password := by
  obtain ⟨raw, htold, hraw⟩ := h
  exact ⟨raw, htold.mono hsub, hraw⟩

theorem Found.mono {id ip : String} (h : Found st es id ip) (hsub : es ⊆ fs) : Found st fs id ip := by
  obtain ⟨call, lan, printer, a, hmem, hid, hpassword, hanswers, hip⟩ := h
  exact ⟨call, lan, printer, a, hsub hmem, hid, hpassword.mono hsub, hanswers, hip⟩

theorem HostOf.mono {id ip : String} (h : HostOf st es id ip) (hsub : es ⊆ fs) : HostOf st fs id ip :=
  h.imp_right fun hfound => hfound.mono hsub

theorem Sound.mono {printer : Printer} (h : Sound st es printer) (hsub : es ⊆ fs) :
    Sound st fs printer :=
  ⟨h.listed, h.host.mono hsub, h.password.mono hsub, h.model⟩

theorem Shown.mono {option : PrinterOption} (h : Shown st es option) (hsub : es ⊆ fs) :
    Shown st fs option :=
  ⟨h.name, h.model, h.host.mono hsub⟩

theorem Dialled.mono {request : ConnectRequest} {printer : Printer}
    (h : Dialled st es request printer) (hsub : es ⊆ fs) : Dialled st fs request printer :=
  ⟨h.sound.mono hsub, h.id, h.host, h.password, h.requested⟩

/-! ## The list at the start -/

/-- A field that the merge fills comes from an entry of the id. -/
theorem field_of_entry (field : Printer → String) (hfield : Fills field) {printer : Printer}
    (h : printer ∈ st.printers) :
    ∃ entry ∈ st.configured ++ st.load_persisted_studio_printers,
      entry.id = printer.id ∧ field entry = field printer := by
  have hdecided := field_merge hfield h
  have hmem : ∀ entry ∈ candidates st.configured st.load_persisted_studio_printers printer.id,
      entry ∈ st.configured ++ st.load_persisted_studio_printers ∧ entry.id = printer.id := by
    intro entry hentry
    unfold candidates at hentry
    rw [List.mem_append] at hentry ⊢
    rcases hentry with hlast | hconfigured
    · have hfilter := List.mem_of_getLast? (Option.mem_toList.mp hlast)
      rw [List.mem_filter, decide_eq_true_eq] at hfilter
      exact ⟨.inr hfilter.1, hfilter.2⟩
    · rw [List.mem_filter, decide_eq_true_eq] at hconfigured
      exact ⟨.inl hconfigured.1, hconfigured.2⟩
  have hne : candidates st.configured st.load_persisted_studio_printers printer.id ≠ [] := by
    intro hnil
    have hentry := entryOf_mem h
    rw [entryOf_mergedMap, hnil] at hentry
    cases hentry
  rw [hdecided, decided]
  cases hfind : (candidates st.configured st.load_persisted_studio_printers printer.id).find?
      fun entry => !isBlank (field entry) with
  | some entry =>
    obtain ⟨hin, hid⟩ := hmem entry (List.mem_of_find?_eq_some hfind)
    exact ⟨entry, hin, hid, rfl⟩
  | none =>
    obtain ⟨entry, rest, hcons⟩ := List.exists_cons_of_ne_nil hne
    obtain ⟨hin, hid⟩ := hmem entry (by simp [hcons])
    refine ⟨entry, hin, hid, ?_⟩
    rw [hcons]
    rfl

theorem known_of_configured {model code : String} (h : configured_model model = some code) :
    Known code := by
  unfold configured_model at h
  unfold Known
  split at h
  case h_9 => cases h
  all_goals
    cases h
    decide

theorem model_of_entry {entry : Printer}
    (h : entry ∈ st.configured ++ st.load_persisted_studio_printers) :
    isBlank entry.model = true ∨ Known entry.model := by
  have hempty : isBlank "" = true := by decide
  rw [List.mem_append] at h
  rcases h with hconfigured | hpersisted
  · obtain ⟨config, -, hconfig⟩ := List.mem_filterMap.mp hconfigured
    unfold construct_printer at hconfig
    dsimp only at hconfig
    split at hconfig
    · cases hconfig
    · split at hconfig
      · cases hconfig
      · rename_i model hmodel
        cases hconfig
        cases hfield : (config.getD fun _ => none) "model" with
        | none =>
          rw [hfield] at hmodel
          cases hmodel
          exact .inl hempty
        | some text =>
          rw [hfield] at hmodel
          exact .inr (known_of_configured hmodel)
  · unfold Startup.load_persisted_studio_printers at hpersisted
    split at hpersisted
    · cases hpersisted
    · split at hpersisted
      · cases hpersisted
      · obtain ⟨code, -, hcode⟩ := List.mem_filterMap.mp hpersisted
        unfold Startup.persisted_printer at hcode
        split_ifs at hcode
        obtain ⟨password, -, rfl⟩ := Option.map_eq_some_iff.mp hcode
        exact .inl hempty

theorem sound_of_start {printer : Printer} (h : printer ∈ st.printers) : Sound st [] printer where
  listed := List.mem_map_of_mem h
  host := .inl (field_of_entry (·.ip) (fun _ _ => by simp only [merged_entry]) h)
  password :=
    ⟨_, .inl (field_of_entry (·.password) (fun _ _ => by simp only [merged_entry]) h),
      .inl rfl⟩
  model := by
    obtain ⟨entry, hentry, -, hmodel⟩ :=
      field_of_entry (·.model) (fun _ _ => by simp only [merged_entry]) h
    rw [← hmodel]
    exact model_of_entry hentry

/-! ## What a call holds -/

/-- A match of a scan for the device. -/
structure FoundFor (st : Startup) (es : List Event) (id : String) (m : DiscoveryMatch) : Prop where
  host : Found st es id m.ip.to_string
  model : ∀ model, m.model = some model → Known model

/-- The printer of a connect behind its first section. -/
structure Ready (st : Startup) (es : List Event) (request : ConnectRequest) (printer : Printer) :
    Prop where
  sound : Sound st es printer
  id : printer.id = request.dev_id
  password : isBlank printer.password = false
  requested : isBlank request.password = false → printer.password = trim request.password

def PlaceSound (st : Startup) (es : List Event) : Place → Prop
  | .returned | .listing => True
  | .refreshing rest => ∀ printer ∈ rest, Sound st es printer
  | .refound printer m rest =>
    FoundFor st es printer.id m ∧ ∀ printer ∈ rest, Sound st es printer
  | .looked_up request printer | .resolving request printer => Ready st es request printer
  | .discovered request printer m | .rediscovered request printer m =>
    Ready st es request printer ∧ FoundFor st es printer.id m
  | .connecting request printer _ | .failed request printer =>
    Ready st es request printer ∧ isBlank printer.ip = false

theorem FoundFor.mono {id : String} {m : DiscoveryMatch} (h : FoundFor st es id m)
    (hsub : es ⊆ fs) : FoundFor st fs id m :=
  ⟨h.host.mono hsub, h.model⟩

theorem Ready.mono {request : ConnectRequest} {printer : Printer}
    (h : Ready st es request printer) (hsub : es ⊆ fs) : Ready st fs request printer :=
  ⟨h.sound.mono hsub, h.id, h.password, h.requested⟩

theorem PlaceSound.mono {place : Place} (h : PlaceSound st es place) (hsub : es ⊆ fs) :
    PlaceSound st fs place := by
  cases place with
  | returned => trivial
  | listing => trivial
  | refreshing rest => exact fun printer hp => (h printer hp).mono hsub
  | refound printer m rest => exact ⟨h.1.mono hsub, fun printer hp => (h.2 printer hp).mono hsub⟩
  | looked_up request printer => exact Ready.mono h hsub
  | resolving request printer => exact Ready.mono h hsub
  | discovered request printer m => exact ⟨h.1.mono hsub, h.2.mono hsub⟩
  | connecting request printer again => exact ⟨h.1.mono hsub, h.2⟩
  | failed request printer => exact ⟨h.1.mono hsub, h.2⟩
  | rediscovered request printer m => exact ⟨h.1.mono hsub, h.2.mono hsub⟩

/-- What a scan finds with a sound printer. -/
theorem foundFor_of_scan {call : Nat} {lan : Lan} (hmem : .scan call lan ∈ es) {printer : Printer}
    (h : PasswordOf st es printer.id printer.password) {m : DiscoveryMatch}
    (hscan : discover_printer st.from_str lan printer = some m) :
    FoundFor st es printer.id m where
  host := ⟨call, lan, printer, m.ip, hmem, rfl, h,
    (discover_eq_some st.from_str lan printer hscan).1, rfl⟩
  model model hmodel := by
    obtain ⟨-, hbind, -⟩ := probe_eq_some st.from_str lan printer
      (discover_eq_some st.from_str lan printer hscan).2
    obtain ⟨name, -, hcode⟩ := Option.bind_eq_some_iff.mp (hbind.symm.trans hmodel)
    exact known_of_product_name hcode

theorem known_trim {model : String} (h : Known model) : Known (trim model) := by
  unfold Known display_name_from_model_code at h ⊢
  rwa [trim_trim]

theorem discovered_entry_fields (printer : Printer) (m : DiscoveryMatch) :
    (discovered_entry printer m).id = printer.id ∧
    (discovered_entry printer m).ip = m.ip.to_string ∧
    (discovered_entry printer m).password = printer.password := by
  simp only [discovered_entry, and_self]

theorem resolved_fields (printer : Printer) (m : DiscoveryMatch) :
    (resolved printer m).id = printer.id ∧ (resolved printer m).ip = m.ip.to_string ∧
    (resolved printer m).password = printer.password := by
  simp only [resolved, and_self]

theorem rediscovered_fields (printer : Printer) (m : DiscoveryMatch) :
    (rediscovered printer m).id = printer.id ∧ (rediscovered printer m).ip = m.ip.to_string ∧
    (rediscovered printer m).password = printer.password := by
  simp only [rediscovered, and_self]

/-- A sound printer at the host that was found for it, when its model is sound. -/
theorem sound_at_found {printer printer' : Printer} {m : DiscoveryMatch} (h : Sound st es printer)
    (hm : FoundFor st es printer.id m)
    (hfields : printer'.id = printer.id ∧ printer'.ip = m.ip.to_string ∧
      printer'.password = printer.password)
    (hmodel : isBlank printer'.model = true ∨ Known printer'.model) : Sound st es printer' := by
  obtain ⟨hid, hip, hpassword⟩ := hfields
  refine ⟨?_, ?_, ?_, hmodel⟩
  · rw [hid]
    exact h.listed
  · rw [hid, hip]
    exact .inr hm.host
  · rw [hid, hpassword]
    exact h.password

theorem sound_discovered_entry {printer : Printer} {m : DiscoveryMatch}
    (h : Sound st es printer) (hm : FoundFor st es printer.id m) :
    Sound st es (discovered_entry printer m) := by
  apply sound_at_found h hm (discovered_entry_fields printer m)
  unfold discovered_entry
  dsimp only
  split
  · rename_i hblank
    cases hmodel : nonBlank m.model with
    | none => exact .inl hblank
    | some model =>
      obtain ⟨code, hcode, rfl⟩ :=
        Option.map_eq_some_iff.mp (Option.filter_eq_some_iff.mp hmodel).1
      exact .inr (known_trim (hm.model code hcode))
  · exact h.model

theorem sound_password {printer : Printer} {password : String} (h : Sound st es printer)
    (hpassword : PasswordOf st es printer.id password) :
    Sound st es { printer with password := password } :=
  ⟨h.listed, h.host, hpassword, h.model⟩

theorem ready_at_found {request : ConnectRequest} {printer printer' : Printer} {m : DiscoveryMatch}
    (h : Ready st es request printer) (hm : FoundFor st es printer.id m)
    (hfields : printer'.id = printer.id ∧ printer'.ip = m.ip.to_string ∧
      printer'.password = printer.password)
    (hmodel : isBlank printer'.model = true ∨ Known printer'.model) :
    Ready st es request printer' where
  sound := sound_at_found h.sound hm hfields hmodel
  id := hfields.1.trans h.id
  password := by
    rw [hfields.2.2]
    exact h.password
  requested hblank := hfields.2.2.trans (h.requested hblank)

theorem ready_resolved {request : ConnectRequest} {printer : Printer} {m : DiscoveryMatch}
    (h : Ready st es request printer) (hm : FoundFor st es printer.id m) :
    Ready st es request (resolved printer m) := by
  apply ready_at_found h hm (resolved_fields printer m)
  unfold resolved
  dsimp only
  split
  · cases hmodel : m.model with
    | none => exact .inl (by decide)
    | some model => exact .inr (hm.model model hmodel)
  · exact h.sound.model

theorem ready_rediscovered {request : ConnectRequest} {printer : Printer} {m : DiscoveryMatch}
    (h : Ready st es request printer) (hm : FoundFor st es printer.id m) :
    Ready st es request (rediscovered printer m) := by
  apply ready_at_found h hm (rediscovered_fields printer m)
  unfold rediscovered
  dsimp only
  split
  · rename_i hblank
    cases hmodel : m.model with
    | none => exact .inl hblank
    | some model => exact .inr (hm.model model hmodel)
  · exact h.sound.model

/-- The password that a connect settles was told for the device. -/
theorem ready_of_lookup {request : ConnectRequest} {call : Nat}
    (hmem : .connect call request ∈ es) {printer : Printer} (h : Sound st es printer)
    (hid : printer.id = request.dev_id) (hne : connect_password printer request ≠ "") :
    Ready st es request { printer with password := connect_password printer request } where
  sound := by
    apply sound_password h
    unfold connect_password
    split
    · obtain ⟨raw, htold, hraw | hraw⟩ := h.password
      · exact ⟨raw, htold, .inr (by rw [hraw])⟩
      · exact ⟨raw, htold, .inr (by rw [hraw, trim_trim])⟩
    · exact ⟨request.password, .inr ⟨call, request, hmem, hid.symm, rfl⟩, .inr rfl⟩
  id := hid
  password := connect_password_not_blank printer request hne
  requested hblank := by
    unfold connect_password
    rw [if_neg (by simp [hblank])]

/-! ## What a step keeps -/

/-- The service after the events `es`, in a state that they lead to. -/
structure Good (st : Startup) (es : List Event) (s : Service) : Prop where
  ids : s.printers.map (·.id) = st.printers.map (·.id)
  entries : ∀ printer ∈ s.printers, Sound st es printer
  places : ∀ call, PlaceSound st es (s.calls call)
  lists : ∀ options ∈ s.lists,
    options.map (·.dev_id) = st.printers.map (·.id) ∧ ∀ option ∈ options, Shown st es option
  dialled : ∀ request printer, (request, printer) ∈ s.dialled → Dialled st es request printer

theorem mem_updateFirst {α : Type*} {p : α → Bool} {f : α → α} {x : α} {l : List α}
    (h : x ∈ updateFirst p f l) : x ∈ l ∨ ∃ y ∈ l, p y = true ∧ x = f y := by
  induction l with
  | nil => cases h
  | cons a l ih =>
    unfold updateFirst at h
    split at h
    · rename_i ha
      rcases List.mem_cons.mp h with rfl | hmem
      · exact .inr ⟨a, by simp, ha, rfl⟩
      · exact .inl (List.mem_cons_of_mem _ hmem)
    · rcases List.mem_cons.mp h with rfl | hmem
      · exact .inl (by simp)
      · rcases ih hmem with hl | ⟨y, hy, hpy, hx⟩
        · exact .inl (List.mem_cons_of_mem _ hl)
        · exact .inr ⟨y, List.mem_cons_of_mem _ hy, hpy, hx⟩

namespace Good

variable {s : Service}

theorem mono (h : Good st es s) (hsub : es ⊆ fs) : Good st fs s where
  ids := h.ids
  entries printer hp := (h.entries printer hp).mono hsub
  places call := (h.places call).mono hsub
  lists options hmem :=
    ⟨(h.lists options hmem).1, fun option hopt => ((h.lists options hmem).2 option hopt).mono hsub⟩
  dialled request printer hmem := (h.dialled request printer hmem).mono hsub

theorem goTo (h : Good st es s) (call : Nat) {place : Place} (hplace : PlaceSound st es place) :
    Good st es (s.goTo call place) where
  ids := h.ids
  entries := h.entries
  places c := by
    unfold Service.goTo
    by_cases hc : c = call
    · subst hc
      simpa using hplace
    · simpa [hc] using h.places c
  lists := h.lists
  dialled := h.dialled

theorem discovery (h : Good st es s) {id : String} {m : DiscoveryMatch}
    (hm : FoundFor st es id m) : Good st es (s.writeList (.discovery id m)) where
  ids := (s.ids_writeList _).trans h.ids
  entries printer hp := by
    rcases mem_updateFirst hp with hold | ⟨old, hold, hid, rfl⟩
    · exact h.entries printer hold
    · obtain rfl : old.id = id := by simpa using hid
      exact sound_discovered_entry (h.entries old hold) hm
  places := h.places
  lists := h.lists
  dialled := h.dialled

theorem storedPassword (h : Good st es s) {id password : String}
    (hpassword : PasswordOf st es id password) :
    Good st es (s.writeList (.password id password)) where
  ids := (s.ids_writeList _).trans h.ids
  entries printer hp := by
    simp only [Service.writeList, update, update_printer_password] at hp
    split at hp
    · exact h.entries printer hp
    · rcases mem_updateFirst hp with hold | ⟨old, hold, hid, rfl⟩
      · exact h.entries printer hold
      · obtain rfl : old.id = id := by simpa using hid
        exact sound_password (h.entries old hold) hpassword
  places := h.places
  lists := h.lists
  dialled := h.dialled

theorem sendList (h : Good st es s) :
    Good st es { s with lists := s.lists ++ [available_options s.printers] } where
  ids := h.ids
  entries := h.entries
  places := h.places
  lists options hmem := by
    rcases List.mem_append.mp hmem with hold | hnew
    · exact h.lists options hold
    · rw [List.mem_singleton.mp hnew]
      constructor
      · rw [← h.ids, available_options, List.map_map]
        rfl
      · intro option hoption
        obtain ⟨printer, hprinter, rfl⟩ := List.mem_map.mp hoption
        have hsound := h.entries printer hprinter
        refine ⟨isBlank_preferred_printer_display_name printer, ?_, hsound.host⟩
        unfold printer_option
        dsimp only
        split
        · exact .inl rfl
        · rename_i hblank
          exact .inr (hsound.model.resolve_left hblank)
  dialled := h.dialled

theorem dial (h : Good st es s) {request : ConnectRequest} {printer : Printer}
    (hready : Ready st es request printer) (hip : isBlank printer.ip = false) :
    Good st es { s with dialled := s.dialled ++ [(request, printer)] } where
  ids := h.ids
  entries := h.entries
  places := h.places
  lists := h.lists
  dialled r p hmem := by
    rcases List.mem_append.mp hmem with hold | hnew
    · exact h.dialled r p hold
    · obtain ⟨rfl, rfl⟩ := Prod.mk.inj (List.mem_singleton.mp hnew)
      exact ⟨hready.sound, hready.id, hip, hready.password, hready.requested⟩

end Good

theorem good_opened : Good st [] (opened st) where
  ids := rfl
  entries _ h := sound_of_start h
  places _ := trivial
  lists _ h := nomatch h
  dialled _ _ h := nomatch h

/-- What is found by a scan goes to the section that writes it. -/
theorem good_scan {s : Service} (h : Good st es s) {call : Nat} {lan : Lan}
    (hmem : .scan call lan ∈ es) : Good st es (stepEvent st s (.scan call lan)) := by
  have hplace := h.places call
  unfold stepEvent
  dsimp only
  split
  · rename_i printer rest heq
    rw [heq] at hplace
    have hrest : ∀ p ∈ rest, Sound st es p := fun p hp => hplace p (List.mem_cons_of_mem _ hp)
    apply h.goTo
    unfold refreshPlace
    split_ifs
    · exact hrest
    · exact hrest
    · split
      · exact hrest
      · rename_i m hscan
        exact ⟨foundFor_of_scan hmem (hplace printer (by simp)).password hscan, hrest⟩
  · rename_i request printer heq
    rw [heq] at hplace
    split
    · exact h.goTo call trivial
    · rename_i m hscan
      exact h.goTo call ⟨hplace, foundFor_of_scan hmem hplace.sound.password hscan⟩
  · rename_i request printer heq
    rw [heq] at hplace
    split
    · exact h.goTo call trivial
    · rename_i m hscan
      split_ifs
      · exact h.goTo call trivial
      · exact h.goTo call ⟨hplace.1, foundFor_of_scan hmem hplace.1.sound.password hscan⟩
  · exact h

theorem good_write {s : Service} (h : Good st es s) (call : Nat) :
    Good st es (stepEvent st s (.write call)) := by
  have hplace := h.places call
  unfold stepEvent
  dsimp only
  split
  · rename_i printer m rest heq
    rw [heq] at hplace
    exact (h.discovery hplace.1).goTo call hplace.2
  · rename_i request printer heq
    rw [heq] at hplace
    apply (h.storedPassword hplace.sound.password).goTo call
    split_ifs with hip
    · exact ⟨hplace, by simpa using hip⟩
    · exact hplace
  · rename_i request printer m heq
    rw [heq] at hplace
    exact (h.discovery hplace.2).goTo call
      ⟨ready_resolved hplace.1 hplace.2, isBlank_to_string m.ip⟩
  · rename_i request printer m heq
    rw [heq] at hplace
    exact (h.discovery hplace.2).goTo call
      ⟨ready_rediscovered hplace.1 hplace.2, isBlank_to_string m.ip⟩
  · exact h

theorem good_connect {s : Service} (h : Good st es s) {call : Nat} {request : ConnectRequest}
    (hmem : .connect call request ∈ es) : Good st es (stepEvent st s (.connect call request)) := by
  unfold stepEvent lookup_printer
  dsimp only
  cases s.calls call with
  | returned =>
    cases hfind : s.printers.find? fun printer => printer.id = request.dev_id with
    | none => exact h
    | some printer =>
      dsimp only
      split_ifs with hpassword
      · exact h
      · have hid : printer.id = request.dev_id := by simpa using List.find?_some hfind
        exact h.goTo call (ready_of_lookup hmem
          (h.entries printer (List.mem_of_find?_eq_some hfind)) hid hpassword)
  | _ => exact h

theorem good_step {s : Service} {e : Event} (h : Good st es s) :
    Good st (es ++ [e]) (stepEvent st s e) := by
  replace h := h.mono (List.subset_append_left es [e])
  have hmem : e ∈ es ++ [e] := by simp
  cases e with
  | refresh call =>
    unfold stepEvent
    dsimp only
    split
    · exact h.goTo call h.entries
    · exact h
  | connect call request => exact good_connect h hmem
  | scan call lan => exact good_scan h hmem
  | write call => exact good_write h call
  | list call =>
    unfold stepEvent
    dsimp only
    split
    · exact h.sendList.goTo call trivial
    · exact h.sendList.goTo call trivial
    · exact h
  | hang_up call =>
    unfold stepEvent
    dsimp only
    split
    · exact h.goTo call trivial
    · exact h.goTo call trivial
    · exact h
  | session call opened =>
    have hplace := h.places call
    unfold stepEvent
    dsimp only
    split
    · rename_i request printer again heq
      rw [heq] at hplace
      apply (h.dial hplace.1 hplace.2).goTo call
      split_ifs
      · trivial
      · exact hplace
    · exact h

theorem good_after (st : Startup) (es : List Event) : Good st es (serviceAfter st es) := by
  induction es using List.reverseRecOn with
  | nil => exact good_opened
  | append_singleton es e ih =>
    unfold serviceAfter at ih ⊢
    rw [after_snoc]
    exact good_step ih

/-! ## One connect by itself -/

/-- What the sections of a connect see of the network. -/
def networkOf (from_str : String → Option JsonValue) (lan lan' : Lan)
    (session second_session : Except Status Unit) : Network where
  discover := discover_printer from_str lan
  session _ := session
  rediscover := discover_printer from_str lan'
  second_session _ := second_session

/-- The sections of a connect in their order. One that the connect does not come to does
nothing. -/
def connectAlone (call : Nat) (request : ConnectRequest) (lan lan' : Lan)
    (session second_session : Except Status Unit) : List Event :=
  [.connect call request, .write call, .scan call lan, .write call,
    .session call session.isOk, .scan call lan', .write call, .session call second_session.isOk]

theorem update_discovery_run (printers : List Printer) (id : String) (m : DiscoveryMatch) :
    (update_printer_discovery id m).run printers = .ok ⟨⟩ (update printers (.discovery id m)) := rfl

theorem sessions_alone {s : Service} {call : Nat} {request : ConnectRequest} {printer : Printer}
    (h : s.calls call = .connecting request printer false)
    (lan lan' : Lan) (session second_session : Except Status Unit) :
    (after (stepEvent st) s [.session call session.isOk, .scan call lan', .write call,
      .session call second_session.isOk]).printers =
      finalState ((connect_or_rediscover (networkOf st.from_str lan lan' session second_session)
        printer).run s.printers) := by
  unfold connect_or_rediscover networkOf
  dsimp only
  cases session with
  | ok => simp [stepEvent, h, Service.goTo, Except.isOk, Except.toBool, finalState]
  | error err =>
    cases hscan : discover_printer st.from_str lan' printer with
    | none =>
      simp [stepEvent, h, Service.goTo, Except.isOk, Except.toBool, hscan]
      rfl
    | some m =>
      by_cases hip : m.ip.to_string = printer.ip
      · simp [stepEvent, h, Service.goTo, Except.isOk, Except.toBool, hscan, hip]
        rfl
      · simp only [hip, if_false, EStateM.run_bind, update_discovery_run]
        cases second_session with
        | ok =>
          simp [stepEvent, h, Service.goTo, Service.writeList, Except.isOk, Except.toBool, hscan, hip]
          rfl
        | error err =>
          simp [stepEvent, h, Service.goTo, Service.writeList, Except.isOk, Except.toBool, hscan, hip]
          rfl

theorem resolve_run (network : Network) (printer : Printer) (printers : List Printer) :
    (resolve_printer_for_connect network printer).run printers =
      if isBlank printer.ip then
        match network.discover printer with
        | none => .error ⟨.Unavailable, "Could not discover printer host"⟩ printers
        | some m => .ok (resolved printer m) (update printers (.discovery printer.id m))
      else .ok printer printers := by
  unfold resolve_printer_for_connect
  cases isBlank printer.ip with
  | false => rfl
  | true =>
    cases hm : network.discover printer with
    | none =>
      simp only [if_true]
      rfl
    | some m =>
      simp only [if_true]
      rfl

theorem resolve_alone {s : Service} {call : Nat} {request : ConnectRequest} {printer : Printer}
    (h : s.calls call = .looked_up request printer)
    (lan lan' : Lan) (session second_session : Except Status Unit) :
    (after (stepEvent st) s ([.write call, .scan call lan, .write call] ++
      [.session call session.isOk, .scan call lan', .write call,
        .session call second_session.isOk])).printers =
      finalState ((resolve_printer_for_connect
          (networkOf st.from_str lan lan' session second_session) printer >>=
        connect_or_rediscover (networkOf st.from_str lan lan' session second_session)).run
          (update s.printers (.password printer.id printer.password))) := by
  rw [EStateM.run_bind, resolve_run, after_append]
  cases hip : isBlank printer.ip with
  | false =>
    have hfront : after (stepEvent st) s [.write call, .scan call lan, .write call] =
        (s.writeList (.password printer.id printer.password)).goTo call
          (.connecting request printer false) := by
      simp [stepEvent, h, Service.goTo, Service.writeList, hip]
    rw [hfront]
    exact sessions_alone (Function.update_self call _ _) lan lan' session second_session
  | true =>
    cases hscan : discover_printer st.from_str lan printer with
    | none =>
      simp [stepEvent, h, Service.goTo, Service.writeList, hip, hscan, networkOf, finalState]
    | some m =>
      have hfront : after (stepEvent st) s [.write call, .scan call lan, .write call] =
          ((s.writeList (.password printer.id printer.password)).writeList
            (.discovery printer.id m)).goTo call
              (.connecting request (resolved printer m) false) := by
        simp [stepEvent, h, Service.goTo, Service.writeList, hip, hscan]
      rw [hfront]
      simp only [networkOf, hscan, if_true]
      exact sessions_alone (Function.update_self call _ _) lan lan' session second_session

/-- With no other call between its sections, a connect is `connect_printer`. -/
theorem connect_alone {s : Service} {call : Nat} (h : s.calls call = .returned)
    (request : ConnectRequest) (lan lan' : Lan) (session second_session : Except Status Unit) :
    (after (stepEvent st) s
      (connectAlone call request lan lan' session second_session)).printers =
      finalState ((connect_printer (networkOf st.from_str lan lan' session second_session)
        request).run s.printers) := by
  unfold connect_printer connectAlone
  simp only [EStateM.run_bind, EStateM.run_get, lookup_printer]
  cases hf : s.printers.find? (fun printer => printer.id = request.dev_id) with
  | none => simp [finalState, stepEvent, h, lookup_printer, hf]
  | some printer =>
    rw [run_ofExcept_ok]
    dsimp only
    by_cases hp : connect_password printer request = ""
    · simp only [after_cons, after_nil, stepEvent, h, lookup_printer, hf, hp,
        resolve_connect_password, if_true]
      rfl
    · have hrun : (resolve_connect_password printer request).run s.printers =
          .ok (connect_password printer request) s.printers := by
        simp only [resolve_connect_password, hp, if_false]
        rfl
      have hupdate : (update_printer_password printer.id (connect_password printer request)).run
          s.printers = .ok ⟨⟩ (update s.printers (.password printer.id
            (connect_password printer request))) := by
        simp only [update, update_printer_password]
        split
        · rfl
        · rfl
      have hconnect : stepEvent st s (.connect call request) = s.goTo call (.looked_up request
          { printer with password := connect_password printer request }) := by
        simp only [stepEvent, h, lookup_printer, hf, hp, if_false]
      rw [hrun]
      dsimp only
      rw [hupdate]
      dsimp only
      rw [after_cons, hconnect, ← EStateM.run_bind]
      exact resolve_alone (Function.update_self call _ _) lan lan' session second_session

/-- From any start, in every interleaving of the calls and for any course of the network, what is
listed and dialled was configured, told or found. -/
theorem listed_printers_come_from_somewhere (st : Startup) (es : List Event) :
    ServiceLaw st es where
  ids := (good_after st es).ids
  ascending := by
    rw [(good_after st es).ids]
    exact ascending_merge_printers _ _ _
  entries := (good_after st es).entries
  lists := (good_after st es).lists
  dialled := (good_after st es).dialled

end bambu_farm_server.service
