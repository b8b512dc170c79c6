-- How the server finds a printer whose host it does not know (`discover_printer`
-- of `main.rs`): the hosts of its networks that listen for MQTT are asked one
-- after the other, and the first one that answers for the printer is taken.
import BambuFarm.DiscoveryCandidates
import BambuFarm.PrinterList

open text
open bambu_farm_server.printers

namespace bambu_farm_server.discovery

/-! ## The answer of a printer -/

/-- A value of `serde_json`. An object has one member for a key. -/
inductive JsonValue
  | null
  | bool (value : Bool)
  | number (digits : String)
  | string (value : String)
  | array (values : List JsonValue)
  | object (members : List (String × JsonValue))

namespace JsonValue

def get (key : String) : JsonValue → Option JsonValue
  | .object members => (members.find? fun m => m.1 = key).map (·.2)
  | _ => none

def as_array : JsonValue → Option (List JsonValue)
  | .array values => some values
  | _ => none

def as_object : JsonValue → Option (List (String × JsonValue))
  | .object members => some members
  | _ => none

def as_bool : JsonValue → Option Bool
  | .bool value => some value
  | _ => none

def as_str : JsonValue → Option String
  | .string value => some value
  | _ => none

end JsonValue

def to_ascii_lowercase (s : String) : String := String.ofList (s.toList.map Char.toLower)

def contains (s part : String) : Bool := part.toList <:+: s.toList

def model_code_from_product_name (product_name : String) : Option String :=
  let product_name := to_ascii_lowercase (trim product_name)
  if contains product_name "x1 carbon" || contains product_name "x1c" then
    some "3DPrinter-X1-Carbon"
  else if contains product_name "x1" then some "3DPrinter-X1"
  else if contains product_name "p1s" then some "C12"
  else if contains product_name "p1p" then some "C11"
  else if contains product_name "a1 mini" || contains product_name "a1mini" then some "N1"
  else if contains product_name "a1" then some "N2S"
  else none

/-- The module has a product name that is not blank. -/
def isNamed (module : JsonValue) : Bool :=
  (((module.get "product_name").bind JsonValue.as_str).map fun name => !isBlank name).getD false

def isVisible (module : JsonValue) : Bool :=
  ((module.get "visible").bind JsonValue.as_bool).getD false

/-- The product name of the first visible module that has one, or of the first module that
has one. -/
def product_name (root : JsonValue) : Option String :=
  let modules := ((root.get "info").bind (JsonValue.get "module")).bind JsonValue.as_array
  let module := modules.bind fun modules =>
    (modules.find? fun module => isVisible module && isNamed module).or (modules.find? isNamed)
  nonBlank ((module.bind (JsonValue.get "product_name")).bind JsonValue.as_str)

/-- `from_str` is the one of `serde_json`. -/
def discovery_match_from_payload (from_str : String → Option JsonValue) (candidate_ip : Ipv4Addr)
    (payload : String) : DiscoveryMatch :=
  let name := product_name ((from_str payload).getD .null)
  { ip := candidate_ip, name := name, model := name.bind model_code_from_product_name }

/-! ## The codes of the models -/

/-- A code that has a name of its own. -/
def Known (model : String) : Prop := display_name_from_model_code model ≠ none

theorem known_of_product_name {name model : String}
    (h : model_code_from_product_name name = some model) : Known model := by
  unfold model_code_from_product_name at h
  unfold Known
  dsimp only at h
  split_ifs at h
  all_goals
    cases h
    decide

/-- The name of a code is the name of a product with this code. -/
theorem model_code_of_display_name {model name : String}
    (h : display_name_from_model_code model = some name) :
    model_code_from_product_name name = some (trim model) := by
  unfold display_name_from_model_code at h
  split at h
  case h_7 => cases h
  all_goals
    rename_i heq
    cases h
    rw [heq]
    decide

theorem nonBlank_eq_some {field : Option String} {value : String} (h : nonBlank field = some value) :
    isBlank value = false ∧ trim value = value := by
  obtain ⟨hmap, hne⟩ := Option.filter_eq_some_iff.mp h
  obtain ⟨raw, -, rfl⟩ := Option.map_eq_some_iff.mp hmap
  simp only [ne_eq, decide_not, Bool.not_eq_true', decide_eq_false_iff_not] at hne
  constructor
  · simpa [isBlank] using hne
  · exact trim_trim raw

/-! ## A scan -/

structure Message where
  topic : String
  payload : String

/-- The MQTT side of a host while it is asked. -/
structure Broker where
  /-- A client with the password is let in. -/
  accepts : String → Bool
  subscribes : String → Bool
  publishes : String → Bool
  /-- What comes in on a topic until the deadline. -/
  messages : String → List Message

/-- The networks of the server at the time of a scan. -/
structure Lan where
  interfaces : Option (List IfAddr)
  contiguous : ∀ found, interfaces = some found → ∀ iface ∈ found, Contiguous iface
  listens : Ipv4Addr → Bool
  /-- The order in which the attempts to connect end, which is any order. -/
  finished : List Ipv4Addr → List Ipv4Addr
  finished_perm : ∀ hosts, (finished hosts).Perm hosts
  broker : Ipv4Addr → Broker

section scan

variable (from_str : String → Option JsonValue) (lan : Lan) (printer : Printer)

/-- The arithmetic does not overflow for contiguous netmasks. -/
def local_hosts : List Ipv4Addr := (local_ipv4_candidates lan.interfaces).getD []

def mqtt_reachable_hosts : List Ipv4Addr := (lan.finished (local_hosts lan)).filter lan.listens

def report_topic : String := "device/" ++ printer.id ++ "/report"

def request_topic : String := "device/" ++ printer.id ++ "/request"

def probe_printer_identity (candidate_ip : Ipv4Addr) : Option DiscoveryMatch :=
  let broker := lan.broker candidate_ip
  if isBlank printer.password then none
  else if !broker.accepts printer.password then none
  else
    let subscribe_ok := broker.subscribes (report_topic printer)
    let publish_ok := subscribe_ok && broker.publishes (request_topic printer)
    if publish_ok then
      ((broker.messages (report_topic printer)).find? fun message =>
        message.topic = report_topic printer).map fun message =>
          discovery_match_from_payload from_str candidate_ip message.payload
    else none

def discover_printer : Option DiscoveryMatch :=
  (mqtt_reachable_hosts lan).findSome? (probe_printer_identity from_str lan printer)

/-! ## What a scan finds -/

/-- The printer answers at the address: it is a neighbour of one of the server's private
addresses, listens, takes the password and the request, and sends a report. -/
structure Answers (a : Ipv4Addr) : Prop where
  host : ∃ found ip length, lan.interfaces = some found ∧ length ≤ 32 ∧
    .V4 ip (netmask length) ∈ found ∧ Brings ip length a
  listens : lan.listens a = true
  password : isBlank printer.password = false
  accepted : (lan.broker a).accepts printer.password = true
  subscribed : (lan.broker a).subscribes (report_topic printer) = true
  published : (lan.broker a).publishes (request_topic printer) = true
  reports : ∃ message ∈ (lan.broker a).messages (report_topic printer),
    message.topic = report_topic printer

/-- The same network, whose hosts answer in another order. -/
def Lan.reordered (finished : List Ipv4Addr → List Ipv4Addr)
    (h : ∀ hosts, (finished hosts).Perm hosts) : Lan :=
  { lan with finished := finished, finished_perm := h }

/-- What a scan finds answers, a scan that finds nothing has missed nothing, and the order of
the hosts matters only to a printer that answers at two of them. -/
structure ScanLaw : Prop where
  answers : ∀ m, discover_printer from_str lan printer = some m → Answers lan printer m.ip
  is_private : ∀ m, discover_printer from_str lan printer = some m → is_private m.ip = true
  name : ∀ m name, discover_printer from_str lan printer = some m → m.name = some name →
    isBlank name = false
  model : ∀ m model, discover_printer from_str lan printer = some m → m.model = some model →
    Known model
  none_iff : discover_printer from_str lan printer = none ↔ ∀ a, ¬ Answers lan printer a
  order : ∀ a, (∀ b, Answers lan printer b → b = a) → ∀ finished h,
    discover_printer from_str (lan.reordered finished h) printer =
      discover_printer from_str lan printer

theorem mem_local_hosts (a : Ipv4Addr) : a ∈ local_hosts lan ↔
    ∃ found ip length, lan.interfaces = some found ∧ length ≤ 32 ∧
      .V4 ip (netmask length) ∈ found ∧ Brings ip length a := by
  unfold local_hosts
  cases hinterfaces : lan.interfaces with
  | none => simp [local_ipv4_candidates]
  | some found =>
    obtain ⟨all, hloop, hall⟩ := foldlM_push_candidates [] (lan.contiguous found hinterfaces)
    have hcovers : Covers found (dedup (all.mergeSort le)) :=
      covers_of_found (by simpa using hall)
    have hcandidates : local_ipv4_candidates (some found) = some (dedup (all.mergeSort le)) := by
      unfold local_ipv4_candidates
      dsimp only
      rw [hloop]
    rw [hcandidates, Option.getD_some, hcovers.mem_iff]
    simp

theorem mem_mqtt_reachable_hosts (a : Ipv4Addr) :
    a ∈ mqtt_reachable_hosts lan ↔ a ∈ local_hosts lan ∧ lan.listens a = true := by
  unfold mqtt_reachable_hosts
  rw [List.mem_filter, (lan.finished_perm _).mem_iff]

theorem probe_eq_some {a : Ipv4Addr} {m : DiscoveryMatch}
    (h : probe_printer_identity from_str lan printer a = some m) :
    m.ip = a ∧ m.model = m.name.bind model_code_from_product_name ∧
      ∃ payload, m.name = product_name ((from_str payload).getD .null) := by
  unfold probe_printer_identity at h
  dsimp only at h
  split_ifs at h
  obtain ⟨message, -, rfl⟩ := Option.map_eq_some_iff.mp h
  exact ⟨rfl, rfl, message.payload, rfl⟩

theorem probe_isSome_iff {a : Ipv4Addr} :
    (probe_printer_identity from_str lan printer a).isSome = true ↔
      isBlank printer.password = false ∧ (lan.broker a).accepts printer.password = true ∧
      (lan.broker a).subscribes (report_topic printer) = true ∧
      (lan.broker a).publishes (request_topic printer) = true ∧
      ∃ message ∈ (lan.broker a).messages (report_topic printer),
        message.topic = report_topic printer := by
  unfold probe_printer_identity
  dsimp only
  split_ifs with hpassword haccepts hpublish
  · simp [hpassword]
  · simp only [Bool.not_eq_true'] at haccepts
    simp [haccepts]
  · simp only [Bool.and_eq_true] at hpublish
    simp_all
  · simp only [Bool.and_eq_true, not_and] at hpublish
    simp_all

theorem answers_iff {a : Ipv4Addr} : Answers lan printer a ↔
    a ∈ mqtt_reachable_hosts lan ∧
      (probe_printer_identity from_str lan printer a).isSome = true := by
  rw [mem_mqtt_reachable_hosts, mem_local_hosts, probe_isSome_iff]
  constructor
  · intro h
    exact ⟨⟨h.host, h.listens⟩, h.password, h.accepted, h.subscribed, h.published, h.reports⟩
  · rintro ⟨⟨hhost, hlistens⟩, hpassword, haccepted, hsubscribed, hpublished, hreports⟩
    exact ⟨hhost, hlistens, hpassword, haccepted, hsubscribed, hpublished, hreports⟩

theorem discover_eq_some {m : DiscoveryMatch} (h : discover_printer from_str lan printer = some m) :
    Answers lan printer m.ip ∧
      probe_printer_identity from_str lan printer m.ip = some m := by
  obtain ⟨a, ha, hprobe⟩ := List.exists_of_findSome?_eq_some h
  obtain ⟨rfl, -⟩ := probe_eq_some from_str lan printer hprobe
  refine ⟨(answers_iff from_str lan printer).mpr ⟨ha, ?_⟩, hprobe⟩
  rw [hprobe]
  rfl

theorem discover_eq_none_iff :
    discover_printer from_str lan printer = none ↔ ∀ a, ¬ Answers lan printer a := by
  unfold discover_printer
  rw [List.findSome?_eq_none_iff]
  refine forall_congr' fun a => ?_
  rw [answers_iff from_str, not_and, Bool.not_eq_true, Option.isSome_eq_false_iff,
    Option.isNone_iff_eq_none]

theorem answers_reordered (finished : List Ipv4Addr → List Ipv4Addr)
    (h : ∀ hosts, (finished hosts).Perm hosts) (a : Ipv4Addr) :
    Answers (lan.reordered finished h) printer a ↔ Answers lan printer a := by
  constructor
  · intro ha
    exact ⟨ha.host, ha.listens, ha.password, ha.accepted, ha.subscribed, ha.published, ha.reports⟩
  · intro ha
    exact ⟨ha.host, ha.listens, ha.password, ha.accepted, ha.subscribed, ha.published, ha.reports⟩

theorem discover_reordered {a : Ipv4Addr} (hone : ∀ b, Answers lan printer b → b = a)
    (finished : List Ipv4Addr → List Ipv4Addr) (h : ∀ hosts, (finished hosts).Perm hosts) :
    discover_printer from_str (lan.reordered finished h) printer =
      discover_printer from_str lan printer := by
  cases hscan : discover_printer from_str lan printer with
  | none =>
    rw [discover_eq_none_iff] at hscan ⊢
    intro b hb
    exact hscan b ((answers_reordered lan printer finished h b).mp hb)
  | some m =>
    obtain ⟨hm, hprobe⟩ := discover_eq_some from_str lan printer hscan
    cases hscan' : discover_printer from_str (lan.reordered finished h) printer with
    | none =>
      rw [discover_eq_none_iff] at hscan'
      exact absurd ((answers_reordered lan printer finished h m.ip).mpr hm) (hscan' m.ip)
    | some m' =>
      obtain ⟨hm', hprobe'⟩ := discover_eq_some from_str _ printer hscan'
      have hip : m'.ip = m.ip :=
        (hone _ ((answers_reordered lan printer finished h _).mp hm')).trans (hone _ hm).symm
      rw [hip] at hprobe'
      exact hprobe'.symm.trans hprobe

theorem a_scan_finds_who_answers : ScanLaw from_str lan printer where
  answers m h := (discover_eq_some from_str lan printer h).1
  is_private m h := by
    obtain ⟨_, _, _, _, _, _, hbrings⟩ := (discover_eq_some from_str lan printer h).1.host
    exact hbrings.is_private
  name m name h hname := by
    obtain ⟨-, -, payload, hpayload⟩ :=
      probe_eq_some from_str lan printer (discover_eq_some from_str lan printer h).2
    exact (nonBlank_eq_some (hpayload.symm.trans hname)).1
  model m model h hmodel := by
    obtain ⟨-, hbind, -⟩ :=
      probe_eq_some from_str lan printer (discover_eq_some from_str lan printer h).2
    obtain ⟨name, -, hcode⟩ := Option.bind_eq_some_iff.mp (hbind.symm.trans hmodel)
    exact known_of_product_name hcode
  none_iff := discover_eq_none_iff from_str lan printer
  order _ hone finished h := discover_reordered from_str lan printer hone finished h

end scan

/-- A network with one other host, which lets the printer in. -/
def pairLan : Lan where
  interfaces := some [.V4 ⟨0xC0A80101#32⟩ (netmask 30), .V6]
  contiguous := by
    rintro _ ⟨⟩
    simpa [Contiguous] using ⟨30, by decide, rfl⟩
  listens := fun _ => true
  finished := List.reverse
  finished_perm := List.reverse_perm
  broker := fun _ => {
    accepts := fun password => password = "12345678"
    subscribes := fun _ => true
    publishes := fun _ => true
    messages := fun topic => [⟨topic, ""⟩] }

example : (discover_printer (fun _ => none) pairLan ⟨"", "printer-1", "", "", "12345678"⟩).map
    (·.ip) = some ⟨0xC0A80102#32⟩ := by decide +kernel

end bambu_farm_server.discovery
