-- The printer list of the server and the handler `connect_printer`. The
-- handler writes the password of the request into the list before it knows
-- whether the printer takes it, so a failed connect can change a stored
-- password. The law here says exactly when it does not.
import BambuFarm.Text
import BambuFarm.Proto
import BambuFarm.Frames

open text frames bambu_farm

namespace bambu_farm_server.printers

/-! ## The model -/

structure Printer where
  name : String
  id : String
  ip : String
  model : String
  password : String
  deriving DecidableEq

/-- The gRPC codes that the handlers use. -/
inductive Code
  | Unknown
  | InvalidArgument
  | Unavailable
  | Internal
  deriving DecidableEq

structure Status where
  code : Code
  message : String
  deriving DecidableEq

structure Ipv4Addr where
  bits : BitVec 32
  deriving DecidableEq

/-- Octet `i` of the address, the first one for `i = 0`. -/
def Ipv4Addr.octet (a : Ipv4Addr) (i : Nat) : Nat := (a.bits.extractLsb' (8 * (3 - i)) 8).toNat

def Ipv4Addr.to_string (a : Ipv4Addr) : String :=
  toString (a.octet 0) ++ "." ++ toString (a.octet 1) ++ "." ++ toString (a.octet 2) ++ "." ++
    toString (a.octet 3)

structure DiscoveryMatch where
  ip : Ipv4Addr
  name : Option String
  model : Option String
  deriving DecidableEq

def display_name_from_model_code (model : String) : Option String :=
  match trim model with
  | "3DPrinter-X1-Carbon" => some "Bambu Lab X1 Carbon"
  | "3DPrinter-X1" => some "Bambu Lab X1"
  | "C12" => some "Bambu Lab P1S"
  | "C11" => some "Bambu Lab P1P"
  | "N1" => some "Bambu Lab A1 mini"
  | "N2S" => some "Bambu Lab A1"
  | _ => none

/-- A handler of the server: it reads and writes the printer list, and it can fail at any
point with what it has written so far in place. -/
abbrev FarmM := EStateM Status (List Printer)

/-- What the network answers to one call of `connect_printer`: the two scans for the
printer, and the two attempts at an MQTT session. -/
structure Network where
  discover : Printer → Option DiscoveryMatch
  session : Printer → Except Status Unit
  rediscover : Printer → Option DiscoveryMatch
  second_session : Printer → Except Status Unit

/-- `f` on the first entry that `p` holds of, as `iter_mut().find` reaches it. -/
def updateFirst {α : Type*} (p : α → Bool) (f : α → α) : List α → List α
  | [] => []
  | x :: xs => if p x then f x :: xs else x :: updateFirst p f xs

def lookup_printer (printers : List Printer) (dev_id : String) : Except Status Printer :=
  match printers.find? (fun printer => printer.id = dev_id) with
  | some printer => .ok printer
  | none => .error ⟨.Unknown, "Could not find matching printer"⟩

/-- The text of a discovered field, when it is not blank. -/
def nonBlank (field : Option String) : Option String :=
  (field.map trim).filter (fun value => value ≠ "")

def discovered_entry (printer : Printer) (discovered : DiscoveryMatch) : Printer :=
  { printer with
    ip := discovered.ip.to_string
    name := if isBlank printer.name then (nonBlank discovered.name).getD printer.name
      else printer.name
    model := if isBlank printer.model then (nonBlank discovered.model).getD printer.model
      else printer.model }

def update_printer_discovery (dev_id : String) (discovered : DiscoveryMatch) : FarmM PUnit :=
  modify (updateFirst (fun printer => printer.id = dev_id)
    (fun printer => discovered_entry printer discovered))

def update_printer_password (dev_id password : String) : FarmM PUnit :=
  if isBlank password then pure ⟨⟩
  else modify (updateFirst (fun printer => printer.id = dev_id)
    (fun printer => { printer with password := password }))

/-- The password of a connect: the one of the request, or the stored one, without the
white space around it. -/
def connect_password (printer : Printer) (request : ConnectRequest) : String :=
  if isBlank request.password then trim printer.password else trim request.password

def resolve_connect_password (printer : Printer) (request : ConnectRequest) : FarmM String :=
  let password := connect_password printer request
  if password = "" then throw ⟨.InvalidArgument, "Missing printer password"⟩ else pure password

def resolve_printer_for_connect (network : Network) (printer : Printer) : FarmM Printer := do
  if !isBlank printer.ip then
    pure printer
  else
    match network.discover printer with
    | none => throw ⟨.Unavailable, "Could not discover printer host"⟩
    | some discovered =>
      update_printer_discovery printer.id discovered
      pure { printer with
        ip := discovered.ip.to_string
        name := if isBlank printer.name then
            (discovered.name.or (discovered.model.bind display_name_from_model_code)).getD
              ("Bambu " ++ printer.id)
          else printer.name
        model := if isBlank printer.model then discovered.model.getD "" else printer.model }

/-- The end of `connect_printer`: a first session, and a second one at the host that a new
scan finds when the first one fails. -/
def connect_or_rediscover (network : Network) (printer : Printer) : FarmM Printer := do
  match network.session printer with
  | .ok _ => pure printer
  | .error connect_err =>
    match network.rediscover printer with
    | none => throw connect_err
    | some discovered =>
      if discovered.ip.to_string = printer.ip then
        throw connect_err
      else
        update_printer_discovery printer.id discovered
        let rediscovered := { printer with
          ip := discovered.ip.to_string
          name := if isBlank printer.name then discovered.name.getD printer.name
            else printer.name
          model := if isBlank printer.model then discovered.model.getD printer.model
            else printer.model }
        match network.second_session rediscovered with
        | .ok _ => pure rediscovered
        | .error err => throw err

/-- `connect_printer`, with the printer of the session that it opens. -/
def connect_printer (network : Network) (request : ConnectRequest) : FarmM Printer := do
  let printer ← MonadExcept.ofExcept (lookup_printer (← get) request.dev_id)
  let password ← resolve_connect_password printer request
  let printer := { printer with password := password }
  update_printer_password printer.id password
  let printer ← resolve_printer_for_connect network printer
  connect_or_rediscover network printer

/-! ## The stored credentials -/

/-- The id and the stored password of each printer. -/
def credentials (printers : List Printer) : List (String × String) :=
  printers.map (fun printer => (printer.id, printer.password))

/-- The password that a connect with no password of its own would use. -/
def storedPassword (printers : List Printer) (dev_id : String) : Option String :=
  (printers.find? (fun printer => printer.id = dev_id)).map
    (fun printer => connect_password printer ⟨dev_id, ""⟩)

theorem map_updateFirst {α β : Type*} (p : α → Bool) (f : α → α) (g : α → β)
    (h : ∀ x, p x = true → g (f x) = g x) (l : List α) : (updateFirst p f l).map g = l.map g := by
  induction l with
  | nil => rfl
  | cons x xs ih =>
    unfold updateFirst
    split
    · rename_i hx
      simp [h x hx]
    · simp [ih]

theorem keeps_update_printer_discovery (dev_id : String) (discovered : DiscoveryMatch) :
    Keeps credentials (update_printer_discovery dev_id discovered) := by
  apply Keeps.modify
  intro printers
  apply map_updateFirst
  intro printer _
  simp only [discovered_entry]

theorem keeps_resolve_printer_for_connect (network : Network) (printer : Printer) :
    Keeps credentials (resolve_printer_for_connect network printer) := by
  unfold resolve_printer_for_connect
  split
  · exact Keeps.pure _ _
  · split
    · exact Keeps.throw _ _
    · apply Keeps.bind (keeps_update_printer_discovery _ _)
      intro _
      exact Keeps.pure _ _

theorem keeps_connect_or_rediscover (network : Network) (printer : Printer) :
    Keeps credentials (connect_or_rediscover network printer) := by
  unfold connect_or_rediscover
  split
  · exact Keeps.pure _ _
  · split
    · exact Keeps.throw _ _
    · split
      · exact Keeps.throw _ _
      · apply Keeps.bind (keeps_update_printer_discovery _ _)
        intro _
        dsimp only
        split
        · exact Keeps.pure _ _
        · exact Keeps.throw _ _

/-- The stored password of the first printer with the id changes, unless it is the new
one already. -/
theorem credentials_set_password (printers : List Printer) (dev_id password : String)
    (printer : Printer) (h : printers.find? (fun printer => printer.id = dev_id) = some printer) :
    credentials (updateFirst (fun printer => printer.id = dev_id)
      (fun printer => { printer with password := password }) printers) = credentials printers ↔
      password = printer.password := by
  induction printers with
  | nil => simp at h
  | cons x xs ih =>
    by_cases hx : x.id = dev_id
    · simp only [hx, decide_true, List.find?_cons_of_pos, Option.some.injEq] at h
      subst h
      simp [updateFirst, credentials, hx]
    · simp only [hx, decide_false, Bool.false_eq_true, not_false_eq_true,
        List.find?_cons_of_neg] at h
      simpa [updateFirst, credentials, hx] using ih h

/-- The password that a later connect uses is a matter of the credentials alone. -/
theorem storedPassword_of_credentials {ps qs : List Printer} (h : credentials ps = credentials qs)
    (dev_id : String) : storedPassword ps dev_id = storedPassword qs dev_id := by
  induction ps generalizing qs with
  | nil =>
    cases qs with
    | nil => rfl
    | cons q qs => simp [credentials] at h
  | cons p ps ih =>
    cases qs with
    | nil => simp [credentials] at h
    | cons q qs =>
      simp only [credentials, List.map_cons, List.cons.injEq, Prod.mk.injEq] at h
      obtain ⟨⟨hid, hpw⟩, ht⟩ := h
      by_cases hp : p.id = dev_id
      · simp [storedPassword, hp, hid ▸ hp, connect_password, hpw]
      · have := ih ht
        simpa [storedPassword, hp, hid ▸ hp] using this

/-! ## The law of a failed connect -/

/-- The request leaves the stored passwords alone: it names no printer, or there is no
password to connect with, or the password to connect with is the stored one. -/
def KeepsPassword (printers : List Printer) (request : ConnectRequest) : Prop :=
  ∀ printer, printers.find? (fun printer => printer.id = request.dev_id) = some printer →
    connect_password printer request = "" ∨ connect_password printer request = printer.password

theorem connect_password_not_blank (printer : Printer) (request : ConnectRequest)
    (h : connect_password printer request ≠ "") :
    isBlank (connect_password printer request) = false := by
  unfold connect_password at h ⊢
  split
  · rename_i hb
    simp only [hb, if_true] at h
    simpa [isBlank] using h
  · rename_i hb
    simp only [hb, if_false, Bool.false_eq_true] at h
    simpa [isBlank] using h

/-- Whatever the handler does, the credentials are the same at its end exactly when the
request leaves them alone. -/
theorem credentials_connect_printer (network : Network) (request : ConnectRequest)
    (printers : List Printer) :
    credentials (finalState ((connect_printer network request).run printers)) =
      credentials printers ↔ KeepsPassword printers request := by
  unfold connect_printer KeepsPassword
  simp only [EStateM.run_bind, EStateM.run_get, lookup_printer]
  cases hf : printers.find? (fun printer => printer.id = request.dev_id) with
  | none => simp [finalState]
  | some printer =>
    simp only [Option.some.injEq, forall_eq', run_ofExcept_ok]
    by_cases hp : connect_password printer request = ""
    · have hrun : (resolve_connect_password printer request).run printers =
          .error ⟨.InvalidArgument, "Missing printer password"⟩ printers := by
        simp only [resolve_connect_password, hp, if_true]
        rfl
      simp [hrun, finalState, hp]
    · have hrun : (resolve_connect_password printer request).run printers =
          .ok (connect_password printer request) printers := by
        simp only [resolve_connect_password, hp, if_false]
        rfl
      have hid : printer.id = request.dev_id := by simpa using List.find?_some hf
      rw [hrun]
      simp only [update_printer_password, connect_password_not_blank _ _ hp,
        Bool.false_eq_true, if_false, EStateM.run_modify, hp, false_or, hid]
      rw [← credentials_set_password printers request.dev_id _ printer hf]
      have hrest : ∀ p, Keeps credentials
          (resolve_printer_for_connect network p >>= connect_or_rediscover network) :=
        fun p => (keeps_resolve_printer_for_connect network p).bind
          (keeps_connect_or_rediscover network)
      rw [← EStateM.run_bind, hrest _]

/-- A connect that fails leaves every stored password as it was, and with it the password
of every later connect, exactly when the request leaves them alone. -/
theorem a_failed_connect_keeps_the_passwords (network : Network) (request : ConnectRequest)
    (printers printers' : List Printer) (err : Status)
    (h : (connect_printer network request).run printers = .error err printers') :
    (credentials printers' = credentials printers ∧
      ∀ dev_id, storedPassword printers' dev_id = storedPassword printers dev_id) ↔
      KeepsPassword printers request := by
  rw [← credentials_connect_printer network request printers, h]
  simp only [finalState]
  constructor
  · exact fun hc => hc.1
  · exact fun hc => ⟨hc, storedPassword_of_credentials hc⟩

/-- A printer with a good stored password, and a network where it cannot be reached. -/
def savedPrinter : Printer := ⟨"Test Printer", "printer-1", "192.0.2.10", "N1", "secret"⟩

def unreachable : Network where
  discover _ := none
  session _ := .error ⟨.Unavailable, "Could not connect to printer"⟩
  rediscover _ := none
  second_session _ := .error ⟨.Unavailable, "Could not connect to printer"⟩

/-- The stored password, typed with blanks around it, stays when the connect fails. -/
theorem a_failed_connect_with_the_stored_password :
    (connect_printer unreachable ⟨"printer-1", " secret "⟩).run [savedPrinter] =
      .error ⟨.Unavailable, "Could not connect to printer"⟩ [savedPrinter] ∧
    KeepsPassword [savedPrinter] ⟨"printer-1", " secret "⟩ :=
  ⟨rfl, (a_failed_connect_keeps_the_passwords unreachable ⟨"printer-1", " secret "⟩
    [savedPrinter] [savedPrinter] _ rfl).mp ⟨rfl, fun _ => rfl⟩⟩

/-- A wrong password, typed once, replaces the stored one although no session came of it. -/
theorem a_wrong_password_replaces_the_stored_one :
    ∃ err printers', (connect_printer unreachable ⟨"printer-1", "wrong"⟩).run [savedPrinter] =
      .error err printers' ∧ credentials printers' ≠ credentials [savedPrinter] ∧
      storedPassword printers' "printer-1" ≠ storedPassword [savedPrinter] "printer-1" := by
  refine ⟨_, _, rfl, ?_, ?_⟩
  · decide
  · decide

end bambu_farm_server.printers
