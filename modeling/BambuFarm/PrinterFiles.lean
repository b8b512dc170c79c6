-- The upload handler of the server (`default_upload_handler`): an FTPS session with the
-- printer, and curl when the session fails at any point. The file of the printer is deleted
-- before it is written, so an upload that fails can leave a part of it or nothing.
import BambuFarm.Json
import BambuFarm.Triples
import BambuFarm.Uploads

open json frames triples bambu_farm
open bambu_farm_server.printers bambu_farm_server.uploads

namespace bambu_farm_server.ftps

variable {σ : Type}

/-! ## The model -/

/-- The text of a failure is only logged. -/
abbrev FtpM (σ : Type) := EStateM Unit σ

inductive FileType
  | Ascii
  | Binary
  deriving DecidableEq

/-- The calls of the FTP library on the session of the handler, of curl, and of the local
file, over the state `σ` of all that they reach. -/
structure Ftp (σ : Type) where
  connector : FtpM σ Unit
  connect_secure_implicit : String → FtpM σ Unit
  connect : String → FtpM σ Unit
  into_secure : String → FtpM σ Unit
  login : String → String → FtpM σ Unit
  transfer_type : FileType → FtpM σ Unit
  rm : String → FtpM σ Unit
  open_file : FtpM σ Unit
  put_file : String → Bytes → FtpM σ Unit
  quit : FtpM σ Unit
  /-- `curl --quote`, with the user, the url and the command. -/
  curl_quote : String → String → String → σ → σ
  /-- `curl --upload-file`, with the user and the url: whether its status is a success. -/
  curl_upload_file : String → String → Bytes → FtpM σ Bool
  temp_path_is_utf8 : Bool

section handler

variable (ftp : Ftp σ) (printer : Printer)

def finalize_rust_ftps_login : FtpM σ Unit := do
  ftp.login "bblp" printer.password
  ftp.transfer_type .Binary

def connect_rust_ftps_implicit : FtpM σ Unit := do
  ftp.connector
  ftp.connect_secure_implicit printer.ip
  finalize_rust_ftps_login ftp printer

def connect_rust_ftps_explicit : FtpM σ Unit := do
  ftp.connector
  ftp.connect printer.ip
  ftp.into_secure printer.ip
  finalize_rust_ftps_login ftp printer

def connect_rust_ftps : FtpM σ Unit :=
  tryCatch (connect_rust_ftps_implicit ftp printer) fun _ => connect_rust_ftps_explicit ftp printer

def upload_path_via_rust_ftps (remote_path : String) (content : Bytes) : FtpM σ Unit := do
  connect_rust_ftps ftp printer
  tryCatch (ftp.rm remote_path) fun _ => pure ()
  ftp.open_file
  ftp.put_file remote_path content
  ftp.quit

/-- A path of the local file that is no UTF-8 is a panic. -/
def upload_path_via_curl (remote_path : String) (content : Bytes) (s : σ) :
    Option (Except Status Bool) × σ :=
  let auth := "bblp:" ++ printer.password
  let base_url := "ftps://" ++ printer.ip ++ "/"
  let target_url := "ftps://" ++ printer.ip ++ "/" ++ remote_path
  let s := ftp.curl_quote auth base_url ("DELE " ++ remote_path) s
  if !ftp.temp_path_is_utf8 then (none, s) else
    match (ftp.curl_upload_file auth target_url content).run s with
    | .ok success s => (some (.ok success), s)
    | .error _ s => (some (.error ⟨.Internal, "curl exec failed"⟩), s)

end handler

def default_upload_handler (ftp : Ftp σ) (call : UploadCall) (s : σ) :
    Option (Except Status Bool) × σ :=
  match (upload_path_via_rust_ftps ftp call.printer call.remote_path call.content).run s with
  | .ok _ s => (some (.ok true), s)
  | .error _ s => upload_path_via_curl ftp call.printer call.remote_path call.content s

/-! ## What the handler relies on -/

/-- A byte that stands for itself in a url: curl decodes what is behind `%`, ends the path at `#`
and `?`, reads a type of transfer behind `;` and many urls between brackets and braces, and
refuses blanks and control bytes. -/
def standsForItself (c : UInt8) : Bool :=
  0x20 < c && c ≠ 0x7F && c ∉ ascii "#%;?[\\]\x7b\x7d"

/-- A character of a host name or of an address. -/
def isHostChar (c : Char) : Bool := c.isAlphanum || c = '.' || c = '-'

/-- A url of this host and path names this path at this host: no byte means anything else, the
host has no user and no port in it, and no part of the path is empty or leads up or nowhere. -/
structure Verbatim (host : String) (path : Text) : Prop where
  host_named : host ≠ ""
  host_plain : host.toList.all isHostChar = true
  path_plain : path.all standsForItself = true
  parts : ∀ part ∈ path.splitOn 0x2F, part ≠ [] ∧ part ≠ ascii "." ∧ part ≠ ascii ".."

instance (host : String) (path : Text) : Decidable (Verbatim host path) :=
  decidable_of_iff (host ≠ "" ∧ host.toList.all isHostChar = true ∧
      path.all standsForItself = true ∧
      ∀ part ∈ path.splitOn 0x2F, part ≠ [] ∧ part ≠ ascii "." ∧ part ≠ ascii "..")
    ⟨fun h => ⟨h.1, h.2.1, h.2.2.1, h.2.2.2⟩,
      fun h => ⟨h.host_named, h.host_plain, h.path_plain, h.parts⟩⟩

/-- The bytes of a remote path. -/
abbrev bytes_of (path : String) : Text := path.toList.flatMap String.utf8EncodeChar

/-- What an upload can leave behind under its path: what was there, nothing, or the front of
the content. -/
def Left (old : Option Bytes) (content : Bytes) (new : Option Bytes) : Prop :=
  new = old ∨ new = none ∨ ∃ n, new = some (content.take n)

/-- The calls on one path of a printer. `held` is what the printer holds there, whoever wrote
it, and `binary` says that the session transfers bytes as they are. Of curl nothing is known
when its url may name another file. -/
structure Lawful (ftp : Ftp σ) (printer : Printer) (path : String) (held : σ → Option Bytes)
    (binary : σ → Prop) : Prop where
  connector : Keeps held ftp.connector
  connect_secure_implicit : ∀ host, Keeps held (ftp.connect_secure_implicit host)
  connect : ∀ host, Keeps held (ftp.connect host)
  into_secure : ∀ host, Keeps held (ftp.into_secure host)
  login : ∀ user password, Keeps held (ftp.login user password)
  transfer_type : ∀ type, Keeps held (ftp.transfer_type type)
  transfer_type_binary : Triple (fun _ => True) (ftp.transfer_type .Binary) (fun _ => binary)
    fun _ => True
  rm : ∀ old, Triple (fun s => held s = old ∧ binary s) (ftp.rm path)
    (fun _ s => held s = none ∧ binary s)
    fun s => (held s = old ∨ held s = none) ∧ binary s
  open_file : ∀ old, Triple (fun s => held s = old ∧ binary s) ftp.open_file
    (fun _ s => held s = old ∧ binary s) fun s => held s = old
  put_file : ∀ old content, Triple (fun s => held s = old ∧ binary s) (ftp.put_file path content)
    (fun _ s => held s = some content) fun s => Left old content (held s)
  quit : Keeps held ftp.quit
  curl_quote : Verbatim printer.ip (bytes_of path) → ∀ auth s,
    held (ftp.curl_quote auth ("ftps://" ++ printer.ip ++ "/") ("DELE " ++ path) s) = held s ∨
    held (ftp.curl_quote auth ("ftps://" ++ printer.ip ++ "/") ("DELE " ++ path) s) = none
  /-- Curl transfers bytes as they are. -/
  curl_upload_file : Verbatim printer.ip (bytes_of path) → ∀ auth old content,
    Triple (fun s => held s = old)
      (ftp.curl_upload_file auth ("ftps://" ++ printer.ip ++ "/" ++ path) content)
      (fun success s => if success = true then held s = some content else Left old content (held s))
      fun s => Left old content (held s)

/-- The calls of an upload to one path of a printer keep what is held at another place. -/
structure Apart (ftp : Ftp σ) (printer : Printer) (path : String) {γ : Type} (held : σ → γ) :
    Prop where
  connector : Keeps held ftp.connector
  connect_secure_implicit : ∀ host, Keeps held (ftp.connect_secure_implicit host)
  connect : ∀ host, Keeps held (ftp.connect host)
  into_secure : ∀ host, Keeps held (ftp.into_secure host)
  login : ∀ user password, Keeps held (ftp.login user password)
  transfer_type : ∀ type, Keeps held (ftp.transfer_type type)
  rm : Keeps held (ftp.rm path)
  open_file : Keeps held ftp.open_file
  put_file : ∀ content, Keeps held (ftp.put_file path content)
  quit : Keeps held ftp.quit
  curl_quote : Verbatim printer.ip (bytes_of path) → ∀ auth s,
    held (ftp.curl_quote auth ("ftps://" ++ printer.ip ++ "/") ("DELE " ++ path) s) = held s
  curl_upload_file : Verbatim printer.ip (bytes_of path) → ∀ auth content,
    Keeps held (ftp.curl_upload_file auth ("ftps://" ++ printer.ip ++ "/" ++ path) content)

/-! ## The law -/

section

variable {ftp : Ftp σ} {printer : Printer} {path : String} {held : σ → Option Bytes}
  {binary : σ → Prop} {old : Option Bytes} {content : Bytes}

theorem Left.whole (old : Option Bytes) (content : Bytes) : Left old content (some content) :=
  .inr (.inr ⟨content.length, by rw [List.take_length]⟩)

/-- A second try on what a first one has left. -/
theorem Left.trans {mid new : Option Bytes} (h : Left old content mid)
    (h' : Left mid content new) : Left old content new := by
  rcases h' with rfl | h'
  · exact h
  · exact .inr h'

theorem finalize_triple (h : Lawful ftp printer path held binary) (old : Option Bytes) :
    Triple (fun s => held s = old) (finalize_rust_ftps_login ftp printer)
      (fun _ s => held s = old ∧ binary s) (fun s => held s = old) := by
  refine (triple_of_keeps (h.login _ _) old).bind fun _ => ?_
  intro s hs
  have hkept := triple_of_keeps (h.transfer_type .Binary) old
  cases hrun : (ftp.transfer_type .Binary).run s with
  | ok a s' => exact ⟨hkept.ok hs hrun, h.transfer_type_binary.ok trivial hrun⟩
  | error e s' => exact hkept.error hs hrun

/-- A session is binary, over whichever of the two ports it came about. -/
theorem connect_triple (h : Lawful ftp printer path held binary) (old : Option Bytes) :
    Triple (fun s => held s = old) (connect_rust_ftps ftp printer)
      (fun _ s => held s = old ∧ binary s) (fun s => held s = old) := by
  refine Triple.handle (F := fun s => held s = old) ?_ fun _ => ?_
  · exact (triple_of_keeps h.connector old).bind fun _ =>
      (triple_of_keeps (h.connect_secure_implicit _) old).bind fun _ => finalize_triple h old
  · exact (triple_of_keeps h.connector old).bind fun _ =>
      (triple_of_keeps (h.connect _) old).bind fun _ =>
        (triple_of_keeps (h.into_secure _) old).bind fun _ => finalize_triple h old

/-- The file is deleted, as far as the printer lets it be. -/
theorem rm_triple (h : Lawful ftp printer path held binary) (old : Option Bytes) :
    Triple (fun s => held s = old ∧ binary s) (tryCatch (ftp.rm path) fun _ => pure ())
      (fun _ s => (held s = old ∨ held s = none) ∧ binary s) (fun s => Left old content (held s)) :=
  ((h.rm old).weaken (fun _ hs => hs) (fun _ _ hs => ⟨.inr hs.1, hs.2⟩) (fun _ hs => hs)).handle
    fun _ => Triple.pure fun _ hs => hs

theorem upload_triple (h : Lawful ftp printer path held binary) (old : Option Bytes)
    (content : Bytes) :
    Triple (fun s => held s = old) (upload_path_via_rust_ftps ftp printer path content)
      (fun _ s => held s = some content) (fun s => Left old content (held s)) := by
  have hleft : ∀ s, held s = old → Left old content (held s) := fun s hs => .inl hs
  refine ((connect_triple h old).weaken (fun _ hs => hs) (fun _ _ hs => hs) hleft).bind fun _ => ?_
  refine (rm_triple h old).bind fun _ => ?_
  -- what is there behind the deletion is the old file or none
  intro s hs
  have hmid : Left old content (held s) := hs.1.imp id .inl
  have hput : Triple (fun t => held t = held s ∧ binary t)
      (do ftp.open_file; ftp.put_file path content; ftp.quit)
      (fun _ t => held t = some content) (fun t => Left (held s) content (held t)) := by
    refine ((h.open_file (held s)).weaken (fun _ ht => ht) (fun _ _ ht => ht)
      (fun _ ht => .inl ht)).bind fun _ => ?_
    refine (h.put_file (held s) content).bind fun _ => ?_
    refine (triple_of_keeps h.quit (some content)).weaken (fun _ ht => ht) (fun _ _ ht => ht) ?_
    intro t ht
    rw [ht]
    exact Left.whole _ _
  exact hput.weaken (fun _ ht => ht) (fun _ _ ht => ht) (fun _ ht => hmid.trans ht) s ⟨rfl, hs.2⟩

/-- What curl makes of what it finds. -/
theorem curl_left (h : Lawful ftp printer path held binary)
    (hurl : Verbatim printer.ip (bytes_of path)) (content : Bytes) (s : σ) :
    Left (held s) content (held (upload_path_via_curl ftp printer path content s).2) ∧
      ((upload_path_via_curl ftp printer path content s).1 = some (.ok true) →
        held (upload_path_via_curl ftp printer path content s).2 = some content) := by
  unfold upload_path_via_curl
  dsimp only
  have hquote : Left (held s) content (held (ftp.curl_quote ("bblp:" ++ printer.password)
      ("ftps://" ++ printer.ip ++ "/") ("DELE " ++ path) s)) :=
    (h.curl_quote hurl _ s).imp id .inl
  generalize ftp.curl_quote _ _ _ s = t at hquote ⊢
  split
  · exact ⟨hquote, by simp⟩
  · have hcurl := h.curl_upload_file hurl ("bblp:" ++ printer.password) (held t) content
    cases hrun : (ftp.curl_upload_file ("bblp:" ++ printer.password)
        ("ftps://" ++ printer.ip ++ "/" ++ path) content).run t with
    | ok success t' =>
      have hend := hcurl.ok rfl hrun
      cases success with
      | true =>
        have hwhole : held t' = some content := by simpa using hend
        refine ⟨?_, fun _ => hwhole⟩
        dsimp only
        rw [hwhole]
        exact Left.whole _ _
      | false =>
        refine ⟨hquote.trans ?_, by simp⟩
        simpa using hend
    | error e t' => exact ⟨hquote.trans (hcurl.error rfl hrun), by simp⟩

theorem connect_apart {γ : Type} {held : σ → γ} (h : Apart ftp printer path held) :
    Keeps held (connect_rust_ftps ftp printer) := by
  have hlogin : Keeps held (finalize_rust_ftps_login ftp printer) :=
    (h.login _ _).bind fun _ => h.transfer_type _
  apply keeps_handle
  · exact h.connector.bind fun _ => (h.connect_secure_implicit _).bind fun _ => hlogin
  · exact fun _ => h.connector.bind fun _ => (h.connect _).bind fun _ =>
      (h.into_secure _).bind fun _ => hlogin

theorem upload_apart {γ : Type} {held : σ → γ} (h : Apart ftp printer path held) (content : Bytes) :
    Keeps held (upload_path_via_rust_ftps ftp printer path content) :=
  (connect_apart h).bind fun _ => (keeps_handle h.rm fun _ => Keeps.pure _ _).bind fun _ =>
    h.open_file.bind fun _ => (h.put_file content).bind fun _ => h.quit

theorem curl_apart {γ : Type} {held : σ → γ} (h : Apart ftp printer path held)
    (hurl : Verbatim printer.ip (bytes_of path)) (content : Bytes) (s : σ) :
    held (upload_path_via_curl ftp printer path content s).2 = held s := by
  unfold upload_path_via_curl
  dsimp only
  have hquote := h.curl_quote hurl ("bblp:" ++ printer.password) s
  generalize ftp.curl_quote _ _ _ s = t at hquote ⊢
  split
  · exact hquote
  · have hcurl := h.curl_upload_file hurl ("bblp:" ++ printer.password) content t
    cases hrun : (ftp.curl_upload_file ("bblp:" ++ printer.password)
        ("ftps://" ++ printer.ip ++ "/" ++ path) content).run t with
    | ok success t' =>
      rw [hrun] at hcurl
      exact hcurl.trans hquote
    | error e t' =>
      rw [hrun] at hcurl
      exact hcurl.trans hquote

end

/-- The law of the upload handler. -/
structure Stored (content : Bytes) (old new : Option Bytes) (result : Option (Except Status Bool)) :
    Prop where
  left : Left old content new
  whole : result = some (.ok true) → new = some content

theorem handler_stored {ftp : Ftp σ} {call : UploadCall} {held : σ → Option Bytes}
    {binary : σ → Prop} (h : Lawful ftp call.printer call.remote_path held binary)
    (hurl : Verbatim call.printer.ip (bytes_of call.remote_path)) (s : σ) :
    Stored call.content (held s) (held (default_upload_handler ftp call s).2)
      (default_upload_handler ftp call s).1 := by
  have hupload := upload_triple h (held s) call.content
  unfold default_upload_handler
  cases hrun : (upload_path_via_rust_ftps ftp call.printer call.remote_path call.content).run s with
  | ok a s' =>
    have hwhole := hupload.ok rfl hrun
    refine ⟨?_, fun _ => hwhole⟩
    dsimp only
    rw [hwhole]
    exact Left.whole _ _
  | error e s' =>
    have hleft := hupload.error rfl hrun
    obtain ⟨hcurl, hwhole⟩ := curl_left h hurl call.content s'
    exact ⟨hleft.trans hcurl, hwhole⟩

theorem handler_apart {ftp : Ftp σ} {call : UploadCall} {γ : Type} {held : σ → γ}
    (h : Apart ftp call.printer call.remote_path held)
    (hurl : Verbatim call.printer.ip (bytes_of call.remote_path)) (s : σ) :
    held (default_upload_handler ftp call s).2 = held s := by
  have hupload := upload_apart h call.content s
  unfold default_upload_handler
  cases hrun : (upload_path_via_rust_ftps ftp call.printer call.remote_path call.content).run s with
  | ok a s' =>
    rw [hrun] at hupload
    exact hupload
  | error e s' =>
    rw [hrun] at hupload
    exact (curl_apart h hurl call.content s').trans hupload

/-! ## A printer that does what it is asked -/

/-- The files of a printer, and the mode of its session. -/
structure Disk where
  files : String → Option Bytes := fun _ => none
  binary : Bool := false

def Disk.store (s : Disk) (path : String) (file : Option Bytes) : Disk :=
  { s with files := fun p => if p = path then file else s.files p }

/-- The path of a url, behind its host. -/
def url_path (url : String) : String :=
  String.ofList (((url.toList.drop 8).dropWhile fun c => c ≠ '/').drop 1)

/-- The command of a quote names its path behind `DELE `. -/
def steady : Ftp Disk where
  connector := pure ()
  connect_secure_implicit := fun _ => modify fun s => { s with binary := false }
  connect := fun _ => modify fun s => { s with binary := false }
  into_secure := fun _ => pure ()
  login := fun _ _ => pure ()
  transfer_type := fun type => modify fun s => { s with binary := type = .Binary }
  rm := fun path => do
    if ((← get).files path).isNone then throw ()
    modify fun s => s.store path none
  open_file := pure ()
  put_file := fun path content => modify fun s => s.store path (some content)
  quit := pure ()
  curl_quote := fun _ _ command s => s.store (String.ofList (command.toList.drop 5)) none
  curl_upload_file := fun _ url content => do
    modify fun s => s.store (url_path url) (some content)
    pure true
  temp_path_is_utf8 := true

@[simp] theorem Disk.store_same (s : Disk) (path : String) (file : Option Bytes) :
    (s.store path file).files path = file := by
  simp [Disk.store]

theorem Disk.store_files (s : Disk) (path path' : String) (file : Option Bytes) :
    (s.store path' file).files path = if path = path' then file else s.files path := rfl

@[simp] theorem Disk.store_binary (s : Disk) (path : String) (file : Option Bytes) :
    (s.store path file).binary = s.binary := rfl

theorem url_path_of_verbatim {host path : String} (h : Verbatim host (bytes_of path)) :
    url_path ("ftps://" ++ host ++ "/" ++ path) = path := by
  have hslash : ∀ c ∈ host.toList, c ≠ '/' := by
    rintro c hc rfl
    exact absurd (List.all_eq_true.mp h.host_plain _ hc) (by decide)
  have hne : host.toList ≠ [] := by simpa using h.host_named
  obtain ⟨c, cs, hcs⟩ := List.exists_cons_of_ne_nil hne
  rw [hcs] at hslash
  have hurl : ("ftps://" ++ host ++ "/" ++ path).toList.drop 8 = cs ++ '/' :: path.toList := by
    simp [hcs]
  have hhost : ∀ d ∈ cs, decide (d ≠ '/') = true := fun d hd =>
    decide_eq_true (hslash d (List.mem_cons_of_mem _ hd))
  rw [url_path, hurl, List.dropWhile_append_of_pos hhost, List.dropWhile_cons_of_neg (by simp),
    List.drop_one, List.tail_cons, String.ofList_toList]

theorem steady_lawful (printer : Printer) (path : String) :
    Lawful steady printer path (fun s => s.files path) (fun s => s.binary = true) where
  connector := Keeps.pure _ _
  connect_secure_implicit := fun _ => Keeps.modify fun _ => rfl
  connect := fun _ => Keeps.modify fun _ => rfl
  into_secure := fun _ => Keeps.pure _ _
  login := fun _ _ => Keeps.pure _ _
  transfer_type := fun _ => Keeps.modify fun _ => rfl
  transfer_type_binary := fun s _ => by
    simp [steady, EStateM.run_modify]
  rm := by
    intro old s hs
    have hrun : (steady.rm path).run s = if (s.files path).isNone then .error () s
        else .ok ⟨⟩ (s.store path none) := by
      by_cases h : (s.files path).isNone = true
      · rw [if_pos h]
        simp only [steady, EStateM.run_bind, EStateM.run_get, h]
        rfl
      · rw [if_neg h]
        simp only [steady, EStateM.run_bind, EStateM.run_get, h]
        rfl
    rw [hrun]
    split_ifs
    · exact ⟨.inl hs.1, hs.2⟩
    · exact ⟨Disk.store_same _ _ _, hs.2⟩
  open_file := fun _ => Triple.pure fun _ hs => hs
  put_file := fun old content s _ => by
    simp [steady, EStateM.run_modify]
  quit := Keeps.pure _ _
  curl_quote := by
    intro _ auth s
    dsimp only [steady]
    rw [Disk.store_files]
    split_ifs
    · exact .inr rfl
    · exact .inl rfl
  curl_upload_file := by
    intro hurl auth old content s _
    have hrun : (steady.curl_upload_file auth ("ftps://" ++ printer.ip ++ "/" ++ path)
        content).run s = .ok true
          (s.store (url_path ("ftps://" ++ printer.ip ++ "/" ++ path)) (some content)) := rfl
    rw [hrun, url_path_of_verbatim hurl]
    simp

end bambu_farm_server.ftps
