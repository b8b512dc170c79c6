-- The files of a printer behind the tunnel: the listing that the server makes over FTPS,
-- and the download that the client makes over curl or FTPS. A path of the listing leads to
-- the file that it was listed for.
import BambuFarm.DownloadIdentity
import BambuFarm.PrintedFiles
import BambuFarm.TunnelRequests

open json search serde_json frames triples bambu_farm
open bambu_farm_server.printers bambu_farm_server.ftps
open bambu_farm_server.control (RemoteFile is_model remote_media_dir file_entry list_files_via_ftps
  control_response control_error_response handle_control_message)
open bambu_farm_client.tunnel_protocol bambu_farm_client.tunnel_requests
open bambu_farm_client.available_printers (as_bytes)

namespace bambu_farm.tunnel_files

variable {σ : Type}

/-! ## The calls that read -/

/-- The FTP library with its calls that read, and curl as a downloader. -/
structure FtpFiles (σ : Type) extends Ftp σ where
  mlsd : Option Text → FtpM σ (List Text)
  list : Option Text → FtpM σ (List Text)
  /-- What the library understands of a line. -/
  try_from : Text → Option RemoteFile
  retr_as_buffer : Text → FtpM σ Blob
  /-- `curl --output`, with the user and the url, and the reading of the output. -/
  curl_output : Text → Text → FtpM σ Blob

/-- A result that is not looked at. -/
def ignored (x : FtpM σ Unit) : FtpM σ Unit := tryCatch x fun _ => pure ()

/-! ## The listing of the server -/

section listing

variable (ftp : FtpFiles σ) (printer : Printer)

/-- The lines of a listing, by `LIST` in a session of its own when `MLSD` fails. -/
def raw_entries (remote_dir : Option Text) : FtpM σ (List Text) := do
  connect_rust_ftps ftp.toFtp printer
  let entries ← tryCatch (ftp.mlsd remote_dir) fun _ => do
    ignored ftp.quit
    connect_rust_ftps ftp.toFtp printer
    let entries ← ftp.list remote_dir
    ignored ftp.quit
    pure entries
  ignored ftp.quit
  pure entries

/-- What the server sees of the printer. -/
def listed (s : σ) : bambu_farm_server.control.Printer := fun remote_dir =>
  match (raw_entries ftp printer remote_dir).run s with
  | .ok entries _ => some (entries.map ftp.try_from)
  | .error _ _ => none

end listing

/-! ## The download of the client -/

/-- What a request for a file knows of its tunnel. -/
structure Tunnel where
  tunnel_url : String
  /-- `printer_host_for_device` of the device. -/
  device_host : Option String
  /-- The pairs of a query, as the url library reads them. -/
  query_pairs : String → Option (List (String × String))

def tunnel_url_host (url : String) : Option String :=
  let start := "bambu:///local/".toList
  if start.isPrefixOf url.toList then
    let host_part := (url.toList.drop start.length).takeWhile fun c => c ≠ '?'
    let trimmed := (host_part.dropWhile fun c => c = '/').rdropWhile fun c => c = '/'
    let trimmed := trimmed.rdropWhile fun c => c = '.'
    if trimmed = [] then none else some (String.ofList trimmed)
  else none

def tunnel_query_value (query_pairs : String → Option (List (String × String)))
    (url key : String) : Option String :=
  if '?' ∈ url.toList then
    let query := (url.toList.dropWhile fun c => c ≠ '?').drop 1
    (query_pairs (String.ofList query)).bind fun pairs =>
      (pairs.find? fun pair => pair.1 = key).map (·.2)
  else none

section download

variable (ftp : FtpFiles σ)

def finalize_ftps_login (username password : String) : FtpM σ Unit := do
  ftp.login username password
  ftp.transfer_type .Binary

/-- The explicit session is tried when the implicit one does not come about. A login that
fails is the end. -/
def connect_ftps (host username password : String) : FtpM σ Unit := do
  ftp.connector
  let implicit ← tryCatch (do ftp.connect_secure_implicit host; pure true) fun _ => pure false
  if implicit then finalize_ftps_login ftp username password
  else
    ftp.connector
    ftp.connect host
    ftp.into_secure host
    finalize_ftps_login ftp username password

def tunnel_download_file_via_curl (host username password : String) (remote_path : Text) :
    FtpM σ Blob :=
  ftp.curl_output (as_bytes (username ++ ":" ++ password))
    (as_bytes ("ftps://" ++ host ++ "/") ++ remote_path)

def tunnel_download_file (tunnel : Tunnel) (remote_path : Text) : FtpM σ Blob :=
  match tunnel.device_host.or (tunnel_url_host tunnel.tunnel_url) with
  | none => throw ()
  | some host =>
    let username := (tunnel_query_value tunnel.query_pairs tunnel.tunnel_url "user").getD "bblp"
    match tunnel_query_value tunnel.query_pairs tunnel.tunnel_url "passwd" with
    | none => throw ()
    | some password =>
      let normalized_path := remote_path.dropWhile fun c => c = 0x2F
      tryCatch (tunnel_download_file_via_curl ftp host username password normalized_path)
        fun _ => do
          connect_ftps ftp host username password
          let cursor ← ftp.retr_as_buffer normalized_path
          ignored ftp.quit
          pure cursor

/-- What a request meets when the files are as they are in the state `s`. -/
def worldOf (printer : Printer) (tunnel : Tunnel) (world : Outside) (s : σ) : Outside :=
  { world with
    lookup_printer := some (listed ftp printer s)
    tunnel_download_file := fun remote_path =>
      match (tunnel_download_file ftp tunnel remote_path).run s with
      | .ok blob _ => some blob.bytes
      | .error _ _ => none }

end download

/-! ## What the calls rely on -/

/-- The path of a file of a directory, or of the root. -/
def path_of (remote_dir : Option Text) (name : Text) : Text :=
  match remote_dir with
  | some remote_dir => remote_dir ++ ascii "/" ++ name
  | none => name

/-- The lines name the files of a directory and their sizes. -/
structure Lists (try_from : Text → Option RemoteFile) (files : Text → Option Blob)
    (remote_dir : Option Text) (lines : List Text) : Prop where
  sound : ∀ line ∈ lines, ∀ file, try_from line = some file → file.is_file = true →
    0x2F ∉ file.name ∧ ∃ blob, files (path_of remote_dir file.name) = some blob ∧
      file.size = blob.bytes.length
  complete : ∀ name blob, 0x2F ∉ name → files (path_of remote_dir name) = some blob →
    ∃ line ∈ lines, ∃ file, try_from line = some file ∧ file.is_file = true ∧ file.name = name

/-- The calls read the files of the printer at `host` and change none. `session` tells which host
the session is with, and `binary` that it transfers bytes as they are. Of curl nothing is known
when its url may name another file. -/
structure Serves (ftp : FtpFiles σ) (host : String) (files : σ → Text → Option Blob)
    (session : String → σ → Prop) (binary : σ → Prop) : Prop where
  connector : Keeps files ftp.connector
  connect_secure_implicit : ∀ F h, Triple (fun s => files s = F) (ftp.connect_secure_implicit h)
    (fun _ s => files s = F ∧ session h s) fun s => files s = F
  connect : ∀ F h, Triple (fun s => files s = F) (ftp.connect h)
    (fun _ s => files s = F ∧ session h s) fun s => files s = F
  into_secure : ∀ F h, Triple (fun s => files s = F ∧ session h s) (ftp.into_secure h)
    (fun _ s => files s = F ∧ session h s) fun s => files s = F
  login : ∀ F h user password, Triple (fun s => files s = F ∧ session h s) (ftp.login user password)
    (fun _ s => files s = F ∧ session h s) fun s => files s = F
  transfer_type : ∀ F h, Triple (fun s => files s = F ∧ session h s) (ftp.transfer_type .Binary)
    (fun _ s => files s = F ∧ session h s ∧ binary s) fun s => files s = F
  quit : Keeps files ftp.quit
  mlsd : ∀ F dir, Triple (fun s => files s = F ∧ session host s) (ftp.mlsd dir)
    (fun lines s => files s = F ∧ Lists ftp.try_from F dir lines) fun s => files s = F
  list : ∀ F dir, Triple (fun s => files s = F ∧ session host s) (ftp.list dir)
    (fun lines s => files s = F ∧ Lists ftp.try_from F dir lines) fun s => files s = F
  retr_as_buffer : ∀ F path, Triple (fun s => files s = F ∧ session host s ∧ binary s)
    (ftp.retr_as_buffer path) (fun blob s => files s = F ∧ F path = some blob)
    fun s => files s = F
  curl_output : ∀ F auth path, Verbatim host path → Triple (fun s => files s = F)
    (ftp.curl_output auth (as_bytes ("ftps://" ++ host ++ "/") ++ path))
    (fun blob s => files s = F ∧ F path = some blob) fun s => files s = F

section laws

variable {ftp : FtpFiles σ} {host : String} {files : σ → Text → Option Blob}
  {session : String → σ → Prop} {binary : σ → Prop} {F : Text → Option Blob}

theorem ignored_keeps {x : FtpM σ Unit} (h : Keeps files x) : Keeps files (ignored x) :=
  keeps_handle h fun _ => Keeps.pure _ _

/-- A call that keeps the files also keeps a fact about them. -/
theorem triple_aside {α : Type} {x : FtpM σ α} (h : Keeps files x) (P : Prop) :
    Triple (fun s => files s = F ∧ P) x (fun _ s => files s = F ∧ P) fun s => files s = F := by
  intro s hs
  have hkeeps := triple_of_keeps h F s hs.1
  cases hrun : x.run s with
  | ok a s' =>
    rw [hrun] at hkeeps
    exact ⟨hkeeps, hs.2⟩
  | error e s' =>
    rw [hrun] at hkeeps
    exact hkeeps

theorem connect_triple (h : Serves ftp host files session binary) (printer : Printer)
    (F : Text → Option Blob) :
    Triple (fun s => files s = F) (connect_rust_ftps ftp.toFtp printer)
      (fun _ s => files s = F ∧ session printer.ip s ∧ binary s) fun s => files s = F := by
  have hlogin : Triple (fun s => files s = F ∧ session printer.ip s)
      (finalize_rust_ftps_login ftp.toFtp printer)
      (fun _ s => files s = F ∧ session printer.ip s ∧ binary s) fun s => files s = F :=
    (h.login F _ _ _).bind fun _ => h.transfer_type F _
  refine Triple.handle (F := fun s => files s = F) ?_ fun _ => ?_
  · exact (triple_of_keeps h.connector F).bind fun _ =>
      (h.connect_secure_implicit F _).bind fun _ => hlogin
  · exact (triple_of_keeps h.connector F).bind fun _ => (h.connect F _).bind fun _ =>
      (h.into_secure F _).bind fun _ => hlogin

/-- Both ways to a listing list the files. -/
theorem raw_entries_triple {printer : Printer} (h : Serves ftp printer.ip files session binary)
    (F : Text → Option Blob) (dir : Option Text) :
    Triple (fun s => files s = F) (raw_entries ftp printer dir)
      (fun lines s => files s = F ∧ Lists ftp.try_from F dir lines) fun s => files s = F := by
  have hconnect := (connect_triple h printer F).weaken (fun _ hs => hs)
    (fun _ s hs => (⟨hs.1, hs.2.1⟩ : files s = F ∧ session printer.ip s)) fun _ hs => hs
  have hquit : ∀ lines, Triple (fun s => files s = F ∧ Lists ftp.try_from F dir lines)
      (do ignored ftp.quit; pure lines)
      (fun lines s => files s = F ∧ Lists ftp.try_from F dir lines) fun s => files s = F :=
    fun lines => (triple_aside (ignored_keeps h.quit) _).bind fun _ => Triple.pure fun _ hs => hs
  refine hconnect.bind fun _ => Triple.bind ?_ hquit
  refine (h.mlsd F dir).handle fun _ => ?_
  refine (triple_of_keeps (ignored_keeps h.quit) F).bind fun _ => ?_
  exact hconnect.bind fun _ => (h.list F dir).bind hquit

theorem connect_ftps_triple (h : Serves ftp host files session binary) (username password : String)
    (F : Text → Option Blob) :
    Triple (fun s => files s = F) (connect_ftps ftp host username password)
      (fun _ s => files s = F ∧ session host s ∧ binary s) fun s => files s = F := by
  have hlogin : Triple (fun s => files s = F ∧ session host s)
      (finalize_ftps_login ftp username password)
      (fun _ s => files s = F ∧ session host s ∧ binary s) fun s => files s = F :=
    (h.login F _ _ _).bind fun _ => h.transfer_type F _
  have himplicit : Triple (fun s => files s = F)
      (tryCatch (do ftp.connect_secure_implicit host; pure true) fun _ => pure false)
      (fun implicit s => files s = F ∧ (implicit = true → session host s))
      fun s => files s = F := by
    refine Triple.handle (F := fun s => files s = F)
      ((h.connect_secure_implicit F host).bind fun _ => ?_) fun _ => ?_
    · exact Triple.pure fun _ hs => ⟨hs.1, fun _ => hs.2⟩
    · exact Triple.pure fun _ hs => ⟨hs, fun hfalse => by cases hfalse⟩
  refine (triple_of_keeps h.connector F).bind fun _ => himplicit.bind fun implicit => ?_
  cases implicit with
  | true => exact hlogin.weaken (fun _ hs => ⟨hs.1, hs.2 rfl⟩) (fun _ _ hs => hs) fun _ hs => hs
  | false =>
    refine Triple.weaken ?_ (fun s hs => hs.1) (fun _ _ hs => hs) fun _ hs => hs
    exact (triple_of_keeps h.connector F).bind fun _ => (h.connect F host).bind fun _ =>
      (h.into_secure F host).bind fun _ => hlogin

/-- A download gives the bytes of the file, over curl or over FTPS. -/
theorem download_triple {tunnel : Tunnel} {remote_path : Text}
    (h : Serves ftp host files session binary)
    (hhost : tunnel.device_host.or (tunnel_url_host tunnel.tunnel_url) = some host)
    (hurl : Verbatim host (remote_path.dropWhile fun c => c = 0x2F))
    (F : Text → Option Blob) :
    Triple (fun s => files s = F) (tunnel_download_file ftp tunnel remote_path)
      (fun blob s => files s = F ∧ F (remote_path.dropWhile fun c => c = 0x2F) = some blob)
      fun s => files s = F := by
  unfold tunnel_download_file
  rw [hhost]
  dsimp only
  split
  · exact fun s hs => hs
  · refine (h.curl_output F _ _ hurl).handle fun _ => ?_
    refine (connect_ftps_triple h _ _ F).bind fun _ => ?_
    refine (h.retr_as_buffer F _).bind fun blob => ?_
    exact (triple_aside (ignored_keeps h.quit) _).bind fun _ => Triple.pure fun _ hs => hs

end laws

/-! ## The listing as JSON -/

/-- What a slicer relies on of `serde_json`. -/
structure Serde extends SerdeText, SerdeStrings

/-- The object of a file in a list. -/
structure Entry (e : Value) (name path : Text) (size : Nat) : Prop where
  name : (get e (ascii "name")).bind as_str = some name
  path : (get e (ascii "path")).bind as_str = some path
  size : (get e (ascii "size")).bind as_i64 = some (size : Int)

/-- The list of a reply. -/
def file_lists (reply : Value) : List Value :=
  (((get reply (ascii "reply")).bind fun r => get r (ascii "file_lists")).bind as_array).getD []

def result_of (reply : Value) : Option Int := (get reply (ascii "result")).bind as_i64

section reply

variable (serde : Serde)

theorem parse_of_whole {t : Text} {v : Value} (h : Whole t v) : parse t = some v := by
  have hrun := h.reads [] []
  rw [List.append_nil] at hrun
  rw [parse, eval, start, hrun]
  rfl

theorem whole_string (s : Text) : Whole (serde.string s) (.str s) := by
  obtain ⟨v, hv⟩ := (isWhole_string serde.toSerdeText s).whole
  have hparse := parse_of_whole hv
  rw [serde.parse_string s] at hparse
  rw [Option.some.inj hparse]
  exact hv

/-- The text of an object, whatever the order of its members. -/
theorem whole_object {ms : List (Text × Text)} {vs : List Member} (h : Members ms vs) :
    ∃ vs', vs'.Perm vs ∧ Whole (serde.object ms) (.obj vs') := by
  obtain ⟨vs', hvs', hperm⟩ := List.perm_comp_forall₂ (serde.order_perm ms) h
  exact ⟨vs', hperm, whole_objectText hvs'⟩

theorem whole_file_entry (remote_dir : Option Text) {file : RemoteFile}
    (hsize : file.size < 2 ^ 63) : ∃ e, Whole (file_entry serde.toSerdeText remote_dir file) e ∧
      Entry e file.name (path_of remote_dir file.name) file.size := by
  have hmembers : Members [(ascii "name", serde.string file.name),
      (ascii "path", serde.string (path_of remote_dir file.name)),
      (ascii "time", integer file.modified), (ascii "size", decimal file.size)]
      [(ascii "name", .str file.name), (ascii "path", .str (path_of remote_dir file.name)),
        (ascii "time", .num (integer file.modified)), (ascii "size", .num (decimal file.size))] :=
    .cons (by decide) (whole_string serde _).toReads
      (.cons (by decide) (whole_string serde _).toReads (.cons (by decide) (reads_integer _)
        (.cons (by decide) (reads_decimal _) .nil)))
  obtain ⟨vs, hperm, hwhole⟩ := whole_object serde hmembers
  refine ⟨.obj vs, ?_, ?_, ?_, ?_⟩
  · cases remote_dir with
    | none => exact hwhole
    | some dir => exact hwhole
  · rw [get_of_perm hperm (v := .str file.name) rfl]
    rfl
  · rw [get_of_perm hperm (v := .str (path_of remote_dir file.name)) rfl]
    rfl
  · rw [get_of_perm hperm (v := .num (decimal file.size)) rfl, Option.bind_some,
      ← integer_natCast]
    exact as_i64_integer ⟨by omega, by exact_mod_cast hsize⟩

/-- The reply of a listing, read back. -/
theorem parse_listing (sequence : Int) (remote_dir : Option Text) (listing : List RemoteFile)
    (hsize : ∀ file ∈ listing, file.size < 2 ^ 63) :
    ∃ v, parse (control_response serde.toSerdeText sequence 0 (serde.object
        [(ascii "file_lists", arrayText (listing.map (file_entry serde.toSerdeText remote_dir)))]))
      = some v ∧
      List.Forall₂ (fun file e => Entry e file.name (path_of remote_dir file.name) file.size)
        listing (file_lists v) := by
  have hentries : ∃ es, List.Forall₂ Whole
      (listing.map (file_entry serde.toSerdeText remote_dir)) es ∧
      List.Forall₂ (fun file e => Entry e file.name (path_of remote_dir file.name) file.size)
        listing es := by
    induction listing with
    | nil => exact ⟨[], .nil, .nil⟩
    | cons file listing ih =>
      obtain ⟨e, he, hentry⟩ := whole_file_entry serde remote_dir (hsize file (by simp))
      obtain ⟨es, hes, hall⟩ := ih fun f hf => hsize f (List.mem_cons_of_mem _ hf)
      exact ⟨e :: es, .cons he hes, .cons hentry hall⟩
  obtain ⟨es, hes, hall⟩ := hentries
  obtain ⟨list, hlist, hlistText⟩ := whole_object serde
    (.cons (k := ascii "file_lists") (by decide) (whole_arrayText hes).toReads .nil)
  obtain ⟨vs, hvs, hparse, -⟩ := reads_serde_object serde.toSerdeJson
    (.cons (k := ascii "result") (by decide) (reads_integer 0)
      (.cons (k := ascii "sequence") (by decide) (reads_integer sequence)
        (.cons (k := ascii "reply") (by decide) hlistText.toReads .nil))) (by simp)
  refine ⟨.obj vs, hparse, ?_⟩
  have hfile_lists : file_lists (.obj vs) = es := by
    unfold file_lists
    rw [get_of_perm hvs (v := .obj list) rfl, Option.bind_some,
      get_of_perm hlist (v := .arr es) rfl]
    rfl
  rw [hfile_lists]
  exact hall

theorem result_of_control_response {reply : Text} (hreply : IsValue reply) (sequence result : Int)
    (hresult : InI64 result) {v : Value}
    (hv : parse (control_response serde.toSerdeText sequence result reply) = some v) :
    result_of v = some result := by
  obtain ⟨-, w, hw⟩ := hreply
  have hmembers : Members [(ascii "result", integer result), (ascii "sequence", integer sequence),
      (ascii "reply", reply)] [(ascii "result", .num (integer result)),
      (ascii "sequence", .num (integer sequence)), (ascii "reply", w)] :=
    .cons (by decide) (reads_integer _) (.cons (by decide) (reads_integer _)
      (.cons (by decide) hw .nil))
  obtain ⟨ms, hms, hparse, -⟩ := reads_serde_object serde.toSerdeJson hmembers (by simp)
  rw [control_response, hparse] at hv
  rw [← Option.some.inj hv, result_of, get_of_perm hms (v := .num (integer result)) rfl]
  exact as_i64_integer hresult

end reply

/-! ## What is listed and what is downloaded -/

/-- The type of files that a request asks for. -/
def requested_type (request : Value) : Text :=
  ((get (req_of request) (ascii "type")).bind as_str).getD (ascii "model")

/-- The types that have a directory. -/
def IsMedia (type : Text) : Prop :=
  type = ascii "model" ∨ type = ascii "timelapse" ∨ type = ascii "video"

/-- The list names the files that the printer has, with their sizes, and no others. -/
structure ListsFiles (files : Text → Option Blob) (type : Text) (reply : Value) : Prop where
  sound : ∀ e ∈ file_lists reply, ∃ name blob, 0x2F ∉ name ∧
    files (path_of (remote_media_dir type) name) = some blob ∧
    Entry e name (path_of (remote_media_dir type) name) blob.bytes.length ∧
    (type = ascii "model" → is_model name = true)
  complete : IsMedia type → ∀ name blob, 0x2F ∉ name →
    files (path_of (remote_media_dir type) name) = some blob →
    (type = ascii "model" → is_model name = true) →
    ∃ e ∈ file_lists reply, Entry e name (path_of (remote_media_dir type) name) blob.bytes.length

theorem forall₂_mem_right {α β : Type} {R : α → β → Prop} {l : List α} {m : List β}
    (h : List.Forall₂ R l m) {b : β} (hb : b ∈ m) : ∃ a ∈ l, R a b := by
  obtain ⟨i, hi, rfl⟩ := List.getElem_of_mem hb
  have hi' : i < l.length := by
    rw [h.length_eq]
    exact hi
  exact ⟨l[i], List.getElem_mem hi', h.get hi' hi⟩

section listing

variable (serde : Serde) {ftp : FtpFiles σ} {printer : Printer} {files : σ → Text → Option Blob}
  {session : String → σ → Prop} {binary : σ → Prop}

/-- The list that the server makes of the lines. -/
theorem lists_files_of_lines {F : Text → Option Blob} {lines : List Text} {type : Text}
    (hlines : Lists ftp.try_from F (remote_media_dir type) lines)
    {listing : List RemoteFile} (hlisting : listing =
      ((lines.map ftp.try_from).filterMap id).filter fun file =>
        file.is_file && (type ≠ ascii "model" || is_model file.name))
    {reply : Value} (hreply : List.Forall₂ (fun file e => Entry e file.name
      (path_of (remote_media_dir type) file.name) file.size) listing (file_lists reply)) :
    ListsFiles F type reply := by
  have hmem : ∀ file, file ∈ listing ↔ (∃ line ∈ lines, ftp.try_from line = some file) ∧
      file.is_file = true ∧ (type = ascii "model" → is_model file.name = true) := by
    intro file
    rw [hlisting, List.mem_filter, List.mem_filterMap]
    simp only [List.mem_map, id_eq, exists_eq_right, Bool.and_eq_true, Bool.or_eq_true,
      decide_eq_true_eq, ← imp_iff_not_or, ne_eq]
  refine ⟨fun e he => ?_, fun _ name blob hname hfile hmodel => ?_⟩
  · obtain ⟨file, hfile, hentry⟩ := forall₂_mem_right hreply he
    obtain ⟨⟨line, hline, hfrom⟩, his_file, hmodel⟩ := (hmem file).mp hfile
    obtain ⟨hslash, blob, hblob, hsize⟩ := hlines.sound line hline file hfrom his_file
    rw [hsize] at hentry
    exact ⟨file.name, blob, hslash, hblob, hentry, hmodel⟩
  · obtain ⟨line, hline, file, hfrom, his_file, rfl⟩ := hlines.complete name blob hname hfile
    obtain ⟨-, blob', hblob', hsize⟩ := hlines.sound line hline file hfrom his_file
    obtain rfl : blob = blob' := Option.some.inj (hfile.symm.trans hblob')
    have hin := (hmem file).mpr ⟨⟨line, hline, hfrom⟩, his_file, hmodel⟩
    obtain ⟨e, he, hentry⟩ := forall₂_mem_right hreply.flip hin
    rw [hsize] at hentry
    exact ⟨e, he, hentry⟩

/-- A reply that tells success lists the files of the state. -/
theorem lists_files_of_reply (h : Serves ftp printer.ip files session binary) (s : σ)
    {data : Text} {request : Value} (hrequest : serde.from_str data = some request)
    (hcmd : cmdtype_of request = 1) {reply : Value}
    (hreply : parse (handle_control_message serde.toSerdeText (listed ftp printer s) data) =
      some reply) (hresult : result_of reply = some 0) :
    ListsFiles (files s) (requested_type request) reply := by
  rw [handle_control_message, hrequest] at hreply
  simp only [hcmd, bambu_farm_server.control.CONTROL_CMD_REQUEST_MEDIA_ABILITY,
    bambu_farm_server.control.CONTROL_CMD_LIST_INFO] at hreply
  rw [if_neg (by decide), if_pos trivial] at hreply
  change parse (match list_files_via_ftps serde.toSerdeText (listed ftp printer s)
    (requested_type request) with
    | some reply => control_response serde.toSerdeText (sequence_of request) 0 reply
    | none => control_error_response serde.toSerdeText (sequence_of request) 17) = _ at hreply
  generalize requested_type request = type at hreply ⊢
  unfold list_files_via_ftps at hreply
  by_cases hmedia : type ≠ ascii "model" ∧ type ≠ ascii "timelapse" ∧ type ≠ ascii "video"
  · rw [if_pos hmedia] at hreply
    obtain ⟨v, hv, hentries⟩ := parse_listing serde (sequence_of request) none []
      (by simp)
    obtain rfl : v = reply := Option.some.inj (hv.symm.trans hreply)
    rw [List.forall₂_nil_left_iff] at hentries
    refine ⟨fun e he => ?_, fun his => ?_⟩
    · rw [hentries] at he
      cases he
    · rcases his with his | his | his
      · exact absurd his hmedia.1
      · exact absurd his hmedia.2.1
      · exact absurd his hmedia.2.2
  · rw [if_neg hmedia] at hreply
    have htriple := raw_entries_triple h (files s) (remote_media_dir type)
    unfold listed at hreply
    dsimp only at hreply
    cases hrun : (raw_entries ftp printer (remote_media_dir type)).run s with
    | error e s' =>
      rw [hrun] at hreply
      have h17 := result_of_control_response serde (isValue_empty_object serde.toSerdeText) _ 17
        (by constructor <;> decide) hreply
      rw [hresult] at h17
      cases h17
    | ok lines s' =>
      obtain ⟨-, hlines⟩ := htriple.ok rfl hrun
      rw [hrun] at hreply
      simp only [Option.map_some] at hreply
      obtain ⟨v, hv, hentries⟩ := parse_listing serde (sequence_of request) (remote_media_dir type)
        (((lines.map ftp.try_from).filterMap id).filter fun file =>
          file.is_file && (type ≠ ascii "model" || is_model file.name)) (by
          intro file hfile
          obtain ⟨hfile, hkept⟩ := List.mem_filter.mp hfile
          simp only [List.mem_filterMap, List.mem_map, id_eq, exists_eq_right] at hfile
          obtain ⟨line, hline, hfrom⟩ := hfile
          rw [Bool.and_eq_true] at hkept
          obtain ⟨-, blob, -, hsize⟩ := hlines.sound line hline file hfrom hkept.1
          rw [hsize]
          exact blob.fits)
      obtain rfl : v = reply := Option.some.inj (hv.symm.trans hreply)
      exact lists_files_of_lines hlines rfl hentries

/-- A request has a type of command only as an object. -/
theorem object_of_cmdtype {request : Value} {n : Int} (hn : n ≠ -1) (h : cmdtype_of request = n) :
    ∃ ms, request = .obj ms := by
  cases request with
  | obj ms => exact ⟨ms, rfl⟩
  | _ => exact absurd h.symm hn

/-- The client passes the list of the server on. -/
theorem lists_files_of_tunnel (h : Serves ftp printer.ip files session binary) (tunnel : Tunnel)
    (world : Outside) (s : σ) {data : Text} {request : Value}
    (hrequest : serde.from_str (before_blank_line data) = some request)
    (hcmd : cmdtype_of request = 1) {reply : Value}
    (hreply : parse (bambu_network_rs_tunnel_request serde.toSerdeText
      (worldOf ftp printer tunnel world s) data) = some reply)
    (hresult : result_of reply = some 0) :
    ListsFiles (files s) (requested_type request) reply := by
  obtain ⟨ms, rfl⟩ := object_of_cmdtype (by decide) hcmd
  have hserver := from_str_whole serde.toSerdeText hrequest
  rw [bambu_network_rs_tunnel_request, hrequest] at hreply
  dsimp only at hreply
  rw [hcmd, if_neg (by decide), if_neg (by decide)] at hreply
  have hsent : parse (handle_control_message serde.toSerdeText (listed ftp printer s) data) =
      some reply := by
    split_ifs at hreply
    · cases hreply
    · cases hreply
    · exact hreply
  split_ifs at hserver
  · exact lists_files_of_reply serde h s hserver hcmd hsent hresult
  · -- what the server does not understand it answers with an error
    rw [handle_control_message, hserver] at hsent
    have h2 := result_of_control_response serde (isValue_empty_object serde.toSerdeText) 0 2
      (by constructor <;> decide) hsent
    rw [hresult] at h2
    cases h2

end listing

/-- The frames that a reply is cut into carry the bytes, one after the other. -/
def ComesDown (reply content : Text) : Prop :=
  ∃ parts : List (Text × Text),
    (split_file_download_response_frames reply).map split_frame = parts.map some ∧
      (parts.map Prod.snd).flatten = content

theorem download_comes_down (serde : SerdeJson) {sequence : Nat} (hsequence : sequence < 2 ^ 63)
    (path file_md5 ftp_file_md5 : Text) (blob : Blob) :
    ComesDown (download_response serde sequence path file_md5 ftp_file_md5 blob) blob.bytes := by
  unfold ComesDown
  rcases Nat.lt_or_ge kTunnelDownloadChunkSize blob.bytes.length with hlarge | hsmall
  · obtain ⟨f, hf, -, -, hframes⟩ := split_large_download serde sequence path file_md5 ftp_file_md5
      blob hsequence hlarge
    rw [hframes]
    exact frames_from_payload hf blob.bytes 0
  · rw [split_small_download serde sequence path file_md5 ftp_file_md5 blob hsmall]
    exact ⟨[(_, blob.bytes)],
      congrArg (fun part => [part]) (split_frame_response serde sequence path file_md5 ftp_file_md5
        blob), by simp⟩

/-- The path that a download asks for. -/
def download_path (request : Value) : Text :=
  (((get (req_of request) (ascii "path")).bind as_str).or
    ((get (req_of request) (ascii "file")).bind as_str)).getD []

section download

variable (serde : Serde) {ftp : FtpFiles σ} {printer : Printer} {files : σ → Text → Option Blob}
  {session : String → σ → Prop} {binary : σ → Prop}

/-- A download is answered with an error, or with the file as it is. -/
theorem download_of_tunnel (h : Serves ftp printer.ip files session binary) {tunnel : Tunnel}
    (hhost : tunnel.device_host.or (tunnel_url_host tunnel.tunnel_url) = some printer.ip)
    (world : Outside) (s : σ) {data : Text} {request : Value}
    (hrequest : serde.from_str (before_blank_line data) = some request)
    (hcmd : cmdtype_of request = 4) (hsequence : 0 ≤ sequence_of request)
    (hurl : Verbatim printer.ip ((download_path request).dropWhile fun c => c = 0x2F)) :
    bambu_network_rs_tunnel_request serde.toSerdeText (worldOf ftp printer tunnel world s) data =
      build_error_frame serde.toSerdeText (sequence_of request) 10 ∨
    ∃ blob, files s ((download_path request).dropWhile fun c => c = 0x2F) = some blob ∧
      ComesDown (bambu_network_rs_tunnel_request serde.toSerdeText
        (worldOf ftp printer tunnel world s) data) blob.bytes := by
  rw [bambu_network_rs_tunnel_request, hrequest]
  dsimp only
  rw [if_pos hcmd]
  unfold file_download
  change (if download_path request = [] then _ else _) = _ ∨ ∃ blob, _ ∧
    ComesDown (if download_path request = [] then _ else _) _
  by_cases hempty : download_path request = []
  · rw [if_pos hempty]
    exact .inl rfl
  · simp only [if_neg hempty]
    have htriple := download_triple h hhost hurl (files s)
    have hdown : (worldOf ftp printer tunnel world s).tunnel_download_file (download_path request) =
        match (tunnel_download_file ftp tunnel (download_path request)).run s with
        | .ok blob _ => some blob.bytes
        | .error _ _ => none := rfl
    rw [show (((get (req_of request) (ascii "path")).bind as_str).or
      ((get (req_of request) (ascii "file")).bind as_str)).getD [] = download_path request from rfl,
      hdown]
    cases hrun : (tunnel_download_file ftp tunnel (download_path request)).run s with
    | error e s' => exact .inl rfl
    | ok blob s' =>
      obtain ⟨-, hblob⟩ := htriple.ok rfl hrun
      refine .inr ⟨blob, hblob, ?_⟩
      obtain ⟨n, hn⟩ := Int.eq_ofNat_of_zero_le hsequence
      have hlt : n < 2 ^ 63 := by
        have := (inI64_sequence_of request).2
        omega
      rw [hn]
      exact download_comes_down serde.toSerdeJson hlt _ _ _ blob

/-- A path of a list does not start with a slash. -/
theorem normalized_path_of (type : Text) {name : Text} (h : 0x2F ∉ name) :
    (path_of (remote_media_dir type) name).dropWhile (fun c => c = 0x2F) =
      path_of (remote_media_dir type) name := by
  have hkept : ∀ t : Text, t.head? ≠ some 0x2F → t.dropWhile (fun c => c = 0x2F) = t := by
    intro t ht
    cases t with
    | nil => rfl
    | cons c t =>
      rw [List.head?_cons, ne_eq, Option.some.injEq] at ht
      rw [List.dropWhile_cons_of_neg (by simpa using ht)]
  apply hkept
  have hname : name.head? ≠ some 0x2F := fun hhead => h (List.mem_of_mem_head? hhead)
  unfold remote_media_dir
  split_ifs
  · change some (0x74 : UInt8) ≠ some 0x2F
    decide
  · change some (0x69 : UInt8) ≠ some 0x2F
    decide
  · exact hname

/-- The answer to a download that was asked for by the path of an entry. -/
structure EntryLeads (serde : Serde) (files_then files_now : Text → Option Blob) (e : Value)
    (request : Value) (answer : Text) : Prop where
  listed : ∃ name blob, files_then (download_path request) = some blob ∧
    Entry e name (download_path request) blob.bytes.length
  answered : answer = build_error_frame serde.toSerdeText (sequence_of request) 10 ∨
    ∃ blob, files_now (download_path request) = some blob ∧ ComesDown answer blob.bytes

theorem entry_leads (h : Serves ftp printer.ip files session binary) {tunnel : Tunnel}
    (hhost : tunnel.device_host.or (tunnel_url_host tunnel.tunnel_url) = some printer.ip)
    (world : Outside) {s s' : σ} {type : Text} {reply : Value}
    (hlist : ListsFiles (files s) type reply) {e : Value} (he : e ∈ file_lists reply) {data : Text}
    {request : Value} (hrequest : serde.from_str (before_blank_line data) = some request)
    (hcmd : cmdtype_of request = 4) (hsequence : 0 ≤ sequence_of request)
    (hpath : (get e (ascii "path")).bind as_str = some (download_path request))
    (hurl : Verbatim printer.ip (download_path request)) :
    EntryLeads serde (files s) (files s') e request (bambu_network_rs_tunnel_request
      serde.toSerdeText (worldOf ftp printer tunnel world s') data) := by
  obtain ⟨name, blob, hname, hblob, hentry, -⟩ := hlist.sound e he
  have hsame : path_of (remote_media_dir type) name = download_path request :=
    Option.some.inj (hentry.path.symm.trans hpath)
  have hnormal := normalized_path_of type hname
  rw [hsame] at hnormal hblob hentry
  refine ⟨⟨name, blob, hblob, hentry⟩, ?_⟩
  rw [← hnormal] at hurl
  have hanswer := download_of_tunnel serde h hhost world s' hrequest hcmd hsequence hurl
  rwa [hnormal] at hanswer

end download

/-- What a list of files is good for: it names the files as they were, and each of its paths
leads to the file as it is, when curl reads the path in its url as it is written. -/
structure ListLaw (serde : Serde) (ftp : FtpFiles σ) (printer : Printer)
    (files : σ → Text → Option Blob) (tunnel : Tunnel) (world : Outside) (s : σ) (type : Text)
    (reply : Value) : Prop where
  lists : ListsFiles (files s) type reply
  leads : ∀ e ∈ file_lists reply, ∀ s' data request,
    serde.from_str (before_blank_line data) = some request → cmdtype_of request = 4 →
    0 ≤ sequence_of request →
    (get e (ascii "path")).bind as_str = some (download_path request) →
    Verbatim printer.ip (download_path request) →
    EntryLeads serde (files s) (files s') e request (bambu_network_rs_tunnel_request
      serde.toSerdeText (worldOf ftp printer tunnel world s') data)

structure Shelf where
  files : Text → Option Blob
  names : List Text
  held : ∀ path, files path ≠ none → path ∈ names
  session : String
  binary : Bool

def Shelf.store (s : Shelf) (path : Text) (file : Option Blob) : Shelf :=
  { s with
    files := fun p => if p = path then file else s.files p
    names := path :: s.names
    held := fun p hp => by
      by_cases h : p = path
      · exact h ▸ List.mem_cons_self
      · exact List.mem_cons_of_mem _ (s.held p (by simpa [h] using hp)) }

/-- The name of a file of the directory. -/
def name_in (remote_dir : Option Text) (path : Text) : Option Text :=
  let front := remote_dir.elim [] fun dir => dir ++ ascii "/"
  if front.isPrefixOf path && 0x2F ∉ path.drop front.length then some (path.drop front.length)
  else none

/-- A line is the size and the name of a file. -/
def line_of (name : Text) (blob : Blob) : Text := decimal blob.bytes.length ++ 0x20 :: name

def Shelf.lines (s : Shelf) (remote_dir : Option Text) : List Text :=
  s.names.filterMap fun path =>
    (name_in remote_dir path).bind fun name => (s.files path).map (line_of name)

def read_line (line : Text) : Option RemoteFile :=
  some {
    is_file := true
    name := (line.dropWhile isDigit).drop 1
    modified := 0
    size := (line.takeWhile isDigit).foldl (fun n c => 10 * n + (c.toNat - 0x30)) 0 }

def blobOf (content : Bytes) : Option Blob :=
  if h : content.length < 2 ^ 63 then some ⟨content, h⟩ else none

/-- The bytes of a url behind its host. -/
def url_path_bytes (url : Text) : Text := ((url.drop 8).dropWhile fun c => c ≠ 0x2F).drop 1

def shelf : FtpFiles Shelf where
  connector := pure ()
  connect_secure_implicit := fun host => modify fun s => { s with session := host }
  connect := fun host => modify fun s => { s with session := host }
  into_secure := fun _ => pure ()
  login := fun _ _ => pure ()
  transfer_type := fun type => modify fun s => { s with binary := type = .Binary }
  rm := fun path => modify fun s => s.store (as_bytes path) none
  open_file := pure ()
  put_file := fun path content =>
    match blobOf content with
    | none => throw ()
    | some blob => modify fun s => s.store (as_bytes path) (some blob)
  quit := pure ()
  curl_quote := fun _ _ command s => s.store (as_bytes (String.ofList (command.toList.drop 5))) none
  curl_upload_file := fun _ url content =>
    match blobOf content with
    | none => throw ()
    | some blob => do
      modify fun s => s.store (as_bytes (url_path url)) (some blob)
      pure true
  temp_path_is_utf8 := true
  mlsd := fun dir => do pure ((← get).lines dir)
  list := fun dir => do pure ((← get).lines dir)
  try_from := read_line
  retr_as_buffer := fun path => do
    match (← get).files path with
    | none => throw ()
    | some blob => pure blob
  curl_output := fun _ url => do
    match (← get).files (url_path_bytes url) with
    | none => throw ()
    | some blob => pure blob

theorem name_in_eq_some {remote_dir : Option Text} {path name : Text} :
    name_in remote_dir path = some name ↔ path = path_of remote_dir name ∧ 0x2F ∉ name := by
  have hfront : ∀ n, path_of remote_dir n = remote_dir.elim [] (fun dir => dir ++ ascii "/") ++ n := by
    intro n
    cases remote_dir with
    | none => rfl
    | some dir => rfl
  unfold name_in
  dsimp only
  rw [hfront]
  generalize remote_dir.elim [] (fun dir => dir ++ ascii "/") = front
  constructor
  · intro h
    split_ifs at h with hif
    rw [Bool.and_eq_true, List.isPrefixOf_iff_prefix, decide_eq_true_eq] at hif
    obtain ⟨⟨rest, rfl⟩, hslash⟩ := hif
    rw [List.drop_left, Option.some.injEq] at h
    rw [List.drop_left] at hslash
    exact ⟨by rw [h], h ▸ hslash⟩
  · rintro ⟨rfl, hslash⟩
    rw [if_pos, List.drop_left]
    rw [Bool.and_eq_true, List.isPrefixOf_iff_prefix, decide_eq_true_eq, List.drop_left]
    exact ⟨List.prefix_append _ _, hslash⟩

/-- A line is read back. -/
theorem read_line_of (name : Text) (blob : Blob) : read_line (line_of name blob) =
    some { is_file := true, name := name, modified := 0, size := blob.bytes.length } := by
  have hdigits : ∀ c ∈ decimal blob.bytes.length, isDigit c = true :=
    List.all_eq_true.mp (digits_decimal _)
  have hspace : ¬ isDigit 0x20 = true := by decide
  have htake : (line_of name blob).takeWhile isDigit = decimal blob.bytes.length := by
    rw [line_of, List.takeWhile_append_of_pos hdigits, List.takeWhile_cons_of_neg hspace,
      List.append_nil]
  have hdrop : (line_of name blob).dropWhile isDigit = 0x20 :: name := by
    rw [line_of, List.dropWhile_append_of_pos hdigits, List.dropWhile_cons_of_neg hspace]
  rw [read_line, htake, hdrop, digits_value]
  rfl

theorem lists_shelf (s : Shelf) (dir : Option Text) : Lists read_line s.files dir (s.lines dir) where
  sound := by
    intro line hline file hread _
    obtain ⟨path, -, hpath⟩ := List.mem_filterMap.mp hline
    obtain ⟨name, hname, hmap⟩ := Option.bind_eq_some_iff.mp hpath
    obtain ⟨blob, hblob, rfl⟩ := Option.map_eq_some_iff.mp hmap
    obtain ⟨rfl, hslash⟩ := name_in_eq_some.mp hname
    rw [read_line_of, Option.some.injEq] at hread
    subst hread
    exact ⟨hslash, blob, hblob, rfl⟩
  complete := by
    intro name blob hslash hblob
    refine ⟨line_of name blob, ?_, _, read_line_of name blob, rfl, rfl⟩
    refine List.mem_filterMap.mpr ⟨path_of dir name, s.held _ (by simp [hblob]), ?_⟩
    rw [name_in_eq_some.mpr ⟨rfl, hslash⟩, Option.bind_some, hblob]
    rfl

theorem url_path_bytes_of {host : String} (hne : as_bytes host ≠ []) (hslash : 0x2F ∉ as_bytes host)
    (path : Text) : url_path_bytes (as_bytes ("ftps://" ++ host ++ "/") ++ path) = path := by
  have hurl : as_bytes ("ftps://" ++ host ++ "/") ++ path =
      as_bytes "ftps://" ++ (as_bytes host ++ 0x2F :: path) := by
    have hend : as_bytes "/" = [0x2F] := by decide +kernel
    simp only [as_bytes, String.toList_append, List.flatMap_append] at hend ⊢
    rw [hend]
    simp
  have hfront : (as_bytes "ftps://").length = 7 := by decide +kernel
  obtain ⟨c, cs, hcs⟩ := List.exists_cons_of_ne_nil hne
  rw [hcs] at hslash hurl
  have hhost : ∀ d ∈ cs, decide (d ≠ 0x2F) = true := by
    intro d hd
    have hne : d ≠ 0x2F := by
      rintro rfl
      exact hslash (List.mem_cons_of_mem _ hd)
    simp [hne]
  have hdrop : (as_bytes "ftps://" ++ (c :: cs ++ 0x2F :: path)).drop 8 = cs ++ 0x2F :: path := by
    rw [show 8 = (as_bytes "ftps://").length + 1 by rw [hfront], List.drop_length_add_append]
    rfl
  rw [url_path_bytes, hurl, hdrop, List.dropWhile_append_of_pos hhost,
    List.dropWhile_cons_of_neg (by simp), List.drop_one, List.tail_cons]

/-- A call that reads a file of the shelf. -/
theorem shelf_reads {F : Text → Option Blob} {P : Shelf → Prop} (hP : ∀ s, P s → s.files = F)
    {path : Text} {x : FtpM Shelf Blob} (hrun : ∀ s, x.run s = match s.files path with
      | none => .error () s
      | some blob => .ok blob s) :
    Triple P x (fun blob s => s.files = F ∧ F path = some blob) fun s => s.files = F := by
  intro s hs
  have hfiles := hP s hs
  rw [hrun]
  cases hfile : s.files path with
  | none => exact hfiles
  | some blob => exact ⟨hfiles, hfiles ▸ hfile⟩

theorem shelf_serves {host : String} (hne : as_bytes host ≠ []) (hslash : 0x2F ∉ as_bytes host) :
    Serves shelf host Shelf.files (fun h s => s.session = h) fun s => s.binary = true where
  connector := Keeps.pure _ _
  connect_secure_implicit := fun _ _ _ hs => ⟨hs, rfl⟩
  connect := fun _ _ _ hs => ⟨hs, rfl⟩
  into_secure := fun _ _ => Triple.pure fun _ hs => hs
  login := fun _ _ _ _ => Triple.pure fun _ hs => hs
  transfer_type := fun _ _ _ hs => ⟨hs.1, hs.2, rfl⟩
  quit := Keeps.pure _ _
  mlsd := fun _ dir s hs => ⟨hs.1, hs.1 ▸ lists_shelf s dir⟩
  list := fun _ dir s hs => ⟨hs.1, hs.1 ▸ lists_shelf s dir⟩
  retr_as_buffer := by
    intro F path
    refine shelf_reads (fun s hs => hs.1) fun s => ?_
    simp only [shelf, EStateM.run_bind, EStateM.run_get]
    cases s.files path <;> rfl
  curl_output := by
    intro F auth path _
    refine shelf_reads (fun s hs => hs) fun s => ?_
    simp only [shelf, EStateM.run_bind, EStateM.run_get, url_path_bytes_of hne hslash]
    cases s.files path <;> rfl

instance : Inhabited Serde where
  default := { (default : SerdeText) with parse_string := (default : SerdeStrings).parse_string }

/-- The pairs of a query without escapes. -/
def plain_pairs (query : String) : Option (List (String × String)) :=
  some ((query.toList.splitOn '&').map fun pair =>
    (String.ofList (pair.takeWhile fun c => c ≠ '='),
      String.ofList ((pair.dropWhile fun c => c ≠ '=').drop 1)))

def shelfTunnel : Tunnel where
  tunnel_url := "bambu:///local/10.0.0.5.?port=6000&user=bblp&passwd=12345678"
  device_host := none
  query_pairs := plain_pairs

def shelfPrinter : Printer := ⟨"", "printer-1", "10.0.0.5", "", "12345678"⟩

def emptyShelf : Shelf where
  files := fun _ => none
  names := []
  held := fun _ h => absurd rfl h
  session := ""
  binary := false

def oneFile : Shelf := emptyShelf.store (ascii "benchy.3mf") (blobOf [1, 2])

end bambu_farm.tunnel_files
