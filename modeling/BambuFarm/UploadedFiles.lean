-- A package that the plugin has uploaded, seen through the tunnel: it is in the list of
-- models under its own name, and it comes down again as it went up.
import BambuFarm.TunnelFiles

open json search serde_json frames triples bambu_farm
open bambu_farm_server.printers bambu_farm_server.uploads bambu_farm_server.ftps
open bambu_farm_server.control (is_model remote_media_dir)
open bambu_farm_client.uploads bambu_farm_client.print_job
open bambu_farm_client.tunnel_protocol bambu_farm_client.tunnel_requests
open bambu_farm_client.available_printers (as_bytes)
open bambu_farm.printed_files bambu_farm.tunnel_files

namespace bambu_farm.uploaded_files

variable {σ : Type}

/-! ## The name of a package -/

/-- The name of a package is that of a model in the root. -/
theorem package_is_model (files : Files) {params : PrintParams} (h : IsPackage params)
    {content : Text} (hcontent : files params.filename = some content) :
    is_model (resolve_remote_filename files params) = true ∧
      0x2F ∉ resolve_remote_filename files params := by
  have hsafe := safe_resolve files params
  obtain ⟨stem, hname⟩ := named_by_content files h hcontent
  generalize resolve_remote_filename files params = name at hsafe hname
  have hends : (ascii ".gcode.3mf").isSuffixOf name = true := by
    rw [List.isSuffixOf_iff_suffix, hname.eq]
    exact List.suffix_append _ _
  have hdot : (ascii ".").isPrefixOf name = false := by
    have hone : ascii "." = [0x2E] := by decide
    rw [hone]
    cases name with
    | nil => rfl
    | cons c name =>
      have hne : (0x2E : UInt8) ≠ c := fun heq => hsafe.dot (by rw [← heq]; rfl)
      simp [List.isPrefixOf, hne]
  have hother : ∀ other : Text, (ascii ".gcode.3mf").isSuffixOf other = false → name ≠ other := by
    rintro other hother rfl
    rw [hends] at hother
    cases hother
  refine ⟨?_, fun hslash => hsafe.allowed _ hslash (by decide)⟩
  unfold is_model
  simp only [hdot, hends, hother _ (by decide : (ascii ".gcode.3mf").isSuffixOf
    (ascii "check_access_code.txt") = false), hother _ (by decide :
    (ascii ".gcode.3mf").isSuffixOf (ascii "verify_job") = false), decide_false, Bool.or_self,
    Bool.not_false, Bool.true_or, Bool.and_self]

/-! ## From the upload to the download -/

/-- A package that was uploaded with success, to a printer that serves its files, under the name
of its job. -/
structure Uploaded (farm : Farm σ) (ftp : FtpFiles σ) (printer : Printer)
    (files : σ → Text → Option Blob) (session : String → σ → Prop) (binary : σ → Prop)
    (file : LocalFile) (device_id remote_filename : String) (s : σ) : Prop where
  same : ftp.toFtp = farm.ftp
  sound : ¬ file.BreaksInside
  known : farm.printers.find? (fun x => x.id = device_id) = some printer
  lawful : Lawful farm.ftp printer remote_filename
    (fun s => (files s (as_bytes remote_filename)).map (·.bytes)) binary
  serves : Serves ftp printer.ip files session binary
  success : (farm.upload_file s device_id (some file.reads) remote_filename).1 =
    bambu_farm_client.errors.BAMBU_NETWORK_SUCCESS

/-- What comes back of a package: an entry with its name and its size, and its bytes or an error
for each download of it. -/
structure ComesBack (serde : Serde) (ftp : FtpFiles σ) (printer : Printer) (tunnel : Tunnel)
    (world : Outside) (s : σ) (path content : Text) (reply : Value) : Prop where
  listed : ∃ e ∈ file_lists reply, Entry e path path content.length
  down : ∀ data request, serde.from_str (before_blank_line data) = some request →
    cmdtype_of request = 4 → 0 ≤ sequence_of request → download_path request = path →
    let answer := bambu_network_rs_tunnel_request serde.toSerdeText
      (worldOf ftp printer tunnel world s) data
    answer = build_error_frame serde.toSerdeText (sequence_of request) 10 ∨ ComesDown answer content

theorem store_files (s : Shelf) (path path' : Text) (file : Option Blob) :
    (s.store path' file).files path = if path = path' then file else s.files path := rfl

theorem store_binary (s : Shelf) (path : Text) (file : Option Blob) :
    (s.store path file).binary = s.binary := rfl

theorem blobOf_bytes {content : Bytes} {blob : Blob} (h : blobOf content = some blob) :
    blob.bytes = content := by
  unfold blobOf at h
  split_ifs at h
  cases h
  rfl

theorem shelf_lawful (printer : Printer) (path : String) :
    Lawful shelf.toFtp printer path (fun s => (s.files (as_bytes path)).map (·.bytes))
      (fun s => s.binary = true) where
  connector := Keeps.pure _ _
  connect_secure_implicit := fun _ => Keeps.modify fun _ => rfl
  connect := fun _ => Keeps.modify fun _ => rfl
  into_secure := fun _ => Keeps.pure _ _
  login := fun _ _ => Keeps.pure _ _
  transfer_type := fun _ => Keeps.modify fun _ => rfl
  transfer_type_binary := fun s _ => by
    simp [shelf, EStateM.run_modify]
  rm := by
    intro old s hs
    have hrun : (shelf.rm path).run s = .ok ⟨⟩ (s.store (as_bytes path) none) := rfl
    rw [hrun]
    refine ⟨?_, hs.2⟩
    rw [store_files, if_pos rfl]
    rfl
  open_file := fun _ => Triple.pure fun _ hs => hs
  put_file := by
    intro old content s hs
    cases hblob : blobOf content with
    | none =>
      have hrun : (shelf.put_file path content).run s = .error () s := by
        simp only [shelf, hblob]
        rfl
      rw [hrun]
      exact .inl hs.1
    | some blob =>
      have hrun : (shelf.put_file path content).run s =
          .ok ⟨⟩ (s.store (as_bytes path) (some blob)) := by
        simp only [shelf, hblob]
        rfl
      rw [hrun]
      dsimp only
      rw [store_files, if_pos rfl, Option.map_some, blobOf_bytes hblob]
  quit := Keeps.pure _ _
  curl_quote := by
    intro _ auth s
    dsimp only [shelf]
    rw [store_files]
    split_ifs
    · exact .inr rfl
    · exact .inl rfl
  curl_upload_file := by
    intro hurl auth old content s hs
    cases hblob : blobOf content with
    | none =>
      have hrun : (shelf.curl_upload_file auth ("ftps://" ++ printer.ip ++ "/" ++ path)
          content).run s = .error () s := by
        simp only [shelf, hblob]
        rfl
      rw [hrun]
      exact .inl hs
    | some blob =>
      have hrun : (shelf.curl_upload_file auth ("ftps://" ++ printer.ip ++ "/" ++ path)
          content).run s = .ok true (s.store (as_bytes path) (some blob)) := by
        simp only [shelf, hblob, url_path_of_verbatim hurl]
        rfl
      rw [hrun]
      dsimp only
      rw [if_pos rfl, store_files, if_pos rfl, Option.map_some, blobOf_bytes hblob]

def shelfFarm : Farm Shelf where
  ftp := shelf.toFtp
  printers := [shelfPrinter]
  reachable := true
  reply_arrives := true

/-- The shelf behind the upload of a package. -/
def packageShelf : Shelf :=
  (shelfFarm.upload_file emptyShelf "printer-1" (some package.reads) "benchy-ed74208a.gcode.3mf").2

theorem uploaded_package : Uploaded shelfFarm shelf shelfPrinter Shelf.files
    (fun h s => s.session = h) (fun s => s.binary = true) package "printer-1"
    "benchy-ed74208a.gcode.3mf" emptyShelf where
  same := rfl
  sound := by simp [LocalFile.BreaksInside, package, failsAt]
  known := by decide +kernel
  lawful := shelf_lawful _ _
  serves := shelf_serves (by decide +kernel) (by decide +kernel)
  success := by decide +kernel

end bambu_farm.uploaded_files
