-- From the local file to the print command: the upload of the plugin, the stream of the
-- server and the upload handler, one behind the other. A command is sent to a printer that
-- holds the whole file under the name that the command gives.
import BambuFarm.ClientUpload
import BambuFarm.PrintFlow
import BambuFarm.PrinterAnnouncements
import BambuFarm.PrinterFiles

open json frames bambu_farm
open bambu_farm_server.printers bambu_farm_server.uploads bambu_farm_server.ftps
open bambu_farm_client.uploads
open bambu_farm_client bambu_farm_client.print_job bambu_farm_client.print_flow
open bambu_farm_client.available_printers (as_bytes)

namespace bambu_farm.printed_files

variable {σ : Type}

/-! ## The model -/

/-- The server with its upload handler, as a client meets it. -/
structure Farm (σ : Type) where
  ftp : Ftp σ
  printers : List Printer
  reachable : Bool
  reply_arrives : Bool

namespace Farm

variable (farm : Farm σ) (s : σ)

def upload_handler : UploadHandler := fun call => (default_upload_handler farm.ftp call s).1

/-- What the calls of the upload handler make of the printers. -/
def served (calls : List UploadCall) : σ :=
  calls.foldl (fun s call => (default_upload_handler farm.ftp call s).2) s

/-- The upload RPC: its result, and the state behind it. -/
def upload_stream (stream : ChunkStream) : EStateM.Result Status (List UploadCall) Bool × σ :=
  let result := (upload_file_stream farm.printers (farm.upload_handler s) stream).run []
  (result, farm.served s (finalState result))

/-- The upload of the plugin: its result, and the state behind it. -/
def upload_file (device_id : String) (file : Option (List ReadResult)) (remote_filename : String) :
    Int × σ :=
  let server : Server := {
    reachable := farm.reachable, printers := farm.printers
    upload_handler := farm.upload_handler s, reply_arrives := farm.reply_arrives }
  let result := bambu_network_rs_upload_file server device_id file remote_filename
  (result.1, farm.served s result.2)

end Farm

/-! ## An upload RPC -/

variable {farm : Farm σ} {printer : Printer} {remote_path : String} {held : σ → Option Bytes}
  {binary : σ → Prop}

/-- Success of the call is success of the handler. -/
theorem upload_temp_file_ok {handler : UploadHandler} {call : UploadCall} {calls calls' :
    List UploadCall} (h : (upload_temp_file handler call).run calls = .ok true calls') :
    handler call = some (.ok true) := by
  unfold upload_temp_file at h
  rw [EStateM.run_bind, EStateM.run_modify] at h
  dsimp only at h
  cases hhandler : handler call with
  | none =>
    rw [hhandler] at h
    cases h
  | some r =>
    rw [hhandler] at h
    cases r with
    | error e => cases h
    | ok success =>
      cases success with
      | true => rfl
      | false => cases h

/-- The one call of the handler has the result of the RPC. -/
theorem upload_file_stream_ok {printers : List Printer} {handler : UploadHandler}
    {stream : ChunkStream} {call : UploadCall} {calls : List UploadCall}
    (hcomplete : Complete printers stream call)
    (h : (upload_file_stream printers handler stream).run [] = .ok true calls) :
    handler call = some (.ok true) := by
  obtain ⟨hbroken, hne, dev_id, huniform, hprinter, hcontent, htotal⟩ := hcomplete
  rw [upload_file_stream_uniform printers handler stream dev_id call.remote_path hbroken hne
    huniform] at h
  have hcall : (⟨call.printer, call.remote_path, contentOf stream.chunks,
      (contentOf stream.chunks).length⟩ : UploadCall) = call := by
    rw [← hcontent, ← htotal]
  unfold bambu_farm_server.uploads.upload_file lookup_printer at h
  rw [EStateM.run_bind, hprinter, run_ofExcept_ok] at h
  dsimp only at h
  rw [hcall] at h
  exact upload_temp_file_ok h

/-- The law of an upload RPC. The path is one that curl reads in its url as it is written. -/
structure RpcLaw (farm : Farm σ) (s : σ) (stream : ChunkStream) : Prop where
  /-- A stream that asks for no upload touches nothing. -/
  unasked : (∀ call, ¬ Complete farm.printers stream call) → (farm.upload_stream s stream).2 = s
  /-- What is left of an upload is the whole file when it succeeds. -/
  stored : ∀ call, Complete farm.printers stream call →
    Verbatim call.printer.ip (bytes_of call.remote_path) → ∀ held binary,
    Lawful farm.ftp call.printer call.remote_path held binary →
    Left (held s) (contentOf stream.chunks) (held (farm.upload_stream s stream).2) ∧
      ∀ calls, (farm.upload_stream s stream).1 = .ok true calls →
        held (farm.upload_stream s stream).2 = some (contentOf stream.chunks)
  /-- No other file is touched. -/
  apart : ∀ call, Complete farm.printers stream call →
    Verbatim call.printer.ip (bytes_of call.remote_path) → ∀ held : σ → Option Bytes,
    Apart farm.ftp call.printer call.remote_path held →
    held (farm.upload_stream s stream).2 = held s

theorem upload_rpcs_are_lawful (farm : Farm σ) (s : σ) (stream : ChunkStream) :
    RpcLaw farm s stream := by
  have hrun := upload_file_stream_run farm.printers (farm.upload_handler s) stream
  have hserved : ∀ call, Complete farm.printers stream call →
      (farm.upload_stream s stream).2 = (default_upload_handler farm.ftp call s).2 := by
    intro call hcall
    rcases hrun with ⟨call', -, hunique, hcalls⟩ | ⟨hnone, -⟩
    · rw [hunique call hcall, Farm.upload_stream, hcalls]
      rfl
    · exact absurd hcall (hnone call)
  refine ⟨fun hnone => ?_, fun call hcall hurl held binary hlawful => ?_,
    fun call hcall hurl held hapart => ?_⟩
  · rcases hrun with ⟨call, hcall, -⟩ | ⟨-, err, herr⟩
    · exact absurd hcall (hnone call)
    · rw [Farm.upload_stream, herr]
      rfl
  · have hcontent := hcall.2.2.choose_spec.2.2.1
    have hstored := handler_stored hlawful hurl s
    rw [hserved call hcall, ← hcontent]
    exact ⟨hstored.left, fun calls hok => hstored.whole (upload_file_stream_ok hcall hok)⟩
  · rw [hserved call hcall]
    exact handler_apart hapart hurl s

def farmOfOne : Farm Disk where
  ftp := steady
  printers := [⟨"", "printer-1", "10.0.0.5", "", "12345678"⟩]
  reachable := true
  reply_arrives := true

/-- Two chunks of a file. -/
def twoChunks : ChunkStream where
  chunks := [⟨"printer-1", [1, 2], "part.gcode"⟩, ⟨"printer-1", [3], "part.gcode"⟩]

theorem the_chunks_are_stored :
    (farmOfOne.upload_stream {} twoChunks).2.files "part.gcode" = some [1, 2, 3] := by
  have hcomplete : Complete farmOfOne.printers twoChunks
      ⟨⟨"", "printer-1", "10.0.0.5", "", "12345678"⟩, "part.gcode", [1, 2, 3], 3⟩ :=
    ⟨rfl, by decide, "printer-1", by simp [Uniform, twoChunks], by decide, rfl, rfl⟩
  exact ((upload_rpcs_are_lawful farmOfOne {} twoChunks).stored _ hcomplete (by decide +kernel) _ _
    (steady_lawful _ _)).2 _ rfl

/-! ## An upload of the plugin -/

theorem upload_file_stores {file : LocalFile} (hsound : ¬ file.BreaksInside) {device_id : String}
    {s : σ} (hprinter : farm.printers.find? (fun x => x.id = device_id) = some printer)
    (hlawful : Lawful farm.ftp printer remote_path held binary)
    (hurl : Verbatim printer.ip (bytes_of remote_path))
    (h : (farm.upload_file s device_id (some file.reads) remote_path).1 =
      errors.BAMBU_NETWORK_SUCCESS) :
    held (farm.upload_file s device_id (some file.reads) remote_path).2 = some file.content := by
  let server : Server := {
    reachable := farm.reachable, printers := farm.printers
    upload_handler := farm.upload_handler s, reply_arrives := farm.reply_arrives }
  have huniform := chunk_stream_uniform device_id remote_path file.reads
  have hok := upload_file_success server device_id remote_path file.reads
    (bambu_network_rs_upload_file server device_id (some file.reads) remote_path).2
    (Prod.ext h rfl)
  rcases upload_file_stream_run farm.printers (farm.upload_handler s)
      { chunks := chunk_stream device_id remote_path file.reads } with
    ⟨call, hcall, -, hcalls⟩ | ⟨-, err, herr⟩
  · have hresult := upload_file_stream_ok hcall hok
    obtain ⟨-, hne, dev_id, huniform', hprinter', hcontent, -⟩ := hcall
    obtain ⟨rfl, hpath⟩ := uniform_unique hne huniform huniform'
    have hsame : call.printer = printer := by
      rw [hprinter] at hprinter'
      exact (Option.some.inj hprinter').symm
    have hwhole : call.content = file.content := by
      rcases chunk_stream_of_sound device_id remote_path file hsound with hnil | hwhole
      · exact absurd hnil hne
      · rw [hcontent, hwhole]
    rw [← hsame, hpath] at hlawful hurl
    have hserved : (farm.upload_file s device_id (some file.reads) remote_path).2 =
        (default_upload_handler farm.ftp call s).2 := by
      have hone : (bambu_network_rs_upload_file server device_id (some file.reads)
          remote_path).2 = [call] := by
        have hfinal := congrArg finalState hok
        exact hfinal.symm.trans hcalls
      change farm.served s (bambu_network_rs_upload_file server device_id (some file.reads)
        remote_path).2 = _
      rw [hone]
      rfl
    rw [hserved, ← hwhole]
    exact (handler_stored hlawful hurl s).whole hresult
  · have hfail := hok.symm.trans herr
    cases hfail

/-! ## The uploads of a print -/

/-- The uploads of a flow. -/
def uploads (t : History) : History := t.filter isUpload

section flow

variable (s : Flow)

theorem uploads_tell {e : Event} (h : isUpload e = false) : uploads (s.tell e).trace =
    uploads s.trace := by
  simp [uploads, Flow.tell, h]

theorem uploads_report (stage : Stage) (code : Int) (message : String) :
    uploads (s.report_update_status stage code message).trace = uploads s.trace :=
  uploads_tell s rfl

theorem uploads_is_cancelled (cancel_fn : WasCancelledFn) :
    uploads (s.is_cancelled cancel_fn).2.trace = uploads s.trace := by
  cases cancel_fn with
  | none => rfl
  | some f => exact uploads_tell s rfl

theorem uploads_send_message (deps : PrintFlowDeps) (dev_id json : Text) :
    uploads (s.send_message deps dev_id json).2.trace = uploads s.trace := by
  unfold Flow.send_message
  cases deps.send_message with
  | none => rfl
  | some f => exact uploads_tell s rfl

theorem uploads_wait_for_printer (wait_fn : OnWaitFn) :
    uploads (wait_for_printer wait_fn s).2.trace = uploads s.trace := by
  unfold wait_for_printer
  cases wait_fn with
  | none => exact uploads_report s _ _ _
  | some f =>
    have hwait : uploads ((s.report_update_status .PrintingStageWaitPrinter BAMBU_NETWORK_SUCCESS
        "Waiting for printer").wait f .PrintingStageWaitPrinter (ascii "\x7b\x7d")).2.trace =
        uploads s.trace := (uploads_tell _ rfl).trans (uploads_report s _ _ _)
    dsimp only
    split_ifs
    · exact (uploads_report _ _ _ _).trans hwait
    · exact (uploads_report _ _ _ _).trans hwait

theorem uploads_send_print_command (params : PrintParams) (cancel_fn : WasCancelledFn)
    (wait_fn : OnWaitFn) (deps : PrintFlowDeps) (remote_filename plate_path : Text) :
    uploads (send_print_command params cancel_fn wait_fn deps remote_filename plate_path s).2.trace =
      uploads s.trace := by
  unfold send_print_command
  dsimp only
  have hcheck := uploads_is_cancelled s cancel_fn
  by_cases hcancelled : (s.is_cancelled cancel_fn).1 = true
  · rw [if_pos hcancelled, uploads_report]
    exact hcheck
  rw [if_neg hcancelled]
  have hsend := (uploads_send_message _ deps params.dev_id (build_project_file_command params
    remote_filename plate_path)).trans ((uploads_report _ .PrintingStageSending
    BAMBU_NETWORK_SUCCESS "Sending print command").trans hcheck)
  generalize Flow.send_message _ deps params.dev_id _ = r at hsend ⊢
  by_cases hfailed : r.1 ≠ BAMBU_NETWORK_SUCCESS
  · rw [if_pos hfailed, uploads_report]
    exact hsend
  · rw [if_neg hfailed, uploads_wait_for_printer]
    exact hsend

/-- The upload that a flow makes. -/
theorem uploads_upload_file (hs : uploads s.trace = []) (deps : PrintFlowDeps)
    (dev_id filename remote_filename : Text) (e : Event)
    (h : e ∈ uploads (s.upload_file deps dev_id filename remote_filename).2.trace) :
    ∃ f, deps.upload_file = some f ∧ ∃ behind,
      e = .upload dev_id filename remote_filename (f behind dev_id filename remote_filename) := by
  unfold Flow.upload_file at h
  cases hdeps : deps.upload_file with
  | none =>
    rw [hdeps, hs] at h
    cases h
  | some f =>
    rw [hdeps] at h
    have hsplit : uploads (s.tell (.upload dev_id filename remote_filename
        (f s.trace dev_id filename remote_filename))).trace = uploads s.trace ++
        [.upload dev_id filename remote_filename (f s.trace dev_id filename remote_filename)] := by
      simp [uploads, Flow.tell, isUpload]
    rw [hsplit, hs, List.nil_append, List.mem_singleton] at h
    exact ⟨f, rfl, _, h⟩

end flow

/-- An upload of a print is that of its file, under the name of the job. -/
theorem upload_of_print {params : PrintParams} {cancel_fn : WasCancelledFn} {wait_fn : OnWaitFn}
    {deps : PrintFlowDeps} {s : Flow} (hs : s.trace = []) {e : Event}
    (h : e ∈ uploads (start_local_print params cancel_fn wait_fn deps s).2.trace) :
    ∃ before f behind, deps.upload_file = some f ∧
      e = .upload params.dev_id params.filename (resolve_remote_filename (deps.files before) params)
        (f behind params.dev_id params.filename
          (resolve_remote_filename (deps.files before) params)) := by
  unfold start_local_print at h
  dsimp only at h
  have hnone : uploads s.trace = [] := by rw [hs]; rfl
  have hcheck := (uploads_is_cancelled _ cancel_fn).trans ((uploads_report s .PrintingStageCreate
    BAMBU_NETWORK_SUCCESS "Preparing print").trans hnone)
  generalize Flow.is_cancelled _ cancel_fn = c at hcheck h
  by_cases hcancelled : c.1 = true
  · rw [if_pos hcancelled, uploads_report, hcheck] at h
    cases h
  rw [if_neg hcancelled] at h
  have hreport := (uploads_report c.2 .PrintingStageUpload BAMBU_NETWORK_SUCCESS
    "Uploading to printer").trans hcheck
  generalize c.2.report_update_status _ _ _ = s1 at hreport h
  have hmade := uploads_upload_file s1 hreport deps params.dev_id params.filename
    (resolve_remote_filename (deps.files c.2.trace) params)
  generalize s1.upload_file deps params.dev_id _ _ = r at hmade h
  have hmem : e ∈ uploads r.2.trace := by
    by_cases hfailed : r.1 ≠ BAMBU_NETWORK_SUCCESS
    · rwa [if_pos hfailed, uploads_report] at h
    · rwa [if_neg hfailed, uploads_send_print_command, update_local_context_trace] at h
  obtain ⟨f, hf, behind, he⟩ := hmade e hmem
  exact ⟨_, f, behind, hf, he⟩

/-! ## A print -/

/-- The callbacks of a print are those of the plugin, with the farm in the state `s`: the file
is read as it is named, and its upload is the RPC. -/
structure Wired (deps : PrintFlowDeps) (farm : Farm σ) (s : σ) (file : LocalFile)
    (params : PrintParams) (device_id remote_filename : String) : Prop where
  device : params.dev_id = as_bytes device_id
  reads : ∀ t, deps.files t params.filename = some file.content
  name : ∀ t, resolve_remote_filename (deps.files t) params = as_bytes remote_filename
  upload : ∀ f, deps.upload_file = some f → ∀ t,
    f t (as_bytes device_id) params.filename (as_bytes remote_filename) =
      (farm.upload_file s device_id (some file.reads) remote_filename).1

/-- A command for a device that holds the file under the url of the command. The name of a
package is that of the bytes that are there. -/
structure Printable (params : PrintParams) (held : Option Bytes) (content : Bytes)
    (remote_filename : Text) (dev_id json : Text) : Prop where
  device : dev_id = params.dev_id
  held : held = some content
  url : Fits params remote_filename (resolve_plate_metadata_path params) →
    UrlNames json remote_filename
  package : IsPackage params →
    ∃ stem, IsPackageName remote_filename stem (hex (fnv1a content))

/-- A package that can be read is named by its bytes. -/
theorem named_by_content (files : Files) {params : PrintParams} (h : IsPackage params)
    {content : Text} (hcontent : files params.filename = some content) :
    ∃ stem, IsPackageName (resolve_remote_filename files params) stem (hex (fnv1a content)) := by
  have hsource : source_is_3mf params = true := by simp [source_is_3mf, h.1]
  obtain ⟨-, stem, hname⟩ := print_job.package_name files hsource
    (if params.project_name ≠ [] then params.project_name
      else if params.task_name ≠ [] then params.task_name
      else basename_or_empty params.filename)
  rw [← resolve_package files h, hcontent, Option.getD_some] at hname
  exact ⟨stem, hname⟩

/-- A package of two bytes. -/
def package : LocalFile where
  content := [1, 2]
  reads := [.data [1, 2]]
  valid := by
    have h : Reads ([1, 2] ++ []) [.data [1, 2]] := .data (by decide) (by decide) .eof
    exact h

def packageJob : PrintParams :=
  { taskJob (ascii "printer-1") (ascii "benchy") with filename := ascii "/tmp/benchy.3mf" }

def packageDeps : PrintFlowDeps where
  files := fun _ _ => some package.content
  upload_file := some fun _ _ _ _ => (farmOfOne.upload_file {} "printer-1" (some package.reads)
    "benchy-ed74208a.gcode.3mf").1
  send_message := some fun _ _ _ => 0
  update_local_context := none

theorem package_name : resolve_remote_filename (fun _ => some package.content) packageJob =
    as_bytes "benchy-ed74208a.gcode.3mf" := by
  decide +kernel

end bambu_farm.printed_files
