-- The three ways to start a print or an upload (`print_flow.cpp`), as a run over the
-- callbacks of the slicer. A callback answers by anything that happened before, so
-- that it may keep a state of its own.
import BambuFarm.ContextStore
import BambuFarm.PrintCommand

open json
open bambu_farm_client.print_job bambu_farm_client.context_store

namespace bambu_farm_client.print_flow

/-! ## Stages and codes -/

inductive Stage
  | PrintingStageCreate
  | PrintingStageUpload
  | PrintingStageWaiting
  | PrintingStageSending
  | PrintingStageRecord
  | PrintingStageWaitPrinter
  | PrintingStageFinished
  | PrintingStageERROR
  deriving DecidableEq

open Stage

def Stage.number : Stage → Nat
  | PrintingStageCreate => 0
  | PrintingStageUpload => 1
  | PrintingStageWaiting => 2
  | PrintingStageSending => 3
  | PrintingStageRecord => 4
  | PrintingStageWaitPrinter => 5
  | PrintingStageFinished => 6
  | PrintingStageERROR => 7

def BAMBU_NETWORK_SUCCESS : Int := 0
def BAMBU_NETWORK_ERR_SEND_MSG_FAILED : Int := -4
def BAMBU_NETWORK_ERR_TIMEOUT : Int := -17
def BAMBU_NETWORK_ERR_CANCELED : Int := -18
def BAMBU_NETWORK_ERR_PRINT_LP_UPLOAD_FTP_FAILED : Int := -4020
def BAMBU_NETWORK_ERR_PRINT_SG_UPLOAD_FTP_FAILED : Int := -5010

/-! ## What a flow does -/

/-- What a flow tells its callbacks, with their answers. -/
inductive Event
  | report (stage : Stage) (code : Int) (message : String)
  | cancel (answer : Bool)
  | upload (dev_id filename remote_filename : Text) (result : Int)
  | send (dev_id json : Text) (result : Int)
  | wait (stage : Stage) (job_info : Text) (answer : Bool)
  deriving DecidableEq

/-- Everything that happened before. -/
abbrev History := List Event

abbrev WasCancelledFn := Option (History → Bool)

abbrev OnWaitFn := Option (History → Stage → Text → Bool)

/-- The functions that a flow is given. The files are read as they are at the time. -/
structure PrintFlowDeps where
  files : History → Files
  upload_file : Option (History → Text → Text → Text → Int)
  send_message : Option (History → Text → Text → Int)
  update_local_context :
    Option (PrintParams → Text → Text → LocalPrintContextStore → LocalPrintContextStore)

/-- What has happened so far, and the print contexts. -/
structure Flow where
  trace : History
  store : LocalPrintContextStore

namespace Flow

variable (s : Flow)

def tell (e : Event) : Flow := { s with trace := s.trace ++ [e] }

def report_update_status (stage : Stage) (code : Int) (message : String) : Flow :=
  s.tell (.report stage code message)

/-- `cancel_fn && cancel_fn()`. -/
def is_cancelled (cancel_fn : WasCancelledFn) : Bool × Flow :=
  match cancel_fn with
  | none => (false, s)
  | some f => (f s.trace, s.tell (.cancel (f s.trace)))

def upload_file (deps : PrintFlowDeps) (dev_id filename remote_filename : Text) : Int × Flow :=
  match deps.upload_file with
  | none => (-1, s)
  | some f =>
    let result := f s.trace dev_id filename remote_filename
    (result, s.tell (.upload dev_id filename remote_filename result))

def send_message (deps : PrintFlowDeps) (dev_id json : Text) : Int × Flow :=
  match deps.send_message with
  | none => (-1, s)
  | some f =>
    let result := f s.trace dev_id json
    (result, s.tell (.send dev_id json result))

def update_local_context (deps : PrintFlowDeps) (params : PrintParams)
    (remote_filename plate_path : Text) : Flow :=
  match deps.update_local_context with
  | none => s
  | some f => { s with store := f params remote_filename plate_path s.store }

/-- The call of a `wait_fn` that is set. -/
def wait (f : History → Stage → Text → Bool) (stage : Stage) (job_info : Text) : Bool × Flow :=
  (f s.trace stage job_info, s.tell (.wait stage job_info (f s.trace stage job_info)))

end Flow

/-! ## The flows -/

/-- The end of `start_local_print`, behind a command that was accepted. -/
def wait_for_printer (wait_fn : OnWaitFn) (s : Flow) : Int × Flow :=
  match wait_fn with
  | none =>
    (BAMBU_NETWORK_SUCCESS,
      s.report_update_status PrintingStageFinished BAMBU_NETWORK_SUCCESS "Print submitted")
  | some f =>
    let s := s.report_update_status PrintingStageWaitPrinter BAMBU_NETWORK_SUCCESS
      "Waiting for printer"
    let (wait_ok, s) := s.wait f PrintingStageWaitPrinter (ascii "\x7b\x7d")
    if !wait_ok then
      (BAMBU_NETWORK_ERR_TIMEOUT,
        s.report_update_status PrintingStageERROR BAMBU_NETWORK_ERR_TIMEOUT "Wait failed")
    else
      (BAMBU_NETWORK_SUCCESS,
        s.report_update_status PrintingStageFinished BAMBU_NETWORK_SUCCESS "Print submitted")

/-- The part of `start_local_print` behind the upload. -/
def send_print_command (params : PrintParams) (cancel_fn : WasCancelledFn) (wait_fn : OnWaitFn)
    (deps : PrintFlowDeps) (remote_filename plate_path : Text) (s : Flow) : Int × Flow :=
  let (cancelled, s) := s.is_cancelled cancel_fn
  if cancelled then
    (BAMBU_NETWORK_ERR_CANCELED,
      s.report_update_status PrintingStageERROR BAMBU_NETWORK_ERR_CANCELED "Canceled")
  else
    let s := s.report_update_status PrintingStageSending BAMBU_NETWORK_SUCCESS
      "Sending print command"
    let json := build_project_file_command params remote_filename plate_path
    let (send_result, s) := s.send_message deps params.dev_id json
    if send_result ≠ BAMBU_NETWORK_SUCCESS then
      (BAMBU_NETWORK_ERR_SEND_MSG_FAILED,
        s.report_update_status PrintingStageERROR send_result "Send failed")
    else wait_for_printer wait_fn s

def start_local_print (params : PrintParams) (cancel_fn : WasCancelledFn) (wait_fn : OnWaitFn)
    (deps : PrintFlowDeps) (s : Flow) : Int × Flow :=
  let s := s.report_update_status PrintingStageCreate BAMBU_NETWORK_SUCCESS "Preparing print"
  let (cancelled, s) := s.is_cancelled cancel_fn
  if cancelled then
    (BAMBU_NETWORK_ERR_CANCELED,
      s.report_update_status PrintingStageERROR BAMBU_NETWORK_ERR_CANCELED "Canceled")
  else
    let remote_filename := resolve_remote_filename (deps.files s.trace) params
    let plate_path := resolve_plate_metadata_path params
    let s := s.report_update_status PrintingStageUpload BAMBU_NETWORK_SUCCESS
      "Uploading to printer"
    let (upload_result, s) := s.upload_file deps params.dev_id params.filename remote_filename
    if upload_result ≠ BAMBU_NETWORK_SUCCESS then
      (BAMBU_NETWORK_ERR_PRINT_LP_UPLOAD_FTP_FAILED,
        s.report_update_status PrintingStageERROR upload_result "Upload failed")
    else
      let s := s.update_local_context deps params remote_filename plate_path
      send_print_command params cancel_fn wait_fn deps remote_filename plate_path s

def start_send_gcode_to_sdcard (params : PrintParams) (deps : PrintFlowDeps) (s : Flow) :
    Int × Flow :=
  let s := s.report_update_status PrintingStageCreate BAMBU_NETWORK_SUCCESS "Preparing upload"
  let remote_filename := resolve_remote_filename (deps.files s.trace) params
  let s := s.report_update_status PrintingStageUpload BAMBU_NETWORK_SUCCESS "Uploading to printer"
  let (upload_result, s) := s.upload_file deps params.dev_id params.filename remote_filename
  if upload_result ≠ BAMBU_NETWORK_SUCCESS then
    (BAMBU_NETWORK_ERR_PRINT_SG_UPLOAD_FTP_FAILED,
      s.report_update_status PrintingStageERROR upload_result "Upload failed")
  else
    (BAMBU_NETWORK_SUCCESS,
      s.report_update_status PrintingStageFinished BAMBU_NETWORK_SUCCESS "Upload finished")

def start_sdcard_print (params : PrintParams) (cancel_fn : WasCancelledFn) (deps : PrintFlowDeps)
    (s : Flow) : Int × Flow :=
  let plate_path :=
    if params.dst_file ≠ [] then params.dst_file else resolve_plate_metadata_path params
  let remote_filename :=
    if basename_or_empty plate_path = [] then resolve_remote_filename (deps.files s.trace) params
    else basename_or_empty plate_path
  let s := s.report_update_status PrintingStageCreate BAMBU_NETWORK_SUCCESS "Preparing print"
  let (cancelled, s) := s.is_cancelled cancel_fn
  if cancelled then
    (BAMBU_NETWORK_ERR_CANCELED,
      s.report_update_status PrintingStageERROR BAMBU_NETWORK_ERR_CANCELED "Canceled")
  else
    let s := s.report_update_status PrintingStageSending BAMBU_NETWORK_SUCCESS
      "Sending print command"
    let json := build_project_file_command params remote_filename plate_path
    let (send_result, s) := s.send_message deps params.dev_id json
    if send_result ≠ BAMBU_NETWORK_SUCCESS then
      (BAMBU_NETWORK_ERR_SEND_MSG_FAILED,
        s.report_update_status PrintingStageERROR send_result "Send failed")
    else
      (BAMBU_NETWORK_SUCCESS,
        s.report_update_status PrintingStageFinished BAMBU_NETWORK_SUCCESS "Print submitted")

/-! ## The discipline of a flow -/

/-- The stages that were reported, with their codes. -/
def reported : Event → Option (Stage × Int)
  | .report stage code _ => some (stage, code)
  | _ => none

def reports (t : History) : List (Stage × Int) := t.filterMap reported

def isUpload : Event → Bool
  | .upload .. => true
  | _ => false

def isSend : Event → Bool
  | .send .. => true
  | _ => false

def Terminal (stage : Stage) : Prop :=
  stage = PrintingStageFinished ∨ stage = PrintingStageERROR

/-- Each command is sent where `Allowed` holds of what happened before it. -/
def SendsAllowed (Allowed : History → Text → Text → Prop) (t : History) : Prop :=
  ∀ before dev_id json result behind, t = before ++ .send dev_id json result :: behind →
    Allowed before dev_id json

/-- The laws of a run that has returned `result`. -/
structure Disciplined (Allowed : History → Text → Text → Prop) (result : Int) (t : History) :
    Prop where
  create : (reports t).head?.map (·.1) = some PrintingStageCreate
  increasing : ((reports t).map fun r => r.1.number).Pairwise (· < ·)
  /-- The last report is terminal and the only one, and tells whether the flow succeeded. -/
  terminal : ∃ before stage code, reports t = before ++ [(stage, code)] ∧ Terminal stage ∧
    (∀ r ∈ before, ¬ Terminal r.1) ∧
    (stage = PrintingStageFinished ∧ code = 0 ↔ result = BAMBU_NETWORK_SUCCESS)
  uploads : t.countP isUpload ≤ 1
  sends : t.countP isSend ≤ 1
  allowed : SendsAllowed Allowed t

/-- No check has said that the user cancelled. -/
def Uncancelled (before : History) (_dev_id _json : Text) : Prop := .cancel true ∉ before

/-- The urls of a command. -/
def urls (command : Value) : List Value :=
  match command with
  | .obj [(_, .obj ms)] => (ms.filter fun m => m.1 = ascii "url").map (·.2)
  | _ => []

/-- The command has one url, which names the file. -/
def UrlNames (json remote_filename : Text) : Prop :=
  ∃ command, parse json = some command ∧
    urls command = [.str (ascii "ftp://" ++ remote_filename)]

/-- A command is sent to a device that the file was uploaded to before, and names it. -/
def NamesUpload (params : PrintParams) (before : History) (dev_id json : Text) : Prop :=
  Uncancelled before dev_id json ∧ ∃ filename remote_filename,
    .upload dev_id filename remote_filename BAMBU_NETWORK_SUCCESS ∈ before ∧
    (Fits params remote_filename (resolve_plate_metadata_path params) →
      UrlNames json remote_filename)

/-! ## A flow on its way -/

/-- A flow that has reported stages up to `n`, with at most `u` uploads and `v` commands. -/
structure Unfinished (Allowed : History → Text → Text → Prop) (n u v : Nat) (t : History) :
    Prop where
  create : (reports t).head?.map (·.1) = some PrintingStageCreate
  increasing : ((reports t).map fun r => r.1.number).Pairwise (· < ·)
  below : ∀ r ∈ reports t, r.1.number ≤ n
  early : n ≤ 5
  uploads : t.countP isUpload ≤ u
  sends : t.countP isSend ≤ v
  allowed : SendsAllowed Allowed t

/-- The flow goes on as long as the user has not cancelled. -/
structure Going (Allowed : History → Text → Text → Prop) (n u v : Nat) (t : History) : Prop
    extends Unfinished Allowed n u v t where
  uncancelled : .cancel true ∉ t

section going

variable {Allowed : History → Text → Text → Prop} {n u v : Nat} {t : History}

theorem sendsAllowed_snoc (h : SendsAllowed Allowed t) {e : Event}
    (he : ∀ dev_id json result, e = .send dev_id json result → Allowed t dev_id json) :
    SendsAllowed Allowed (t ++ [e]) := by
  intro before dev_id json result behind heq
  rcases List.eq_nil_or_concat behind with rfl | ⟨behind', e', rfl⟩
  · obtain ⟨rfl, hlast⟩ := List.append_inj' heq rfl
    exact he dev_id json result (by simpa using hlast)
  · rw [List.concat_eq_append, ← List.cons_append, ← List.append_assoc] at heq
    obtain ⟨rfl, -⟩ := List.append_inj' heq rfl
    exact h before dev_id json result behind' rfl

theorem reports_snoc (t : History) (e : Event) :
    reports (t ++ [e]) = reports t ++ (reported e).toList := by
  rw [reports, List.filterMap_append]
  cases h : reported e with
  | none => simp [reports, h]
  | some r => simp [reports, h]

/-- An event that is no report. -/
theorem Unfinished.quiet (h : Unfinished Allowed n u v t) {e : Event} (hreport : reported e = none)
    {u' v' : Nat} (hu : u + (if isUpload e then 1 else 0) ≤ u')
    (hv : v + (if isSend e then 1 else 0) ≤ v')
    (hsend : ∀ dev_id json result, e = .send dev_id json result → Allowed t dev_id json) :
    Unfinished Allowed n u' v' (t ++ [e]) := by
  have hreports : reports (t ++ [e]) = reports t := by
    rw [reports_snoc, hreport]
    simp
  have huploads := h.uploads
  have hsends := h.sends
  refine ⟨by rw [hreports]; exact h.create, by rw [hreports]; exact h.increasing,
    by rw [hreports]; exact h.below, h.early, ?_, ?_, sendsAllowed_snoc h.allowed hsend⟩
  · rw [List.countP_append, List.countP_singleton]
    omega
  · rw [List.countP_append, List.countP_singleton]
    omega

theorem Going.quiet (h : Going Allowed n u v t) {e : Event} (hreport : reported e = none)
    (hcancel : e ≠ .cancel true) {u' v' : Nat} (hu : u + (if isUpload e then 1 else 0) ≤ u')
    (hv : v + (if isSend e then 1 else 0) ≤ v')
    (hsend : ∀ dev_id json result, e = .send dev_id json result → Allowed t dev_id json) :
    Going Allowed n u' v' (t ++ [e]) := by
  refine ⟨h.toUnfinished.quiet hreport hu hv hsend, ?_⟩
  rw [List.mem_append, List.mem_singleton, not_or]
  exact ⟨h.uncancelled, fun he => hcancel he.symm⟩

/-- What a report of a later stage adds. -/
theorem increasing_report (h : Unfinished Allowed n u v t) {stage : Stage}
    (hn : n < stage.number) (code : Int) (message : String) :
    ((reports (t ++ [.report stage code message])).map fun r => r.1.number).Pairwise (· < ·) ∧
      (reports (t ++ [.report stage code message])).head?.map (·.1) =
        some PrintingStageCreate := by
  have hreports : reports (t ++ [.report stage code message]) = reports t ++ [(stage, code)] :=
    reports_snoc _ _
  constructor
  · rw [hreports, List.map_append, List.pairwise_append]
    refine ⟨h.increasing, by simp, fun a ha b hb => ?_⟩
    obtain ⟨r, hr, rfl⟩ := List.mem_map.mp ha
    rw [List.map_cons, List.map_nil, List.mem_singleton] at hb
    subst hb
    exact Nat.lt_of_le_of_lt (h.below r hr) hn
  · rw [hreports, List.head?_append, Option.map_or, h.create]
    rfl

theorem Going.report (h : Going Allowed n u v t) {stage : Stage} (hn : n < stage.number)
    (hearly : stage.number ≤ 5) (code : Int) (message : String) :
    Going Allowed stage.number u v (t ++ [.report stage code message]) := by
  have hreports : reports (t ++ [.report stage code message]) = reports t ++ [(stage, code)] :=
    reports_snoc _ _
  obtain ⟨hincreasing, hcreate⟩ := increasing_report h.toUnfinished hn code message
  refine ⟨⟨hcreate, hincreasing, ?_, hearly, ?_, ?_, sendsAllowed_snoc h.allowed (by simp)⟩, ?_⟩
  · intro r hr
    rw [hreports, List.mem_append, List.mem_singleton] at hr
    rcases hr with hr | rfl
    · exact Nat.le_trans (h.below r hr) (Nat.le_of_lt hn)
    · exact Nat.le_refl _
  · simpa [List.countP_append, isUpload] using h.uploads
  · simpa [List.countP_append, isSend] using h.sends
  · simpa using h.uncancelled

theorem terminal_number {stage : Stage} (h : Terminal stage) : 6 ≤ stage.number := by
  rcases h with rfl | rfl
  · decide
  · decide

/-- The last report of a flow. -/
theorem Unfinished.ends (h : Unfinished Allowed n u v t) (hu : u ≤ 1) (hv : v ≤ 1) {stage : Stage}
    (hstage : Terminal stage) {code result : Int} (message : String)
    (hresult : stage = PrintingStageFinished ∧ code = 0 ↔ result = BAMBU_NETWORK_SUCCESS) :
    Disciplined Allowed result (t ++ [.report stage code message]) := by
  have hlate := terminal_number hstage
  have hlater : n < stage.number := Nat.lt_of_le_of_lt h.early hlate
  have hearly := h.early
  obtain ⟨hincreasing, hcreate⟩ := increasing_report h hlater code message
  refine ⟨hcreate, hincreasing, ⟨reports t, stage, code, reports_snoc _ _, hstage,
    fun r hr hterminal => ?_, hresult⟩, ?_, ?_, sendsAllowed_snoc h.allowed (by simp)⟩
  · have hbelow := h.below r hr
    have := terminal_number hterminal
    omega
  · have := h.uploads
    simp only [List.countP_append, List.countP_singleton, isUpload, Bool.false_eq_true, if_false]
    omega
  · have := h.sends
    simp only [List.countP_append, List.countP_singleton, isSend, Bool.false_eq_true, if_false]
    omega

end going

/-! ## The steps of the flows -/

section steps

variable {Allowed : History → Text → Text → Prop} {n u v : Nat} {s : Flow}

theorem is_cancelled_store (s : Flow) (cancel_fn : WasCancelledFn) :
    (s.is_cancelled cancel_fn).2.store = s.store := by
  cases cancel_fn <;> rfl

theorem upload_file_store (s : Flow) (deps : PrintFlowDeps) (dev_id filename remote : Text) :
    (s.upload_file deps dev_id filename remote).2.store = s.store := by
  unfold Flow.upload_file
  cases deps.upload_file <;> rfl

theorem update_local_context_trace (s : Flow) (deps : PrintFlowDeps) (params : PrintParams)
    (remote_filename plate_path : Text) :
    (s.update_local_context deps params remote_filename plate_path).trace = s.trace := by
  unfold Flow.update_local_context
  cases deps.update_local_context <;> rfl

/-- A check of the user that lets the flow go on. -/
theorem going_is_cancelled (h : Going Allowed n u v s.trace) {cancel_fn : WasCancelledFn}
    (hc : ¬ (s.is_cancelled cancel_fn).1 = true) :
    Going Allowed n u v (s.is_cancelled cancel_fn).2.trace := by
  cases cancel_fn with
  | none => exact h
  | some f =>
    refine h.quiet rfl (fun heq => hc ?_) (Nat.le_refl _) (Nat.le_refl _) (by simp)
    exact Event.cancel.inj heq

/-- What happened before a check is not forgotten. -/
theorem mem_is_cancelled {e : Event} (h : e ∈ s.trace) (cancel_fn : WasCancelledFn) :
    e ∈ (s.is_cancelled cancel_fn).2.trace := by
  cases cancel_fn with
  | none => exact h
  | some f => exact List.mem_append_left _ h

theorem going_upload_file (h : Going Allowed n 0 v s.trace) (deps : PrintFlowDeps)
    (dev_id filename remote : Text) :
    Going Allowed n 1 v (s.upload_file deps dev_id filename remote).2.trace := by
  unfold Flow.upload_file
  cases deps.upload_file with
  | none =>
    exact { h with uploads := Nat.le_trans h.uploads (Nat.zero_le 1) }
  | some f => exact h.quiet rfl (by simp) (Nat.le_refl _) (Nat.le_refl _) (by simp)

theorem mem_upload_file (s : Flow) (deps : PrintFlowDeps) {dev_id filename remote : Text}
    (hresult : (s.upload_file deps dev_id filename remote).1 = BAMBU_NETWORK_SUCCESS) :
    .upload dev_id filename remote BAMBU_NETWORK_SUCCESS ∈
      (s.upload_file deps dev_id filename remote).2.trace := by
  unfold Flow.upload_file at hresult ⊢
  cases hdeps : deps.upload_file with
  | none =>
    rw [hdeps] at hresult
    cases hresult
  | some f =>
    rw [hdeps] at hresult
    refine List.mem_append_right _ (List.mem_singleton.mpr ?_)
    rw [← hresult]

theorem going_send_message (h : Going Allowed n u 0 s.trace) (deps : PrintFlowDeps)
    (dev_id json : Text) (hallowed : Allowed s.trace dev_id json) :
    Going Allowed n u 1 (s.send_message deps dev_id json).2.trace := by
  unfold Flow.send_message
  cases deps.send_message with
  | none => exact { h with sends := Nat.le_trans h.sends (Nat.zero_le 1) }
  | some f =>
    refine h.quiet rfl (by simp) (Nat.le_refl _) (Nat.le_refl _) ?_
    intro d j r heq
    cases heq
    exact hallowed

/-- A flow ends when the user has cancelled. -/
theorem canceled_ends (h : Going Allowed n u v s.trace) (hu : u ≤ 1) (hv : v ≤ 1)
    {cancel_fn : WasCancelledFn} (hc : (s.is_cancelled cancel_fn).1 = true) (message : String) :
    Disciplined Allowed BAMBU_NETWORK_ERR_CANCELED ((s.is_cancelled cancel_fn).2.report_update_status
      PrintingStageERROR BAMBU_NETWORK_ERR_CANCELED message).trace := by
  have hs : (s.is_cancelled cancel_fn).2.trace = s.trace ++ [.cancel true] := by
    cases cancel_fn with
    | none => cases hc
    | some f =>
      dsimp only [Flow.is_cancelled, Flow.tell] at hc ⊢
      rw [hc]
  rw [Flow.report_update_status, Flow.tell, hs]
  have hcancelled : Unfinished Allowed n u v (s.trace ++ [.cancel true]) :=
    h.toUnfinished.quiet rfl (Nat.le_refl _) (Nat.le_refl _) (by simp)
  exact hcancelled.ends hu hv (.inr rfl) message (by decide)

theorem failed_ends (h : Going Allowed n u v s.trace) (hu : u ≤ 1) (hv : v ≤ 1) (result : Int)
    (hresult : result ≠ BAMBU_NETWORK_SUCCESS) (code : Int) (message : String) :
    Disciplined Allowed result
      (s.report_update_status PrintingStageERROR code message).trace := by
  refine h.toUnfinished.ends hu hv (.inr rfl) message (iff_of_false ?_ hresult)
  rintro ⟨hstage, -⟩
  cases hstage

theorem finished_ends (h : Going Allowed n u v s.trace) (hu : u ≤ 1) (hv : v ≤ 1)
    (message : String) :
    Disciplined Allowed BAMBU_NETWORK_SUCCESS
      (s.report_update_status PrintingStageFinished BAMBU_NETWORK_SUCCESS message).trace :=
  h.toUnfinished.ends hu hv (.inl rfl) message (iff_of_true ⟨rfl, rfl⟩ rfl)

theorem going_report (h : Going Allowed n u v s.trace) (stage : Stage) (hn : n < stage.number)
    (hearly : stage.number ≤ 5) (code : Int) (message : String) :
    Going Allowed stage.number u v (s.report_update_status stage code message).trace :=
  h.report hn hearly code message

/-- The first report of a flow. -/
theorem going_create (hs : s.trace = []) (code : Int) (message : String) :
    Going Allowed 0 0 0 (s.report_update_status PrintingStageCreate code message).trace := by
  rw [Flow.report_update_status, Flow.tell, hs]
  refine ⟨⟨rfl, by simp [reports, reported], by simp [reports, reported, Stage.number], by omega,
    by simp [isUpload], by simp [isSend], sendsAllowed_snoc (fun b d j r c h => ?_) (by simp)⟩,
    by simp⟩
  simp at h

theorem wait_for_printer_disciplined (h : Going Allowed 3 u v s.trace) (hu : u ≤ 1) (hv : v ≤ 1)
    (wait_fn : OnWaitFn) :
    Disciplined Allowed (wait_for_printer wait_fn s).1 (wait_for_printer wait_fn s).2.trace := by
  unfold wait_for_printer
  cases wait_fn with
  | none => exact finished_ends h hu hv _
  | some f =>
    have hreport := going_report h PrintingStageWaitPrinter (by decide) (by decide)
      BAMBU_NETWORK_SUCCESS "Waiting for printer"
    have hwait : Going Allowed 5 u v ((s.report_update_status PrintingStageWaitPrinter
        BAMBU_NETWORK_SUCCESS "Waiting for printer").wait f PrintingStageWaitPrinter
        (ascii "\x7b\x7d")).2.trace :=
      hreport.quiet rfl (by simp) (Nat.le_refl _) (Nat.le_refl _) (by simp)
    dsimp only
    split_ifs
    · exact failed_ends hwait hu hv BAMBU_NETWORK_ERR_TIMEOUT (by decide) _ _
    · exact finished_ends hwait hu hv _

/-- A command that is sent behind an upload. -/
theorem namesUpload_of_upload (params : PrintParams) {t : History} (h : .cancel true ∉ t)
    {dev_id filename remote_filename : Text}
    (hupload : .upload dev_id filename remote_filename BAMBU_NETWORK_SUCCESS ∈ t) :
    NamesUpload params t dev_id (build_project_file_command params remote_filename
      (resolve_plate_metadata_path params)) := by
  refine ⟨h, filename, remote_filename, hupload, fun hfits => ?_⟩
  have hsays := says_command params remote_filename (resolve_plate_metadata_path params) hfits.ams
  refine ⟨_, parse_command hfits, ?_⟩
  rw [urls, filter_key hsays.nodup hsays.url]
  rfl

theorem send_print_command_disciplined (params : PrintParams) (cancel_fn : WasCancelledFn)
    (wait_fn : OnWaitFn) (deps : PrintFlowDeps) {remote_filename : Text}
    (h : Going (NamesUpload params) 1 1 0 s.trace)
    (hupload : .upload params.dev_id params.filename remote_filename BAMBU_NETWORK_SUCCESS ∈
      s.trace) (r : Int × Flow)
    (hr : send_print_command params cancel_fn wait_fn deps remote_filename
      (resolve_plate_metadata_path params) s = r) :
    Disciplined (NamesUpload params) r.1 r.2.trace := by
  subst hr
  unfold send_print_command
  dsimp only
  by_cases hcheck : (s.is_cancelled cancel_fn).1 = true
  · rw [if_pos hcheck]
    exact canceled_ends h (by omega) (by omega) hcheck _
  have h1 := going_is_cancelled h hcheck
  have hupload1 := mem_is_cancelled hupload cancel_fn
  rw [if_neg hcheck]
  generalize (s.is_cancelled cancel_fn).2 = s1 at h1 hupload1 ⊢
  have h2 := going_report h1 PrintingStageSending (by decide) (by decide) BAMBU_NETWORK_SUCCESS
    "Sending print command"
  have hupload2 : .upload params.dev_id params.filename remote_filename BAMBU_NETWORK_SUCCESS ∈
      (s1.report_update_status PrintingStageSending BAMBU_NETWORK_SUCCESS
        "Sending print command").trace := List.mem_append_left _ hupload1
  generalize s1.report_update_status PrintingStageSending _ _ = s2 at h2 hupload2 ⊢
  have h3 := going_send_message h2 deps _ _ (namesUpload_of_upload params h2.uncancelled hupload2)
  generalize s2.send_message deps params.dev_id _ = r at h3 ⊢
  by_cases hsend : r.1 ≠ BAMBU_NETWORK_SUCCESS
  · rw [if_pos hsend]
    exact failed_ends h3 (by omega) (by omega) BAMBU_NETWORK_ERR_SEND_MSG_FAILED (by decide) _ _
  · rw [if_neg hsend]
    exact wait_for_printer_disciplined h3 (by omega) (by omega) wait_fn

theorem start_local_print_disciplined (params : PrintParams) (cancel_fn : WasCancelledFn)
    (wait_fn : OnWaitFn) (deps : PrintFlowDeps) (hs : s.trace = []) :
    Disciplined (NamesUpload params) (start_local_print params cancel_fn wait_fn deps s).1
      (start_local_print params cancel_fn wait_fn deps s).2.trace := by
  unfold start_local_print
  dsimp only
  have h0 : Going (NamesUpload params) 0 0 0 (s.report_update_status PrintingStageCreate
    BAMBU_NETWORK_SUCCESS "Preparing print").trace := going_create hs _ _
  generalize s.report_update_status PrintingStageCreate _ _ = s0 at h0 ⊢
  by_cases hcheck : (s0.is_cancelled cancel_fn).1 = true
  · rw [if_pos hcheck]
    exact canceled_ends h0 (by omega) (by omega) hcheck _
  have h1 := going_is_cancelled h0 hcheck
  rw [if_neg hcheck]
  generalize (s0.is_cancelled cancel_fn).2 = s1 at h1 ⊢
  generalize resolve_remote_filename (deps.files s1.trace) params = remote_filename
  have h2 := going_upload_file (going_report h1 PrintingStageUpload (by decide) (by decide)
    BAMBU_NETWORK_SUCCESS "Uploading to printer") deps params.dev_id params.filename remote_filename
  generalize s1.report_update_status PrintingStageUpload _ _ = s2 at h2 ⊢
  by_cases hupload : (s2.upload_file deps params.dev_id params.filename remote_filename).1 ≠
      BAMBU_NETWORK_SUCCESS
  · rw [if_pos hupload]
    exact failed_ends h2 (by omega) (by omega) BAMBU_NETWORK_ERR_PRINT_LP_UPLOAD_FTP_FAILED
      (by decide) _ _
  have hmem := mem_upload_file s2 deps (not_not.mp hupload)
  rw [if_neg hupload]
  generalize (s2.upload_file deps params.dev_id params.filename remote_filename).2 = s3
    at h2 hmem ⊢
  rw [← update_local_context_trace s3 deps params remote_filename
    (resolve_plate_metadata_path params)] at h2 hmem
  exact send_print_command_disciplined params cancel_fn wait_fn deps h2 hmem _ rfl

theorem start_send_gcode_to_sdcard_disciplined (params : PrintParams) (deps : PrintFlowDeps)
    (hs : s.trace = []) :
    Disciplined Uncancelled (start_send_gcode_to_sdcard params deps s).1
      (start_send_gcode_to_sdcard params deps s).2.trace := by
  unfold start_send_gcode_to_sdcard
  dsimp only
  have h0 : Going Uncancelled 0 0 0 (s.report_update_status PrintingStageCreate
    BAMBU_NETWORK_SUCCESS "Preparing upload").trace := going_create hs _ _
  generalize s.report_update_status PrintingStageCreate _ _ = s0 at h0 ⊢
  have h1 := going_upload_file (going_report h0 PrintingStageUpload (by decide) (by decide)
    BAMBU_NETWORK_SUCCESS "Uploading to printer") deps params.dev_id params.filename
    (resolve_remote_filename (deps.files s0.trace) params)
  generalize Flow.upload_file _ deps params.dev_id params.filename _ = r at h1 ⊢
  by_cases hupload : r.1 ≠ BAMBU_NETWORK_SUCCESS
  · rw [if_pos hupload]
    exact failed_ends h1 (by omega) (by omega) BAMBU_NETWORK_ERR_PRINT_SG_UPLOAD_FTP_FAILED
      (by decide) _ _
  · rw [if_neg hupload]
    exact finished_ends h1 (by omega) (by omega) _

theorem start_sdcard_print_disciplined (params : PrintParams) (cancel_fn : WasCancelledFn)
    (deps : PrintFlowDeps) (hs : s.trace = []) :
    Disciplined Uncancelled (start_sdcard_print params cancel_fn deps s).1
      (start_sdcard_print params cancel_fn deps s).2.trace := by
  unfold start_sdcard_print
  dsimp only
  have h0 : Going Uncancelled 0 0 0 (s.report_update_status PrintingStageCreate
    BAMBU_NETWORK_SUCCESS "Preparing print").trace := going_create hs _ _
  generalize s.report_update_status PrintingStageCreate _ _ = s0 at h0 ⊢
  by_cases hcheck : (s0.is_cancelled cancel_fn).1 = true
  · rw [if_pos hcheck]
    exact canceled_ends h0 (by omega) (by omega) hcheck _
  have h1 := going_report (going_is_cancelled h0 hcheck) PrintingStageSending (by decide)
    (by decide) BAMBU_NETWORK_SUCCESS "Sending print command"
  rw [if_neg hcheck]
  generalize Flow.report_update_status _ PrintingStageSending _ _ = s1 at h1 ⊢
  generalize build_project_file_command params _ _ = json
  have h2 := going_send_message h1 deps params.dev_id json h1.uncancelled
  generalize s1.send_message deps params.dev_id json = r at h2 ⊢
  by_cases hsend : r.1 ≠ BAMBU_NETWORK_SUCCESS
  · rw [if_pos hsend]
    exact failed_ends h2 (by omega) (by omega) BAMBU_NETWORK_ERR_SEND_MSG_FAILED (by decide) _ _
  · rw [if_neg hsend]
    exact finished_ends h2 (by omega) (by omega) _

end steps

/-- The discipline of every run of the three flows. -/
structure FlowsDisciplined (params : PrintParams) (cancel_fn : WasCancelledFn) (wait_fn : OnWaitFn)
    (deps : PrintFlowDeps) (store : LocalPrintContextStore) : Prop where
  local_print : ∀ r, start_local_print params cancel_fn wait_fn deps ⟨[], store⟩ = r →
    Disciplined (NamesUpload params) r.1 r.2.trace
  send_gcode : ∀ r, start_send_gcode_to_sdcard params deps ⟨[], store⟩ = r →
    Disciplined Uncancelled r.1 r.2.trace
  sdcard_print : ∀ r, start_sdcard_print params cancel_fn deps ⟨[], store⟩ = r →
    Disciplined Uncancelled r.1 r.2.trace

theorem flows_are_disciplined (params : PrintParams) (cancel_fn : WasCancelledFn)
    (wait_fn : OnWaitFn) (deps : PrintFlowDeps) (store : LocalPrintContextStore) :
    FlowsDisciplined params cancel_fn wait_fn deps store := by
  refine ⟨?_, ?_, ?_⟩
  · rintro r rfl
    exact start_local_print_disciplined params cancel_fn wait_fn deps rfl
  · rintro r rfl
    exact start_send_gcode_to_sdcard_disciplined params deps rfl
  · rintro r rfl
    exact start_sdcard_print_disciplined params cancel_fn deps rfl

/-- Callbacks that accept everything, and no local files. -/
def acceptingDeps : PrintFlowDeps where
  files := fun _ _ => none
  upload_file := some fun _ _ _ _ => 0
  send_message := some fun _ _ _ => 0
  update_local_context := none

def jobWithUrl : PrintParams :=
  { taskJob (ascii "A1") (ascii "benchy") with ams_mapping := mappingWithUrl }

def commandWithUrl : Text :=
  build_project_file_command jobWithUrl (resolve_remote_filename (fun _ => none) jobWithUrl)
    (resolve_plate_metadata_path jobWithUrl)

theorem commandWithUrl_urls :
    (parse commandWithUrl).map (fun command => (urls command).length) = some 2 := by
  decide +kernel

/-- The command that is sent has a url that was not asked for. -/
theorem sent_command_has_two_urls :
    ¬ SendsAllowed (fun before dev_id json => ∃ filename remote_filename,
        .upload dev_id filename remote_filename BAMBU_NETWORK_SUCCESS ∈ before ∧
        UrlNames json remote_filename)
      (start_local_print jobWithUrl none none acceptingDeps ⟨[], ⟨fun _ => none, none⟩⟩).2.trace := by
  intro h
  obtain ⟨filename, remote_filename, -, command, hparse, hurls⟩ :=
    h [_, _, _, _] (ascii "A1") commandWithUrl 0 [_] rfl
  have hcount := commandWithUrl_urls
  rw [hparse, Option.map_some, hurls] at hcount
  cases hcount

end bambu_farm_client.print_flow
