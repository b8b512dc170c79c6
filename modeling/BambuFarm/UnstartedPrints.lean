-- What a print that is not started leaves behind (`print_flow.cpp`, with the hook that
-- `api.cpp` gives it). The context of the job is stored between the upload and the
-- command, and is not taken back when the command is not sent or not accepted.
import BambuFarm.PrintFlow

open json
open bambu_farm_client.print_job bambu_farm_client.local_state bambu_farm_client.context_store

namespace bambu_farm_client.print_flow

open Stage

/-! ## The hook and the answers -/

/-- The functions of a flow, with the hook of `bambu_network_start_print`. -/
def with_contexts (hash : Text → UInt64) (w : Surroundings) (order : Order)
    (deps : PrintFlowDeps) : PrintFlowDeps :=
  { deps with
    update_local_context := some fun params remote_filename plate_path store =>
      update_local_print_context hash params remote_filename plate_path w order store }

/-- What the callbacks answer one after another, as long as nobody stops the flow. -/
structure Answers where
  first_check : Bool
  remote_filename : Text
  upload_result : Int
  second_check : Bool
  send_result : Int

def answers (params : PrintParams) (cancel_fn : WasCancelledFn) (deps : PrintFlowDeps) (s : Flow) :
    Answers :=
  let s := s.report_update_status PrintingStageCreate BAMBU_NETWORK_SUCCESS "Preparing print"
  let (first_check, s) := s.is_cancelled cancel_fn
  let remote_filename := resolve_remote_filename (deps.files s.trace) params
  let plate_path := resolve_plate_metadata_path params
  let s := s.report_update_status PrintingStageUpload BAMBU_NETWORK_SUCCESS
    "Uploading to printer"
  let (upload_result, s) := s.upload_file deps params.dev_id params.filename remote_filename
  let (second_check, s) := s.is_cancelled cancel_fn
  let s := s.report_update_status PrintingStageSending BAMBU_NETWORK_SUCCESS
    "Sending print command"
  let json := build_project_file_command params remote_filename plate_path
  let (send_result, _) := s.send_message deps params.dev_id json
  ⟨first_check, remote_filename, upload_result, second_check, send_result⟩

/-! ## A print that is not started -/

/-- No printer has accepted a command. -/
def Unsent (t : History) : Prop := ∀ dev_id json, .send dev_id json BAMBU_NETWORK_SUCCESS ∉ t

/-- A run that fails before a printer has accepted the command leaves the contexts and
their file as they were. -/
def LeavesContextsAlone (run : Int × Flow) (store : LocalPrintContextStore) : Prop :=
  run.1 ≠ BAMBU_NETWORK_SUCCESS → Unsent run.2.trace → run.2.store = store

/-- The context of the job is in the store and in the file before. -/
def AlreadyStored (context : LocalPrintContext) (order : Order) (store : LocalPrintContextStore) :
    Prop :=
  store.contexts context.dev_id = some context ∧
    store.file = some (persist_local_print_contexts order)

theorem update_eq_self_iff (context : LocalPrintContext) (order : Order)
    (store : LocalPrintContextStore) :
    store.update context order = store ↔ AlreadyStored context order store := by
  obtain ⟨contexts, file⟩ := store
  rw [LocalPrintContextStore.update, LocalPrintContextStore.mk.injEq, Function.update_eq_self_iff]
  exact and_congr eq_comm eq_comm

section steps

variable {s : Flow}

theorem unsent_snoc {t : History} (h : Unsent t) {e : Event}
    (he : ∀ dev_id json, e ≠ .send dev_id json BAMBU_NETWORK_SUCCESS) : Unsent (t ++ [e]) := by
  intro dev_id json hmem
  rw [List.mem_append, List.mem_singleton] at hmem
  rcases hmem with hmem | heq
  · exact h dev_id json hmem
  · exact he dev_id json heq.symm

theorem unsent_report (h : Unsent s.trace) (stage : Stage) (code : Int) (message : String) :
    Unsent (s.report_update_status stage code message).trace :=
  unsent_snoc h (by simp)

theorem unsent_is_cancelled (h : Unsent s.trace) (cancel_fn : WasCancelledFn) :
    Unsent (s.is_cancelled cancel_fn).2.trace := by
  cases cancel_fn with
  | none => exact h
  | some f => exact unsent_snoc h (by simp)

theorem unsent_upload_file (h : Unsent s.trace) (deps : PrintFlowDeps)
    (dev_id filename remote_filename : Text) :
    Unsent (s.upload_file deps dev_id filename remote_filename).2.trace := by
  unfold Flow.upload_file
  cases deps.upload_file with
  | none => exact h
  | some f => exact unsent_snoc h (by simp)

theorem unsent_send_message (h : Unsent s.trace) (deps : PrintFlowDeps) {dev_id json : Text}
    (hresult : (s.send_message deps dev_id json).1 ≠ BAMBU_NETWORK_SUCCESS) :
    Unsent (s.send_message deps dev_id json).2.trace := by
  unfold Flow.send_message at hresult ⊢
  cases hdeps : deps.send_message with
  | none => exact h
  | some f =>
    rw [hdeps] at hresult
    exact unsent_snoc h fun d j heq => hresult (Event.send.inj heq).2.2

theorem sent_send_message (s : Flow) (deps : PrintFlowDeps) {dev_id json : Text}
    (hresult : (s.send_message deps dev_id json).1 = BAMBU_NETWORK_SUCCESS) :
    .send dev_id json BAMBU_NETWORK_SUCCESS ∈ (s.send_message deps dev_id json).2.trace := by
  unfold Flow.send_message at hresult ⊢
  cases hdeps : deps.send_message with
  | none =>
    rw [hdeps] at hresult
    cases hresult
  | some f =>
    rw [hdeps] at hresult
    refine List.mem_append_right _ (List.mem_singleton.mpr ?_)
    rw [← hresult]

theorem mem_wait_for_printer {e : Event} (h : e ∈ s.trace) (wait_fn : OnWaitFn) :
    e ∈ (wait_for_printer wait_fn s).2.trace := by
  unfold wait_for_printer
  cases wait_fn with
  | none => exact List.mem_append_left _ h
  | some f =>
    have hwait := List.mem_append_left [.wait PrintingStageWaitPrinter (ascii "\x7b\x7d")
      (f (s.trace ++ [.report PrintingStageWaitPrinter BAMBU_NETWORK_SUCCESS "Waiting for printer"])
        PrintingStageWaitPrinter (ascii "\x7b\x7d"))]
      (List.mem_append_left [.report PrintingStageWaitPrinter BAMBU_NETWORK_SUCCESS
        "Waiting for printer"] h)
    dsimp only
    split_ifs
    · exact List.mem_append_left _ hwait
    · exact List.mem_append_left _ hwait

/-- The callbacks do not see the contexts. -/
theorem is_cancelled_with_store (s : Flow) (cancel_fn : WasCancelledFn)
    (store : LocalPrintContextStore) :
    Flow.is_cancelled ⟨s.trace, store⟩ cancel_fn = ((s.is_cancelled cancel_fn).1,
      ⟨(s.is_cancelled cancel_fn).2.trace, store⟩) := by
  cases cancel_fn with
  | none => rfl
  | some f => rfl

theorem send_message_with_store (s : Flow) (deps : PrintFlowDeps) (dev_id json : Text)
    (store : LocalPrintContextStore) :
    Flow.send_message ⟨s.trace, store⟩ deps dev_id json =
      ((s.send_message deps dev_id json).1, ⟨(s.send_message deps dev_id json).2.trace, store⟩) := by
  unfold Flow.send_message
  cases deps.send_message with
  | none => rfl
  | some f => rfl

end steps

/-! ## The flow with the hook -/

section hook

variable (hash : Text → UInt64) (w : Surroundings) (order : Order)

/-- Behind the hook, the flow is accepted or keeps the store that the hook left. -/
theorem send_print_command_cases {s : Flow} (h : Unsent s.trace) (params : PrintParams)
    (cancel_fn : WasCancelledFn) (wait_fn : OnWaitFn) (deps : PrintFlowDeps)
    (remote_filename plate_path : Text) (store : LocalPrintContextStore) :
    let c := s.is_cancelled cancel_fn
    let send_result := ((c.2.report_update_status PrintingStageSending BAMBU_NETWORK_SUCCESS
      "Sending print command").send_message deps params.dev_id
      (build_project_file_command params remote_filename plate_path)).1
    let r := send_print_command params cancel_fn wait_fn deps remote_filename plate_path
      ⟨s.trace, store⟩
    (c.1 = false ∧ send_result = BAMBU_NETWORK_SUCCESS ∧ ¬ Unsent r.2.trace) ∨
    ((c.1 = true ∨ send_result ≠ BAMBU_NETWORK_SUCCESS) ∧
      r.1 ≠ BAMBU_NETWORK_SUCCESS ∧ Unsent r.2.trace ∧ r.2.store = store) := by
  unfold send_print_command
  rw [is_cancelled_with_store s cancel_fn store]
  have h1 := unsent_is_cancelled h cancel_fn
  generalize s.is_cancelled cancel_fn = c at h1 ⊢
  dsimp only
  by_cases hcheck : c.1 = true
  · rw [if_pos hcheck]
    refine .inr ⟨.inl hcheck, ?_, unsent_snoc h1 (by simp), rfl⟩
    exact (by decide : BAMBU_NETWORK_ERR_CANCELED ≠ BAMBU_NETWORK_SUCCESS)
  rw [if_neg hcheck]
  have h2 := unsent_report h1 PrintingStageSending BAMBU_NETWORK_SUCCESS "Sending print command"
  rw [show Flow.report_update_status ⟨c.2.trace, store⟩ PrintingStageSending BAMBU_NETWORK_SUCCESS
    "Sending print command" = ⟨(c.2.report_update_status PrintingStageSending
      BAMBU_NETWORK_SUCCESS "Sending print command").trace, store⟩ from rfl,
    send_message_with_store _ deps _ _ store]
  generalize c.2.report_update_status PrintingStageSending _ _ = s2 at h2 ⊢
  generalize build_project_file_command params remote_filename plate_path = json
  by_cases hsend : (s2.send_message deps params.dev_id json).1 ≠ BAMBU_NETWORK_SUCCESS
  · rw [if_pos hsend]
    refine .inr ⟨.inr hsend, ?_, unsent_snoc (unsent_send_message h2 deps hsend) (by simp), rfl⟩
    exact (by decide : BAMBU_NETWORK_ERR_SEND_MSG_FAILED ≠ BAMBU_NETWORK_SUCCESS)
  · rw [if_neg hsend]
    have hsent : .send params.dev_id json BAMBU_NETWORK_SUCCESS ∈
        (⟨(s2.send_message deps params.dev_id json).2.trace, store⟩ : Flow).trace :=
      sent_send_message s2 deps (not_not.mp hsend)
    refine .inl ⟨by simpa using hcheck, not_not.mp hsend, fun hunsent => ?_⟩
    exact hunsent _ _ (mem_wait_for_printer hsent wait_fn)

/-- The flow does what the answers make it do. -/
theorem start_local_print_cases (params : PrintParams) (cancel_fn : WasCancelledFn)
    (wait_fn : OnWaitFn) (deps : PrintFlowDeps) (store : LocalPrintContextStore) (a : Answers)
    (ha : answers params cancel_fn deps ⟨[], store⟩ = a) (r : Int × Flow)
    (hr : start_local_print params cancel_fn wait_fn (with_contexts hash w order deps)
      ⟨[], store⟩ = r) :
    (a.first_check = true ∧ r.2.store = store) ∨
    (a.upload_result ≠ BAMBU_NETWORK_SUCCESS ∧ r.2.store = store) ∨
    (a.second_check = false ∧ a.send_result = BAMBU_NETWORK_SUCCESS ∧ ¬ Unsent r.2.trace) ∨
    (a.first_check = false ∧ a.upload_result = BAMBU_NETWORK_SUCCESS ∧
      (a.second_check = true ∨ a.send_result ≠ BAMBU_NETWORK_SUCCESS) ∧
      r.1 ≠ BAMBU_NETWORK_SUCCESS ∧ Unsent r.2.trace ∧
      r.2.store = store.update (job_context hash params a.remote_filename
        (resolve_plate_metadata_path params) w) order) := by
  subst ha hr
  unfold start_local_print answers
  dsimp only
  have h0 : Unsent (Flow.report_update_status ⟨[], store⟩ PrintingStageCreate
      BAMBU_NETWORK_SUCCESS "Preparing print").trace := unsent_report (fun _ _ => by simp) _ _ _
  have hs0 : (Flow.report_update_status ⟨[], store⟩ PrintingStageCreate
      BAMBU_NETWORK_SUCCESS "Preparing print").store = store := rfl
  generalize Flow.report_update_status ⟨[], store⟩ PrintingStageCreate _ _ = s0 at h0 hs0 ⊢
  by_cases hcheck : (s0.is_cancelled cancel_fn).1 = true
  · rw [if_pos hcheck]
    exact .inl ⟨hcheck, (is_cancelled_store s0 cancel_fn).trans hs0⟩
  rw [if_neg hcheck]
  have h1 := unsent_report (unsent_is_cancelled h0 cancel_fn) PrintingStageUpload
    BAMBU_NETWORK_SUCCESS "Uploading to printer"
  have hs1 : ((s0.is_cancelled cancel_fn).2.report_update_status PrintingStageUpload
      BAMBU_NETWORK_SUCCESS "Uploading to printer").store = store :=
    (is_cancelled_store s0 cancel_fn).trans hs0
  rw [show (with_contexts hash w order deps).files = deps.files from rfl]
  generalize resolve_remote_filename (deps.files _) params = remote_filename
  generalize (s0.is_cancelled cancel_fn).2.report_update_status PrintingStageUpload _ _ = s1
    at h1 hs1 ⊢
  rw [show s1.upload_file (with_contexts hash w order deps) params.dev_id params.filename
    remote_filename = s1.upload_file deps params.dev_id params.filename remote_filename from rfl]
  have h2 := unsent_upload_file h1 deps params.dev_id params.filename remote_filename
  have hs2 := (upload_file_store s1 deps params.dev_id params.filename remote_filename).trans hs1
  generalize s1.upload_file deps params.dev_id params.filename remote_filename = u at h2 hs2 ⊢
  by_cases hupload : u.1 ≠ BAMBU_NETWORK_SUCCESS
  · rw [if_pos hupload]
    exact .inr (.inl ⟨hupload, hs2⟩)
  -- From here on the flow carries the new store, which no callback sees.
  have hupdate : u.2.update_local_context (with_contexts hash w order deps) params remote_filename
      (resolve_plate_metadata_path params) = ⟨u.2.trace, store.update (job_context hash
        params remote_filename (resolve_plate_metadata_path params) w) order⟩ := by
    rw [← hs2]
    rfl
  rw [if_neg hupload, hupdate]
  obtain hsent | hstopped := send_print_command_cases h2 params cancel_fn wait_fn
    (with_contexts hash w order deps) remote_filename (resolve_plate_metadata_path params)
    (store.update (job_context hash params remote_filename (resolve_plate_metadata_path params) w)
      order)
  · exact .inr (.inr (.inl hsent))
  · exact .inr (.inr (.inr ⟨by simpa using hcheck, not_not.mp hupload, hstopped⟩))

/-- The flow stops before the hook, is accepted, or stores what is stored. -/
def Harmless (params : PrintParams) (store : LocalPrintContextStore) (a : Answers) : Prop :=
  a.first_check = true ∨ a.upload_result ≠ BAMBU_NETWORK_SUCCESS ∨
    (a.second_check = false ∧ a.send_result = BAMBU_NETWORK_SUCCESS) ∨
    AlreadyStored (job_context hash params a.remote_filename (resolve_plate_metadata_path params) w)
      order store

theorem unstarted_print_leaves_contexts_alone_iff (params : PrintParams)
    (cancel_fn : WasCancelledFn) (wait_fn : OnWaitFn) (deps : PrintFlowDeps)
    (store : LocalPrintContextStore) :
    LeavesContextsAlone
        (start_local_print params cancel_fn wait_fn (with_contexts hash w order deps) ⟨[], store⟩)
        store ↔
      Harmless hash w order params store (answers params cancel_fn deps ⟨[], store⟩) := by
  generalize ha : answers params cancel_fn deps ⟨[], store⟩ = a
  generalize hr : start_local_print params cancel_fn wait_fn _ _ = r
  obtain ⟨hfirst, hstore⟩ | ⟨hupload, hstore⟩ | ⟨hsecond, hsend, hsent⟩ |
      ⟨hfirst, hupload, hstop, hresult, hunsent, hstore⟩ :=
    start_local_print_cases hash w order params cancel_fn wait_fn deps store a ha r hr
  · exact iff_of_true (fun _ _ => hstore) (.inl hfirst)
  · exact iff_of_true (fun _ _ => hstore) (.inr (.inl hupload))
  · exact iff_of_true (fun _ h => absurd h hsent) (.inr (.inr (.inl ⟨hsecond, hsend⟩)))
  · have hkept : LeavesContextsAlone r store ↔ r.2.store = store :=
      ⟨fun h => h hresult hunsent, fun h _ _ => h⟩
    rw [hkept, hstore, update_eq_self_iff, Harmless, hfirst]
    have hstopped : ¬ (a.second_check = false ∧ a.send_result = BAMBU_NETWORK_SUCCESS) := by
      rintro ⟨hsecond, hsend⟩
      rcases hstop with h | h
      · rw [hsecond] at h
        cases h
      · exact h hsend
    simp only [Bool.false_eq_true, hupload, ne_eq, not_true_eq_false, hstopped, false_or]

end hook

/-- A user who cancels as soon as the file is on the printer. -/
def cancelsBehindUpload : WasCancelledFn := some fun before => before.any isUpload

/-- The store that a first job has left behind. -/
def storeWithJob : LocalPrintContextStore :=
  (⟨fun _ => none, none⟩ : LocalPrintContextStore).update (taskContext (ascii "A1") (ascii "benchy"))
    [(ascii "A1", taskContext (ascii "A1") (ascii "benchy"))]

/-- A second job, cancelled behind its upload, replaces the context of the first. -/
theorem cancelled_print_replaces_the_context :
    ¬ LeavesContextsAlone (start_local_print (taskJob (ascii "A1") (ascii "cube"))
      cancelsBehindUpload none (with_contexts (fun t => t.length.toUInt64) noThumbnail
        [(ascii "A1", taskContext (ascii "A1") (ascii "cube"))] acceptingDeps) ⟨[], storeWithJob⟩)
      storeWithJob := by
  intro h
  obtain ⟨hfirst, -⟩ | ⟨hupload, -⟩ | ⟨hsecond, -⟩ | ⟨-, -, -, hresult, hunsent, -⟩ :=
    start_local_print_cases (fun t => t.length.toUInt64) noThumbnail
      [(ascii "A1", taskContext (ascii "A1") (ascii "cube"))] (taskJob (ascii "A1") (ascii "cube"))
      cancelsBehindUpload none acceptingDeps storeWithJob _ rfl _ rfl
  · exact absurd hfirst (by decide)
  · exact absurd hupload (by decide)
  · exact absurd hsecond (by decide)
  · have hname := congrArg (fun s => (s.contexts (ascii "A1")).map (·.remote_filename))
      (h hresult hunsent)
    exact absurd hname (by decide +kernel)

end bambu_farm_client.print_flow
