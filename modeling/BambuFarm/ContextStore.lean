-- The store of the print contexts (`local_print_context.cpp`) and the context of
-- a new job (`api.cpp`). A restart shows the same contexts as long as no text of
-- them has a tab or a newline in it.
import BambuFarm.LocalState

open json tables runs
open bambu_farm_client.print_job bambu_farm_client.local_state

namespace bambu_farm_client.context_store

/-! ## The store -/

/-- The contexts in memory and the content of the state file. -/
structure LocalPrintContextStore where
  contexts : Contexts
  file : Option Text

/-- The entries of a map, as the hash map lists them. -/
abbrev Order := List (Text × LocalPrintContext)

namespace LocalPrintContextStore

variable (s : LocalPrintContextStore)

/-- The directory that is loaded has the file `saved`. -/
def load (saved : Option Text) : LocalPrintContextStore :=
  { s with contexts := load_local_print_contexts saved }

def clear (dev_id : Text) (order : Order) : LocalPrintContextStore :=
  if dev_id = [] then s
  else { contexts := Function.update s.contexts dev_id none
         file := some (persist_local_print_contexts order) }

def update (context : LocalPrintContext) (order : Order) : LocalPrintContextStore :=
  { contexts := Function.update s.contexts context.dev_id (some context)
    file := some (persist_local_print_contexts order) }

end LocalPrintContextStore

/-! ## The context of a job -/

/-- What a job reads besides its parameters: the thumbnail that was extracted, and the
clock, once for each id. -/
structure Surroundings where
  thumbnail_url : Text
  project_time : Int64
  profile_time : Int64
  subtask_time : Int64

section ids

variable (hash : Text → UInt64)

def synthetic_local_id (pre : String) (dev_id remote_filename : Text) (now : Int64) : Text :=
  ascii pre ++ ascii "-" ++ decimal (hash
    (dev_id ++ ascii "|" ++ remote_filename ++ ascii "|" ++ int_text now.toInt)).toNat

/-- The context that `update_local_print_context` hands to the store. -/
def job_context (params : PrintParams) (remote_filename plate_path : Text) (w : Surroundings) :
    LocalPrintContext where
  dev_id := params.dev_id
  project_id := synthetic_local_id hash "local-project" params.dev_id remote_filename w.project_time
  profile_id := synthetic_local_id hash "local-profile" params.dev_id remote_filename w.profile_time
  subtask_id := synthetic_local_id hash "local-subtask" params.dev_id remote_filename w.subtask_time
  task_id := synthetic_local_id hash "local-subtask" params.dev_id remote_filename w.subtask_time
  remote_filename := remote_filename
  plate_path := plate_path
  plate_index := if params.plate_index > 0 then params.plate_index - 1 else 0
  thumbnail_url := w.thumbnail_url
  active := true

def update_local_print_context (params : PrintParams) (remote_filename plate_path : Text)
    (w : Surroundings) (order : Order) (s : LocalPrintContextStore) : LocalPrintContextStore :=
  s.update (job_context hash params remote_filename plate_path w) order

end ids

/-! ## Runs -/

/-- A call of the store. Each job names its file on the printer and its plate anew. -/
inductive Call
  | update (files : Files) (params : PrintParams) (w : Surroundings) (order : Order)
  | clear (dev_id : Text) (order : Order)

/-- The call writes the file. -/
def Call.Writes : Call → Prop
  | .update .. => True
  | .clear dev_id _ => dev_id ≠ []

/-- The texts that a job brings into its context have neither a tab nor a newline. -/
structure PlainJob (files : Files) (params : PrintParams) (w : Surroundings) : Prop where
  dev_id : Plain params.dev_id
  remote_filename : Plain (resolve_remote_filename files params)
  plate_path : Plain (resolve_plate_metadata_path params)
  thumbnail_url : Plain w.thumbnail_url

def Call.Plain : Call → Prop
  | .update files params w _ => PlainJob files params w
  | .clear .. => True

section run

variable (hash : Text → UInt64)

def stepCall (s : LocalPrintContextStore) : Call → LocalPrintContextStore
  | .update files params w order =>
    update_local_print_context hash params (resolve_remote_filename files params)
      (resolve_plate_metadata_path params) w order s
  | .clear dev_id order => s.clear dev_id order

/-- A store that has loaded some file, over a file that may be another one. -/
def opened (saved file : Option Text) : LocalPrintContextStore :=
  LocalPrintContextStore.load { contexts := fun _ => none, file := file } saved

variable (saved file : Option Text)

def storeAfter (es : List Call) : LocalPrintContextStore :=
  after (stepCall hash) (opened saved file) es

/-- A job has a device, and a file that is written lists the contexts of the store. -/
def Possible (es : List Call) : Call → Prop
  | .update files params w order => params.dev_id ≠ [] ∧
      Lists (stepCall hash (storeAfter hash saved file es) (.update files params w order)).contexts
        order
  | .clear dev_id order => dev_id ≠ [] →
      Lists (stepCall hash (storeAfter hash saved file es) (.clear dev_id order)).contexts order

/-- A restart finds the contexts of the store in the file that was written last. -/
def Durable (es : List Call) : Prop :=
  (∃ e ∈ es, e.Writes) → load_local_print_contexts (storeAfter hash saved file es).file =
    (storeAfter hash saved file es).contexts

end run

/-! ## The contexts of jobs -/

/-- An id is a name and a number. -/
theorem plain_synthetic_local_id {pre : String} (hpre : local_state.Plain (ascii pre))
    (hash : Text → UInt64) (dev_id remote_filename : Text) (now : Int64) :
    local_state.Plain (synthetic_local_id hash pre dev_id remote_filename now) := by
  exact plain_append (plain_append hpre (by decide)) (plain_decimal _)

theorem lasting_job_context (hash : Text → UInt64) {files : Files} {params : PrintParams}
    {w : Surroundings} (hdev : params.dev_id ≠ []) :
    Lasting params.dev_id (job_context hash params (resolve_remote_filename files params)
      (resolve_plate_metadata_path params) w) ↔ PlainJob files params w := by
  constructor
  · intro h
    have hplain := h.plain
    simp only [texts, job_context, List.forall_mem_cons, List.not_mem_nil, false_implies,
      implies_true, and_true] at hplain
    obtain ⟨hid, -, -, -, -, hremote, hplate, hthumbnail⟩ := hplain
    exact ⟨hid, hremote, hplate, hthumbnail⟩
  · intro h
    refine ⟨hdev, rfl, rfl, ?_⟩
    simp only [texts, job_context, List.forall_mem_cons, List.not_mem_nil, false_implies,
      implies_true, and_true]
    have hsubtask : local_state.Plain (synthetic_local_id hash "local-subtask" params.dev_id
        (resolve_remote_filename files params) w.subtask_time) :=
      plain_synthetic_local_id (by decide) _ _ _ _
    exact ⟨h.dev_id, plain_synthetic_local_id (by decide) _ _ _ _,
      plain_synthetic_local_id (by decide) _ _ _ _, hsubtask, hsubtask, h.remote_filename,
      h.plate_path, h.thumbnail_url⟩

/-! ## Durable stores -/

theorem lasting_update {contexts : Contexts} (h : AllLasting contexts) {dev_id : Text}
    {context : Option LocalPrintContext}
    (hcontext : ∀ c, context = some c → Lasting dev_id c) :
    AllLasting (Function.update contexts dev_id context) := by
  intro d c hc
  by_cases hd : d = dev_id
  · subst hd
    rw [Function.update_self] at hc
    exact hcontext c hc
  · rw [Function.update_of_ne hd] at hc
    exact h d c hc

section run

variable {hash : Text → UInt64} {saved file : Option Text} {es : List Call} {e : Call}

theorem storeAfter_snoc : storeAfter hash saved file (es ++ [e]) =
    stepCall hash (storeAfter hash saved file es) e :=
  after_snoc _ _ _ _

/-- A call that does not write leaves the store alone. -/
theorem stepCall_of_not_writes {s : LocalPrintContextStore} (h : ¬ e.Writes) :
    stepCall hash s e = s := by
  cases e with
  | update files params w order => exact absurd trivial h
  | clear dev_id order =>
    rw [stepCall, LocalPrintContextStore.clear, if_pos (not_not.mp h)]

theorem storeAfter_of_no_writes (h : ¬ ∃ e ∈ es, e.Writes) :
    storeAfter hash saved file es = opened saved file := by
  induction es using List.reverseRecOn with
  | nil => rfl
  | append_singleton es e ih =>
    simp only [List.mem_append, List.mem_singleton, not_exists, not_and] at h ih
    rw [storeAfter_snoc, stepCall_of_not_writes (h e (.inr rfl)),
      ih fun e' he' => h e' (.inl he')]

/-- What a durable store holds was read from a file, or could be. -/
theorem lasting_of_durable (h : Durable hash saved file es) :
    AllLasting (storeAfter hash saved file es).contexts := by
  by_cases hwrites : ∃ e ∈ es, e.Writes
  · rw [← h hwrites]
    exact load_lasting _
  · rw [storeAfter_of_no_writes hwrites]
    exact load_lasting _

theorem durable_of_writes (h : e.Writes) : Durable hash saved file (es ++ [e]) ↔
    load_local_print_contexts (stepCall hash (storeAfter hash saved file es) e).file =
      (stepCall hash (storeAfter hash saved file es) e).contexts := by
  unfold Durable
  rw [storeAfter_snoc]
  exact ⟨fun hd => hd ⟨e, by simp, h⟩, fun hd _ => hd⟩

theorem durable_snoc (hpossible : Possible hash saved file es e)
    (h : Durable hash saved file es) : Durable hash saved file (es ++ [e]) ↔ e.Plain := by
  have hlasting := lasting_of_durable h
  cases e with
  | update files params w order =>
    obtain ⟨hdev, horder⟩ := hpossible
    rw [durable_of_writes (e := .update files params w order) trivial, Call.Plain, ← lasting_job_context hash hdev]
    constructor
    · intro hload
      apply load_lasting (stepCall hash (storeAfter hash saved file es)
        (.update files params w order)).file
      rw [hload]
      exact Function.update_self ..
    · intro hjob
      refine load_persist (lasting_update hlasting fun c hc => ?_) horder
      rw [← Option.some.inj hc]
      exact hjob
  | clear dev_id order =>
    refine iff_of_true ?_ trivial
    by_cases hdev : dev_id = []
    · intro hwrites
      rw [storeAfter_snoc, stepCall_of_not_writes (by simpa [Call.Writes] using hdev)]
      apply h
      simpa [Call.Writes, hdev] using hwrites
    · rw [durable_of_writes (e := .clear dev_id order) hdev]
      have horder := hpossible hdev
      have hclear : stepCall hash (storeAfter hash saved file es) (.clear dev_id order) =
          { contexts := Function.update (storeAfter hash saved file es).contexts dev_id none
            file := some (persist_local_print_contexts order) } := if_neg hdev
      rw [hclear] at horder ⊢
      exact load_persist (lasting_update hlasting (by simp)) horder

end run

theorem contexts_survive_a_restart_iff (hash : Text → UInt64) (saved file : Option Text)
    (es : List Call) (h : Steps (Possible hash saved file) es) :
    Always (Durable hash saved file) es ↔ Steps (fun _ e => e.Plain) es := by
  refine always_iff_steps (fun hwrites => ?_) (fun es e _ hpossible hes => ?_) h
  · simp at hwrites
  · exact durable_snoc hpossible hes.last

def noThumbnail : Surroundings := ⟨[], 1, 2, 3⟩

/-- The context of a job that is named by its task. -/
def taskContext (dev_id task_name : Text) : LocalPrintContext :=
  job_context (fun t => t.length.toUInt64) (taskJob dev_id task_name)
    (resolve_remote_filename (fun _ => none) (taskJob dev_id task_name))
    (resolve_plate_metadata_path (taskJob dev_id task_name)) noThumbnail

/-- The call for a job that is the first one of the store. -/
def taskCall (dev_id task_name : Text) : Call :=
  .update (fun _ => none) (taskJob dev_id task_name) noThumbnail
    [(dev_id, taskContext dev_id task_name)]

/-- The first job, and then none. -/
theorem contexts_survive_job_and_clear :
    Always (Durable (fun t => t.length.toUInt64) none none)
      [taskCall (ascii "A1") (ascii "benchy"), .clear (ascii "A1") []] := by
  have hpossible : Steps (Possible (fun t => t.length.toUInt64) none none)
      [taskCall (ascii "A1") (ascii "benchy"), .clear (ascii "A1") []] := by
    rw [show ∀ a b : Call, [a, b] = ([] ++ [a]) ++ [b] from fun _ _ => rfl, steps_snoc, steps_snoc]
    refine ⟨⟨steps_nil _, by decide, ?_⟩, fun _ => ?_⟩
    · exact Lists.nil.insert _ _
    · exact (Lists.nil.insert (ascii "A1") _).erase (ascii "A1")
  rw [contexts_survive_a_restart_iff _ _ _ _ hpossible]
  intro i hi
  simp at hi
  have : i = 0 ∨ i = 1 := by omega
  rcases this with rfl | rfl
  · exact ⟨by decide +kernel, by decide +kernel, by decide +kernel, by decide +kernel⟩
  · trivial

/-- A tab in the name of a task is a field more in the line of its context. -/
theorem tabbed_task_is_lost_at_a_restart :
    Steps (Possible (fun t => t.length.toUInt64) none none)
      [taskCall (ascii "A1") (ascii "ben\tchy")] ∧
    ¬ Always (Durable (fun t => t.length.toUInt64) none none)
      [taskCall (ascii "A1") (ascii "ben\tchy")] := by
  have hpossible : Possible (fun t => t.length.toUInt64) none none []
      (taskCall (ascii "A1") (ascii "ben\tchy")) := ⟨by decide, Lists.nil.insert _ _⟩
  refine ⟨?_, fun h => ?_⟩
  · exact (steps_snoc _ [] _).mpr ⟨steps_nil _, hpossible⟩
  · have hplain := (durable_snoc hpossible fun hw => by simp at hw).mp h.last
    exact absurd hplain.remote_filename (by decide +kernel)

end bambu_farm_client.context_store
