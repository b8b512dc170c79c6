-- The print that a status message is about (`local_print_context.cpp`). The slicer takes the
-- id of the subtask out of a status message and asks for the subtask, and gets the plate and
-- the thumbnail of the job.
import BambuFarm.StatusRewrites
import BambuFarm.TunnelRequests

open json runs tables serde_json
open bambu_farm_client.tunnel_requests (reads_integer as_i64_integer InI64)
open bambu_farm_client.print_job bambu_farm_client.local_state
open bambu_farm_client.context_store (Call Order job_context opened storeAfter stepCall)
open bambu_farm_client.local_print_context (Lands activeContext completes_iff_lands idMember
  isPlain_digit lackingIds printObject printObject_first rewrite_status_message)

namespace bambu_farm_client.subtask_info

/-! ## The model -/

/-- The loop over the entries of the hash map. -/
def lookup_subtask_id (contexts : Order) (subtask_id : Text) : Option LocalPrintContext :=
  (contexts.find? fun e => e.2.active && e.2.subtask_id = subtask_id).map (·.2)

/-- What is written behind the pointers of the caller. -/
structure SubtaskInfo where
  task_json : Text
  http_code : Nat
  http_body : Text

def task_json (context : LocalPrintContext) : Text :=
  ascii "\x7b" ++
    ascii "\"content\":\"\x7b\\\"info\\\":\x7b\\\"plate_idx\\\":" ++
      int_text context.plate_index.toInt ++ ascii "\x7d\x7d\"," ++
    ascii "\"context\":\x7b" ++
    ascii "\"plates\":[\x7b" ++
    ascii "\"index\":" ++ int_text context.plate_index.toInt ++ ascii "," ++
    ascii "\"thumbnail\":\x7b\"url\":\"" ++ json_escape context.thumbnail_url ++ ascii "\"\x7d," ++
    ascii "\"filaments\":[]" ++
    ascii "\x7d]" ++
    ascii "\x7d" ++
  ascii "\x7d"

def build_subtask_info (contexts : Order) (subtask_id : Text) : Bool × SubtaskInfo :=
  match lookup_subtask_id contexts subtask_id with
  | none => (false, ⟨[], 404, ascii "\x7b\"error\":\"not_found\"\x7d"⟩)
  | some context => (true, ⟨task_json context, 200, ascii "\x7b\x7d"⟩)

/-- The contexts are looked through twice, each time under the lock. -/
def bambu_network_get_subtask_info (at_build at_lookup : Order) (subtask_id : Text) :
    Int × SubtaskInfo :=
  let info := build_subtask_info at_build subtask_id
  if !info.1 || (lookup_subtask_id at_lookup subtask_id).isNone then (-1, info.2)
  else (0, info.2)

/-! ## What the slicer reads -/

/-- The reply tells the plate and the thumbnail, and the plate once more in a JSON text of its
own. -/
structure Describes (reply : Text) (plate_index : Int) (thumbnail_url : Text) : Prop where
  content : ∃ doc content info, parse reply = some doc ∧
    (get doc (ascii "content")).bind as_str = some content ∧ parse content = some info ∧
    ((get info (ascii "info")).bind fun i => get i (ascii "plate_idx")).bind as_i64 =
      some plate_index
  plate : ∃ doc plate, parse reply = some doc ∧
    ((get doc (ascii "context")).bind fun c => get c (ascii "plates")).bind as_array =
      some [plate] ∧
    (get plate (ascii "index")).bind as_i64 = some plate_index ∧
    ((get plate (ascii "thumbnail")).bind fun t => get t (ascii "url")).bind as_str =
      some thumbnail_url

/-! ## The reply is read back -/

/-- The text that stands in the string of the content. -/
def contentText (n : Int) : Text :=
  objectText [(ascii "info", objectText [(ascii "plate_idx", int_text n)])]

theorem reads_int_text (n : Int) : Reads (int_text n) (.num (int_text n)) := reads_integer n

theorem parse_contentText (n : Int) : parse (contentText n) =
    some (.obj [(ascii "info", .obj [(ascii "plate_idx", .num (int_text n))])]) := by
  have hinner : Reads (objectText [(ascii "plate_idx", int_text n)])
      (.obj [(ascii "plate_idx", .num (int_text n))]) :=
    reads_objectText (.cons (by decide) (reads_int_text n) .nil) (by simp)
  exact parse_objectText (.cons (by decide) hinner .nil) (by simp)

theorem plain_int_text (n : Int) : (int_text n).all isPlain = true := by
  have hall : ∀ m : Nat, (decimal m).all isPlain = true := fun m =>
    List.all_eq_true.mpr fun c hc => isPlain_digit (List.all_eq_true.mp (digits_decimal m) c hc)
  unfold int_text
  split_ifs
  · rw [List.all_cons, hall, Bool.and_true]
    decide
  · exact hall _

/-- The text of the content, as it stands between its quotes. -/
def contentSpelt (n : Int) : Text :=
  ascii "\x7b\\\"info\\\":\x7b\\\"plate_idx\\\":" ++ int_text n ++ ascii "\x7d\x7d"

/-- The text in the string is the text of the content. -/
theorem spells_content (n : Int) : Spells (contentSpelt n) (contentText n) := by
  have hfront : Spells (ascii "\x7b\\\"info\\\":\x7b\\\"plate_idx\\\":")
      (ascii "\x7b\"info\":\x7b\"plate_idx\":") := by
    have hescape : json_escape (ascii "\x7b\"info\":\x7b\"plate_idx\":") =
        ascii "\x7b\\\"info\\\":\x7b\\\"plate_idx\\\":" := by
      decide
    rw [← hescape]
    exact spells_json_escape (by decide)
  have hbehind : Spells (ascii "\x7d\x7d") (ascii "\x7d\x7d") := spells_plain (by decide)
  have hspells := (hfront.append (spells_plain (plain_int_text n))).append hbehind
  have htext : contentText n =
      ascii "\x7b\"info\":\x7b\"plate_idx\":" ++ int_text n ++ ascii "\x7d\x7d" := by
    simp only [contentText, objectText, List.map_cons, List.map_nil, joined, memberText,
      List.append_assoc, List.cons_append, List.nil_append]
    rfl
  rwa [htext]

def plateText (context : LocalPrintContext) : Text :=
  objectText [(ascii "index", int_text context.plate_index.toInt),
    (ascii "thumbnail",
      objectText [(ascii "url", quote :: json_escape context.thumbnail_url ++ [quote])]),
    (ascii "filaments", arrayText [])]

theorem task_json_text (context : LocalPrintContext) : task_json context =
    objectText [(ascii "content", quote :: contentSpelt context.plate_index.toInt ++ [quote]),
      (ascii "context", objectText [(ascii "plates", arrayText [plateText context])])] := by
  simp only [task_json, plateText, contentSpelt, objectText, arrayText, List.map_cons,
    List.map_nil, joined, memberText, List.append_assoc, List.cons_append, List.nil_append]
  rfl

/-- The values of the reply. -/
def plateValue (context : LocalPrintContext) : Value :=
  .obj [(ascii "index", .num (int_text context.plate_index.toInt)),
    (ascii "thumbnail", .obj [(ascii "url", .str context.thumbnail_url)]),
    (ascii "filaments", .arr [])]

theorem parse_task_json {context : LocalPrintContext}
    (h : context.thumbnail_url.all isEscapable = true) : parse (task_json context) =
      some (.obj [(ascii "content", .str (contentText context.plate_index.toInt)),
        (ascii "context", .obj [(ascii "plates", .arr [plateValue context])])]) := by
  have hthumbnail : Members [(ascii "url", quote :: json_escape context.thumbnail_url ++ [quote])]
      [(ascii "url", .str context.thumbnail_url)] :=
    .cons (by decide) (reads_string (spells_json_escape h)) .nil
  have hplate : Whole (plateText context) (plateValue context) :=
    whole_objectText (.cons (by decide) (reads_int_text _) (.cons (by decide)
      (reads_objectText hthumbnail (by simp)) (.cons (by decide)
        (whole_arrayText .nil).toReads .nil)))
  have hplates : Members [(ascii "plates", arrayText [plateText context])]
      [(ascii "plates", .arr [plateValue context])] :=
    .cons (by decide) (whole_arrayText (.cons hplate .nil)).toReads .nil
  rw [task_json_text]
  exact parse_objectText (.cons (by decide) (reads_string (spells_content _)) (.cons (by decide)
    (reads_objectText hplates (by simp)) .nil)) (by simp)

/-- The reply of a context describes its plate. -/
theorem describes {context : LocalPrintContext}
    (h : context.thumbnail_url.all isEscapable = true) :
    Describes (task_json context) context.plate_index.toInt context.thumbnail_url := by
  have hparse := parse_task_json h
  have hindex : as_i64 (.num (int_text context.plate_index.toInt)) =
      some context.plate_index.toInt := by
    have hlow := Int32.le_toInt context.plate_index
    have hhigh := Int32.toInt_lt context.plate_index
    exact as_i64_integer ⟨by omega, by omega⟩
  exact ⟨⟨_, _, _, hparse, rfl, parse_contentText _, hindex⟩, _, _, hparse, rfl, hindex, rfl⟩

/-! ## The subtask of a context -/

/-- The active context of the device, whose id of a subtask no active context of another device
has. -/
structure Alone (contexts : Contexts) (dev_id : Text) (context : LocalPrintContext) : Prop where
  here : contexts dev_id = some context
  active : context.active = true
  alone : ∀ d c, contexts d = some c → c.active = true → c.subtask_id = context.subtask_id →
    d = dev_id

theorem lookup_some {contexts : Contexts} {order : Order} (horder : Lists contexts order)
    {subtask_id : Text} {context : LocalPrintContext}
    (h : lookup_subtask_id order subtask_id = some context) :
    context.active = true ∧ context.subtask_id = subtask_id ∧
      ∃ dev_id, contexts dev_id = some context := by
  obtain ⟨e, hfind, rfl⟩ := Option.map_eq_some_iff.mp h
  have hmatch := List.find?_some hfind
  rw [Bool.and_eq_true, decide_eq_true_eq] at hmatch
  exact ⟨hmatch.1, hmatch.2, e.1, (horder.mem e.1 e.2).mp (List.mem_of_find?_eq_some hfind)⟩

theorem Alone.lookup {contexts : Contexts} {dev_id : Text} {context : LocalPrintContext}
    (h : Alone contexts dev_id context) {order : Order} (horder : Lists contexts order) :
    lookup_subtask_id order context.subtask_id = some context := by
  have hmem : (dev_id, context) ∈ order := (horder.mem dev_id context).mpr h.here
  cases hfound : lookup_subtask_id order context.subtask_id with
  | none =>
    have hnone := List.find?_eq_none.mp (Option.map_eq_none_iff.mp hfound) _ hmem
    simp [h.active] at hnone
  | some found =>
    obtain ⟨hactive, hid, d, hd⟩ := lookup_some horder hfound
    rw [h.alone d found hd hactive hid, h.here, Option.some.injEq] at hd
    rw [hd]

/-! ## The status messages of a job -/

/-- What the rewriting of messages takes of the contexts. -/
def idContexts (contexts : Contexts) : local_print_context.Contexts :=
  fun dev_id => (contexts dev_id).map (·.toLocalPrintContext)

theorem activeContext_idContexts {contexts : Contexts} {dev_id : Text}
    {context : LocalPrintContext} (h : contexts dev_id = some context)
    (hactive : context.active = true) :
    activeContext (idContexts contexts) dev_id = some context.toLocalPrintContext := by
  simp [activeContext, idContexts, h, hactive]

/-- The id of the subtask is the one member of its key that is put in. -/
theorem lookup_subtask {context : local_print_context.LocalPrintContext} {ps qs ps' : List Member}
    (habsent : ascii "subtask_id" ∉ keys ps)
    (h : Gains qs ps' ((lackingIds (some context) ps).map idMember)) :
    ps'.lookup (ascii "subtask_id") = some (.str context.subtask_id) := by
  have hlacking : (ascii "subtask_id", context.subtask_id) ∈ lackingIds (some context) ps := by
    refine List.mem_filter.mpr ⟨?_, decide_eq_true habsent⟩
    simp [local_print_context.ids]
  have hadded := List.mem_map_of_mem (f := idMember) hlacking
  have hkey : ascii "subtask_id" ∈ keys ((lackingIds (some context) ps).map idMember) :=
    mem_keys hadded
  have hmem := (List.mem_filter.mp (h.gained.mem_iff.mpr hadded)).1
  cases hlookup : ps'.lookup (ascii "subtask_id") with
  | none => exact absurd (mem_keys hmem) (lookup_eq_none.mp hlookup)
  | some w =>
    obtain ⟨before, after, rfl, -⟩ := first_of_lookup hlookup
    have hfiltered : (ascii "subtask_id", w) ∈
        (before ++ (ascii "subtask_id", w) :: after).filter
          (fun m => m.1 ∈ keys ((lackingIds (some context) ps).map idMember)) :=
      List.mem_filter.mpr ⟨by simp, decide_eq_true hkey⟩
    obtain ⟨id, hid, heq⟩ := List.mem_map.mp (h.gained.mem_iff.mp hfiltered)
    have hids := (List.mem_filter.mp hid).1
    simp only [idMember, Prod.mk.injEq] at heq
    simp only [Option.elim_some, local_print_context.ids, List.mem_cons, List.not_mem_nil,
      or_false] at hids
    rcases hids with rfl | rfl | rfl | rfl
    · exact absurd heq.1 (by decide : ascii "project_id" ≠ ascii "subtask_id")
    · exact absurd heq.1 (by decide : ascii "profile_id" ≠ ascii "subtask_id")
    · rw [heq.2]
    · exact absurd heq.1 (by decide : ascii "task_id" ≠ ascii "subtask_id")

theorem subtask_of_status {contexts : Contexts} {dev_id : Text} {context : LocalPrintContext}
    (h : contexts dev_id = some context) (hactive : context.active = true) {m : Text} {v : Value}
    {ps : List Member} (hm : parse m = some v) (hprint : printObject v = some ps)
    (habsent : ascii "subtask_id" ∉ keys ps)
    (hlands : Lands (activeContext (idContexts contexts) dev_id) m v) :
    ∃ v' ps', parse (rewrite_status_message (idContexts contexts) dev_id m) = some v' ∧
      printObject v' = some ps' ∧
      ps'.lookup (ascii "subtask_id") = some (.str context.subtask_id) := by
  obtain ⟨v', hv', hcompletes⟩ :=
    (completes_iff_lands (idContexts contexts) dev_id hm).mpr hlands
  rw [activeContext_idContexts h hactive] at hcompletes
  cases hcompletes with
  | other hnone => exact absurd (hnone.symm.trans hprint) (by simp)
  | @print before ps₀ ps' after hfirst hgains =>
    obtain rfl : ps₀ = ps := Option.some.inj ((printObject_first hfirst).symm.trans hprint)
    obtain ⟨qs, -, hgains⟩ := hgains
    exact ⟨_, ps', hv', printObject_first hfirst, lookup_subtask habsent hgains⟩

/-! ## Runs of the store -/

/-- The call changes the context of the device. -/
def About (dev_id : Text) : Call → Prop
  | .update _ params _ _ => params.dev_id = dev_id
  | .clear d _ => d = dev_id

/-- The id of a new subtask is not that of another device. -/
def Fresh (hash : Text → UInt64) (saved file : Option Text) (es : List Call) : Call → Prop
  | .update files params w _ => ∀ d c,
      (storeAfter hash saved file es).contexts d = some c → c.active = true → d ≠ params.dev_id →
      c.subtask_id ≠ (job_context hash params (resolve_remote_filename files params)
        (resolve_plate_metadata_path params) w).subtask_id
  | .clear .. => True

/-- What the contexts are good for on the device of a job. -/
structure Found (contexts : Contexts) (dev_id : Text) (context : LocalPrintContext) : Prop where
  /-- A message that is rewritten where it should be carries the id of the job, unless the
  printer has put an id of its own there. -/
  status : ∀ m v ps, parse m = some v → printObject v = some ps →
    ascii "subtask_id" ∉ keys ps → Lands (activeContext (idContexts contexts) dev_id) m v →
    ∃ v' ps', parse (rewrite_status_message (idContexts contexts) dev_id m) = some v' ∧
      printObject v' = some ps' ∧
      ps'.lookup (ascii "subtask_id") = some (.str context.subtask_id)
  /-- The id leads to the plate and the thumbnail of the job. -/
  info : ∀ at_build at_lookup, Lists contexts at_build → Lists contexts at_lookup →
    context.thumbnail_url.all isEscapable = true →
    ∃ reply, bambu_network_get_subtask_info at_build at_lookup context.subtask_id =
      (0, ⟨reply, 200, ascii "\x7b\x7d"⟩) ∧
      Describes reply context.plate_index.toInt context.thumbnail_url

theorem found_of_alone {contexts : Contexts} {dev_id : Text} {context : LocalPrintContext}
    (h : Alone contexts dev_id context) : Found contexts dev_id context := by
  refine ⟨fun m v ps hm hprint habsent hlands => ?_, fun at_build at_lookup hbuild hlookup hurl => ?_⟩
  · exact subtask_of_status h.here h.active hm hprint habsent hlands
  · refine ⟨task_json context, ?_, describes hurl⟩
    simp only [bambu_network_get_subtask_info, build_subtask_info, h.lookup hbuild,
      h.lookup hlookup, Bool.not_true, Option.isNone_some, Bool.or_self, Bool.false_eq_true,
      if_false]

section run

variable {hash : Text → UInt64} {saved file : Option Text} {es : List Call} {e : Call}

/-- The job is the context of its device, and no other device has its id. -/
theorem alone_of_fresh {files : Files} {params : PrintParams} {w : context_store.Surroundings}
    {order : Order} (h : Fresh hash saved file es (.update files params w order)) :
    Alone (storeAfter hash saved file (es ++ [.update files params w order])).contexts
      params.dev_id (job_context hash params (resolve_remote_filename files params)
        (resolve_plate_metadata_path params) w) := by
  rw [context_store.storeAfter_snoc]
  refine ⟨Function.update_self .., rfl, fun d c hd hactive hid => ?_⟩
  by_contra hne
  change Function.update (storeAfter hash saved file es).contexts params.dev_id (some _) d =
    some c at hd
  rw [Function.update_of_ne hne] at hd
  exact h d c hd hactive hne hid

/-- The calls about other devices leave the context of the device alone. -/
theorem alone_step {dev_id : Text} {context : LocalPrintContext}
    (h : Alone (storeAfter hash saved file es).contexts dev_id context)
    (hfresh : Fresh hash saved file es e) (hother : ¬ About dev_id e) :
    Alone (storeAfter hash saved file (es ++ [e])).contexts dev_id context := by
  rw [context_store.storeAfter_snoc]
  cases e with
  | clear d order =>
    by_cases hd : d = []
    · rwa [stepCall, context_store.LocalPrintContextStore.clear, if_pos hd]
    · rw [stepCall, context_store.LocalPrintContextStore.clear, if_neg hd]
      have hne : dev_id ≠ d := fun heq => hother heq.symm
      refine ⟨(Function.update_of_ne hne ..).trans h.here, h.active, fun d' c hd' => ?_⟩
      change Function.update (storeAfter hash saved file es).contexts d none d' = some c at hd'
      by_cases hsame : d' = d
      · rw [hsame, Function.update_self] at hd'
        cases hd'
      · rw [Function.update_of_ne hsame] at hd'
        exact h.alone d' c hd'
  | update files params w order =>
    have hne : dev_id ≠ params.dev_id := fun heq => hother heq.symm
    refine ⟨(Function.update_of_ne hne ..).trans h.here, h.active, fun d c hd hactive hid => ?_⟩
    change Function.update (storeAfter hash saved file es).contexts params.dev_id (some _) d =
      some c at hd
    by_cases hsame : d = params.dev_id
    · rw [hsame, Function.update_self, Option.some.injEq] at hd
      subst hd
      exact absurd hid.symm (hfresh dev_id context h.here h.active hne)
    · rw [Function.update_of_ne hsame] at hd
      exact h.alone d c hd hactive hid

theorem alone_after {before : List Call} {files : Files} {params : PrintParams}
    {w : context_store.Surroundings} {order : Order}
    (hfresh : Steps (Fresh hash saved file) (before ++ .update files params w order :: es))
    (hother : ∀ e ∈ es, ¬ About params.dev_id e) :
    Alone (storeAfter hash saved file (before ++ .update files params w order :: es)).contexts
      params.dev_id (job_context hash params (resolve_remote_filename files params)
        (resolve_plate_metadata_path params) w) := by
  induction es using List.reverseRecOn with
  | nil => exact alone_of_fresh ((steps_snoc _ _ _).mp hfresh).2
  | append_singleton es e ih =>
    rw [← List.cons_append, ← List.append_assoc] at hfresh ⊢
    rw [steps_snoc] at hfresh
    rw [List.forall_mem_append, List.forall_mem_singleton] at hother
    exact alone_step (ih hfresh.1 hother.1) hfresh.2 hother.2

/-- A run of plain jobs leaves a file that a restart reads as it was meant. -/
theorem durable_of_plain (h : Steps (context_store.Possible hash saved file) es)
    (hplain : Steps (fun _ e => e.Plain) es) : context_store.Durable hash saved file es := by
  induction es using List.reverseRecOn with
  | nil => exact fun hwrites => by simp at hwrites
  | append_singleton es e ih =>
    rw [steps_snoc] at h hplain
    exact (context_store.durable_snoc h.2 (ih h.1 hplain.1)).mpr hplain.2

end run

/-- A job that is the last one of its device is found by its status messages, and so it is after a
restart when the texts of the jobs fit into the file. -/
theorem a_job_is_found_by_its_status (hash : Text → UInt64) (saved file : Option Text)
    (before after : List Call) (files : Files) (params : PrintParams)
    (w : context_store.Surroundings) (order : Order)
    (h : Steps (context_store.Possible hash saved file)
      (before ++ .update files params w order :: after))
    (hfresh : Steps (Fresh hash saved file) (before ++ .update files params w order :: after))
    (hafter : ∀ e ∈ after, ¬ About params.dev_id e) :
    let s := storeAfter hash saved file (before ++ .update files params w order :: after)
    let context := job_context hash params (resolve_remote_filename files params)
      (resolve_plate_metadata_path params) w
    Found s.contexts params.dev_id context ∧
      (Steps (fun _ e => e.Plain) (before ++ .update files params w order :: after) →
        Found (load_local_print_contexts s.file) params.dev_id context) := by
  intro s context
  have hfound := found_of_alone (alone_after hfresh hafter)
  refine ⟨hfound, fun hplain => ?_⟩
  have hfile : load_local_print_contexts s.file = s.contexts :=
    durable_of_plain h hplain ⟨.update files params w order, by simp, trivial⟩
  rwa [hfile]

theorem the_first_job_is_found :
    let s := storeAfter (fun t => t.length.toUInt64) none none
      [context_store.taskCall (ascii "A1") (ascii "benchy")]
    Found s.contexts (ascii "A1") (context_store.taskContext (ascii "A1") (ascii "benchy")) ∧
      Found (load_local_print_contexts s.file) (ascii "A1")
        (context_store.taskContext (ascii "A1") (ascii "benchy")) := by
  have hpossible : Steps (context_store.Possible (fun t => t.length.toUInt64) none none)
      [context_store.taskCall (ascii "A1") (ascii "benchy")] :=
    (steps_snoc _ [] _).mpr ⟨steps_nil _, by decide, Lists.nil.insert _ _⟩
  have hfresh : Steps (Fresh (fun t => t.length.toUInt64) none none)
      [context_store.taskCall (ascii "A1") (ascii "benchy")] :=
    (steps_snoc _ [] _).mpr ⟨steps_nil _, fun d c hd => by cases hd⟩
  have hplain : Steps (fun _ e => e.Plain)
      [context_store.taskCall (ascii "A1") (ascii "benchy")] :=
    (steps_snoc _ [] _).mpr ⟨steps_nil _, by decide +kernel, by decide +kernel,
      by decide +kernel, by decide +kernel⟩
  obtain ⟨hfound, hrestart⟩ := a_job_is_found_by_its_status (fun t => t.length.toUInt64) none none
    [] [] (fun _ => none) (taskJob (ascii "A1") (ascii "benchy")) context_store.noThumbnail
    [(ascii "A1", context_store.taskContext (ascii "A1") (ascii "benchy"))] hpossible
    hfresh (by simp)
  exact ⟨hfound, hrestart hplain⟩

end bambu_farm_client.subtask_info
