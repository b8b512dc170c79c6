-- The command that starts a print (`print_job.cpp`), put together as a text. Names are
-- escaped, and what looks like JSON in the mapping of the filaments is put in as it is.
import BambuFarm.JsonGrowth
import BambuFarm.JsonRead
import BambuFarm.RemoteNames

open json

namespace bambu_farm_client.print_job

/-! ## The text -/

def looks_like_json_value (value : Text) : Bool :=
  let trimmed := trim_ascii value
  match trimmed with
  | [] => false
  | first :: _ =>
    if first = lbracket || first = lbrace || first = quote || first = 0x2D ||
        (0x30 ≤ first && first ≤ 0x39) then true
    else trimmed = ascii "true" || trimmed = ascii "false" || trimmed = ascii "null"

/-- The text of a value of `append_json_field`. -/
def field_text (value : Text) (raw_json : Bool) : Text :=
  if raw_json then value else ascii "\"" ++ json_escape value ++ ascii "\""

def append_json_field (json key value : Text) (raw_json : Bool) : Text :=
  json ++ (ascii ",\"" ++ key ++ ascii "\":") ++ field_text value raw_json

def bool_text (b : Bool) : Text := if b then ascii "true" else ascii "false"

/-- The number of the plate, counted from 0. -/
def plate_idx (params : PrintParams) : Nat :=
  (if params.plate_index > 0 then params.plate_index - 1 else 0).toInt.toNat

/-- A field of the filaments is left out when it is blank. -/
def append_ams_field (json key value : Text) : Text :=
  if trim_ascii value ≠ [] then
    append_json_field json key (trim_ascii value) (looks_like_json_value value)
  else json

def build_project_file_command (params : PrintParams) (remote_filename plate_path : Text) : Text :=
  let display_name := resolve_display_subtask_name params remote_filename
  let json :=
    ascii "\x7b\"print\":\x7b\"sequence_id\":0,\"command\":\"project_file\",\"param\":\"" ++
      json_escape plate_path ++
    ascii "\",\"subtask_name\":\"" ++ json_escape display_name ++
    ascii "\",\"url\":\"ftp://" ++ json_escape remote_filename ++
    ascii "\",\"plate_idx\":" ++ decimal (plate_idx params) ++
    ascii ",\"timelapse\":" ++ bool_text params.task_record_timelapse ++
    ascii ",\"bed_leveling\":" ++ bool_text params.task_bed_leveling ++
    ascii ",\"flow_cali\":" ++ bool_text params.task_flow_cali ++
    ascii ",\"vibration_cali\":" ++ bool_text params.task_vibration_cali ++
    ascii ",\"layer_inspect\":" ++ bool_text params.task_layer_inspect ++
    ascii ",\"use_ams\":" ++ bool_text params.task_use_ams
  let json := append_ams_field json (ascii "ams_mapping") params.ams_mapping
  let json := append_ams_field json (ascii "ams_mapping2") params.ams_mapping2
  let json := append_ams_field json (ascii "ams_mapping_info") params.ams_mapping_info
  json ++ ascii "\x7d\x7d"

/-! ## What it says -/

/-- The fields of the filaments that are not blank, by key. -/
def amsFields (params : PrintParams) : List (Text × Text) :=
  [(ascii "ams_mapping", params.ams_mapping), (ascii "ams_mapping2", params.ams_mapping2),
    (ascii "ams_mapping_info", params.ams_mapping_info)].filter fun m => trim_ascii m.2 ≠ []

def commandKeys : List Text :=
  [ascii "sequence_id", ascii "command", ascii "param", ascii "subtask_name", ascii "url",
    ascii "plate_idx", ascii "timelapse", ascii "bed_leveling", ascii "flow_cali",
    ascii "vibration_cali", ascii "layer_inspect", ascii "use_ams"]

/-- The members of the command say what was asked, and there are no others. -/
structure Says (params : PrintParams) (remote_filename plate_path : Text) (ms : List Member) :
    Prop where
  keys : keys ms = commandKeys ++ (amsFields params).map (·.1)
  nodup : (json.keys ms).Nodup
  command : ms.lookup (ascii "command") = some (.str (ascii "project_file"))
  param : ms.lookup (ascii "param") = some (.str plate_path)
  subtask_name : ms.lookup (ascii "subtask_name") =
    some (.str (resolve_display_subtask_name params remote_filename))
  url : ms.lookup (ascii "url") = some (.str (ascii "ftp://" ++ remote_filename))
  plate_idx : ms.lookup (ascii "plate_idx") = some (.num (decimal (plate_idx params)))
  timelapse : ms.lookup (ascii "timelapse") = some (.bool params.task_record_timelapse)
  bed_leveling : ms.lookup (ascii "bed_leveling") = some (.bool params.task_bed_leveling)
  flow_cali : ms.lookup (ascii "flow_cali") = some (.bool params.task_flow_cali)
  vibration_cali : ms.lookup (ascii "vibration_cali") = some (.bool params.task_vibration_cali)
  layer_inspect : ms.lookup (ascii "layer_inspect") = some (.bool params.task_layer_inspect)
  use_ams : ms.lookup (ascii "use_ams") = some (.bool params.task_use_ams)
  /-- A field of the filaments has the value of its text, or is its text. -/
  ams : ∀ m ∈ amsFields params, ∃ v, ms.lookup m.1 = some v ∧
    (parse (trim_ascii m.2) = some v ∨ v = .str (trim_ascii m.2))

/-- The command is an object that says what was asked. -/
def SaysWhatWasAsked (params : PrintParams) (remote_filename plate_path : Text) : Prop :=
  ∃ ms, parse (build_project_file_command params remote_filename plate_path) =
    some (.obj [(ascii "print", .obj ms)]) ∧ Says params remote_filename plate_path ms

/-- A field of the filaments that can stand in the command. -/
def FieldFits (value : Text) : Prop :=
  if looks_like_json_value value = true then (parse (trim_ascii value)).isSome = true
  else (trim_ascii value).all isEscapable = true

instance (value : Text) : Decidable (FieldFits value) :=
  inferInstanceAs (Decidable (if looks_like_json_value value = true
    then (parse (trim_ascii value)).isSome = true
    else (trim_ascii value).all isEscapable = true))

/-- Every text can stand in the command where it is put. -/
structure Fits (params : PrintParams) (remote_filename plate_path : Text) : Prop where
  plate_path : plate_path.all isEscapable = true
  display_name : (resolve_display_subtask_name params remote_filename).all isEscapable = true
  remote_filename : remote_filename.all isEscapable = true
  ams : ∀ m ∈ amsFields params, FieldFits m.2

/-! ## The members of the command -/

/-- The members that are always there, by key and text, and those behind them. -/
def commandTexts (params : PrintParams) (remote_filename plate_path : Text)
    (ts : List (Text × Text)) : List (Text × Text) :=
  (ascii "sequence_id", decimal 0) ::
    (ascii "command", quote :: ascii "project_file" ++ [quote]) ::
    (ascii "param", quote :: json_escape plate_path ++ [quote]) ::
    (ascii "subtask_name",
      quote :: json_escape (resolve_display_subtask_name params remote_filename) ++ [quote]) ::
    (ascii "url", quote :: (ascii "ftp://" ++ json_escape remote_filename) ++ [quote]) ::
    (ascii "plate_idx", decimal (plate_idx params)) ::
    (ascii "timelapse", bool_text params.task_record_timelapse) ::
    (ascii "bed_leveling", bool_text params.task_bed_leveling) ::
    (ascii "flow_cali", bool_text params.task_flow_cali) ::
    (ascii "vibration_cali", bool_text params.task_vibration_cali) ::
    (ascii "layer_inspect", bool_text params.task_layer_inspect) ::
    (ascii "use_ams", bool_text params.task_use_ams) :: ts

def amsText (value : Text) : Text := field_text (trim_ascii value) (looks_like_json_value value)

def amsTexts (params : PrintParams) : List (Text × Text) :=
  (amsFields params).map fun m => (m.1, amsText m.2)

theorem joined_cons (u : Text) (us : List Text) :
    joined (u :: us) = u ++ us.flatMap fun v => comma :: v := by
  induction us generalizing u with
  | nil => simp [joined]
  | cons v us ih =>
    rw [joined, ih, List.flatMap_cons, List.cons_append]
    simp

/-- The text of a member with the comma before it. -/
def behindComma (m : Text × Text) : Text := comma :: memberText m.1 m.2

theorem objectText_cons (m : Text × Text) (ms : List (Text × Text)) :
    objectText (m :: ms) = lbrace :: memberText m.1 m.2 ++ ms.flatMap behindComma ++ [rbrace] := by
  rw [objectText, List.map_cons, joined_cons, List.flatMap_map]
  rfl

/-- What a field of the filaments adds to the text. -/
def amsPart (key value : Text) : Text :=
  if trim_ascii value ≠ [] then behindComma (key, amsText value) else []

theorem append_ams_field_eq (json key value : Text) :
    append_ams_field json key value = json ++ amsPart key value := by
  unfold append_ams_field amsPart
  split_ifs
  · rw [append_json_field, List.append_assoc, List.append_assoc]
    simp only [behindComma, memberText, amsText, List.append_assoc]
    rfl
  · simp

theorem amsTexts_eq (params : PrintParams) :
    (amsTexts params).flatMap behindComma =
      amsPart (ascii "ams_mapping") params.ams_mapping ++
        (amsPart (ascii "ams_mapping2") params.ams_mapping2 ++
          amsPart (ascii "ams_mapping_info") params.ams_mapping_info) := by
  unfold amsTexts amsFields amsPart
  simp only [List.filter_cons, List.filter_nil, ne_eq, decide_not]
  split_ifs <;> simp_all

set_option maxRecDepth 2048 in
theorem command_text (params : PrintParams) (remote_filename plate_path : Text) :
    build_project_file_command params remote_filename plate_path =
      objectText [(ascii "print",
        objectText (commandTexts params remote_filename plate_path (amsTexts params)))] := by
  have hzero : decimal 0 = ascii "0" := by
    rw [decimal]
    rfl
  unfold build_project_file_command commandTexts
  rw [hzero]
  simp only [append_ams_field_eq, objectText_cons, List.cons_append, List.nil_append,
    List.flatMap_cons, List.flatMap_nil, amsTexts_eq, behindComma, memberText, List.append_assoc]
  rfl

/-! ## Texts that fit -/

/-- The members that are always there. -/
def commandMembers (params : PrintParams) (remote_filename plate_path : Text) : List Member :=
  [(ascii "sequence_id", .num (decimal 0)),
    (ascii "command", .str (ascii "project_file")),
    (ascii "param", .str plate_path),
    (ascii "subtask_name", .str (resolve_display_subtask_name params remote_filename)),
    (ascii "url", .str (ascii "ftp://" ++ remote_filename)),
    (ascii "plate_idx", .num (decimal (plate_idx params))),
    (ascii "timelapse", .bool params.task_record_timelapse),
    (ascii "bed_leveling", .bool params.task_bed_leveling),
    (ascii "flow_cali", .bool params.task_flow_cali),
    (ascii "vibration_cali", .bool params.task_vibration_cali),
    (ascii "layer_inspect", .bool params.task_layer_inspect),
    (ascii "use_ams", .bool params.task_use_ams)]

/-- The value of a field of the filaments that fits. -/
def amsValue (value : Text) : Value :=
  if looks_like_json_value value then (parse (trim_ascii value)).getD .null
  else .str (trim_ascii value)

def amsMembers (params : PrintParams) : List Member :=
  (amsFields params).map fun m => (m.1, amsValue m.2)

theorem reads_bool_text (b : Bool) : Reads (bool_text b) (.bool b) := by
  cases b with
  | true => exact reads_of_parse rfl
  | false => exact reads_of_parse rfl

theorem reads_amsText {value : Text} (h : FieldFits value) :
    Reads (amsText value) (amsValue value) := by
  unfold FieldFits at h
  unfold amsText amsValue field_text
  split_ifs at h ⊢
  · obtain ⟨v, hv⟩ := Option.isSome_iff_exists.mp h
    rw [hv]
    exact reads_of_parse hv
  · exact reads_string (spells_json_escape h)

theorem members_ams {fields : List (Text × Text)}
    (hkeys : ∀ m ∈ fields, m.1.all isPlain = true) (h : ∀ m ∈ fields, FieldFits m.2) :
    Members (fields.map fun m => (m.1, amsText m.2)) (fields.map fun m => (m.1, amsValue m.2)) := by
  induction fields with
  | nil => exact .nil
  | cons m fields ih =>
    rw [List.forall_mem_cons] at hkeys h
    exact .cons hkeys.1 (reads_amsText h.1) (ih hkeys.2 h.2)

theorem plain_amsFields {params : PrintParams} : ∀ m ∈ amsFields params, m.1.all isPlain = true := by
  intro m hm
  have hmem := (List.mem_filter.mp hm).1
  simp only [List.mem_cons, List.not_mem_nil, or_false] at hmem
  rcases hmem with rfl | rfl | rfl
  · exact (by decide : (ascii "ams_mapping").all isPlain = true)
  · exact (by decide : (ascii "ams_mapping2").all isPlain = true)
  · exact (by decide : (ascii "ams_mapping_info").all isPlain = true)

/-- The members that come first read as what was asked. -/
theorem members_command {params : PrintParams} {remote_filename plate_path : Text}
    (hpath : plate_path.all isEscapable = true)
    (hname : (resolve_display_subtask_name params remote_filename).all isEscapable = true)
    (hremote : remote_filename.all isEscapable = true) {ts : List (Text × Text)}
    {vs : List Member} (h : Members ts vs) :
    Members (commandTexts params remote_filename plate_path ts)
      (commandMembers params remote_filename plate_path ++ vs) := by
  refine .cons (by decide) (reads_decimal 0) ?_
  refine .cons (by decide) (reads_string (spells_plain (by decide))) ?_
  refine .cons (by decide) (reads_string (spells_json_escape hpath)) ?_
  refine .cons (by decide) (reads_string (spells_json_escape hname)) ?_
  refine .cons (by decide) (reads_string
    ((spells_plain (by decide)).append (spells_json_escape hremote))) ?_
  refine .cons (by decide) (reads_decimal _) ?_
  refine .cons (by decide) (reads_bool_text _) ?_
  refine .cons (by decide) (reads_bool_text _) ?_
  refine .cons (by decide) (reads_bool_text _) ?_
  refine .cons (by decide) (reads_bool_text _) ?_
  refine .cons (by decide) (reads_bool_text _) ?_
  exact .cons (by decide) (reads_bool_text _) h

theorem parse_command {params : PrintParams} {remote_filename plate_path : Text}
    (h : Fits params remote_filename plate_path) :
    parse (build_project_file_command params remote_filename plate_path) =
      some (.obj [(ascii "print",
        .obj (commandMembers params remote_filename plate_path ++ amsMembers params))]) := by
  have hmembers := members_command h.plate_path h.display_name h.remote_filename
    (members_ams plain_amsFields h.ams)
  rw [command_text]
  exact parse_objectText (.cons (by decide) (reads_objectText hmembers (by simp [commandTexts]))
    .nil) (by simp)

theorem nodup_keys (params : PrintParams) :
    (commandKeys ++ (amsFields params).map (·.1)).Nodup := by
  have hall : (commandKeys ++ [ascii "ams_mapping", ascii "ams_mapping2",
      ascii "ams_mapping_info"]).Nodup := by
    decide
  refine hall.sublist (List.Sublist.append_left ?_ commandKeys)
  exact List.filter_sublist.map Prod.fst

theorem says_command (params : PrintParams) (remote_filename plate_path : Text)
    (h : ∀ m ∈ amsFields params, FieldFits m.2) :
    Says params remote_filename plate_path
      (commandMembers params remote_filename plate_path ++ amsMembers params) := by
  have hkeys : keys (commandMembers params remote_filename plate_path ++ amsMembers params) =
      commandKeys ++ (amsFields params).map (·.1) := by
    simp only [keys, amsMembers, List.map_append, List.map_map]
    rfl
  have hnodup := nodup_keys params
  rw [← hkeys] at hnodup
  refine ⟨hkeys, hnodup, rfl, rfl, rfl, rfl, rfl, rfl, rfl, rfl, rfl, rfl, rfl, ?_⟩
  intro m hm
  refine ⟨amsValue m.2, lookup_of_mem hnodup ?_, ?_⟩
  · exact List.mem_append_right _ (List.mem_map_of_mem hm)
  · have hfits := h m hm
    unfold FieldFits at hfits
    unfold amsValue
    split_ifs at hfits ⊢
    · obtain ⟨v, hv⟩ := Option.isSome_iff_exists.mp hfits
      rw [hv]
      exact .inl rfl
    · exact .inr rfl

/-! ## Texts that do not fit -/

/-- The members that come next, to the end of the command. -/
def tailText (ts : List (Text × Text)) : Text := ts.flatMap behindComma ++ [rbrace, rbrace]

theorem tailText_cons (m : Text × Text) (ts : List (Text × Text)) :
    tailText (m :: ts) = comma :: (memberText m.1 m.2 ++ tailText ts) := by
  simp [tailText, behindComma]

theorem tailText_starts (ts : List (Text × Text)) :
    (∃ b, tailText ts = comma :: quote :: b) ∨ tailText ts = [rbrace, rbrace] := by
  cases ts with
  | nil => exact .inr rfl
  | cons m ts =>
    rw [tailText_cons, memberText, List.cons_append, List.cons_append]
    exact .inl ⟨_, rfl⟩

theorem tailText_next (ts : List (Text × Text)) :
    ∃ c b, tailText ts = c :: b ∧ (c = comma ∨ c = rbrace) := by
  rcases tailText_starts ts with ⟨b, hb⟩ | hb
  · exact ⟨comma, _, hb, .inl rfl⟩
  · exact ⟨rbrace, _, hb, .inr rfl⟩

section tail

variable {fs : List Frame} {k t : Text} (ms : List Member) (ts : List (Text × Text))

/-- The key of the next member. -/
theorem eval_tail_key (hk : k.all isPlain = true) :
    eval ⟨.obj ms [] :: fs, .after⟩ (tailText ((k, t) :: ts)) =
      eval ⟨.obj ms k :: fs, .value⟩ (t ++ tailText ts) := by
  have hcomma : step ⟨.obj ms [] :: fs, .after⟩ comma = some ⟨.obj ms [] :: fs, .key⟩ := by
    simp [step, afterValue, isSpace]
  rw [tailText_cons, eval, run, hcomma, Option.bind_some, memberText, List.append_assoc, run_append,
    run_key hk (.inr rfl), Option.bind_some]
  rfl

theorem eval_tail_reads (hk : k.all isPlain = true) {v : Value} (ht : Reads t v) :
    eval ⟨.obj ms [] :: fs, .after⟩ (tailText ((k, t) :: ts)) =
      eval ⟨.obj (ms ++ [(k, v)]) [] :: fs, .after⟩ (tailText ts) := by
  obtain ⟨c, b, htail, hc⟩ := tailText_next ts
  rw [eval_tail_key ms ts hk, eval, htail, ht _ _ _ _ hc]
  rfl

/-- A string with a control character that has no escape here. -/
theorem eval_tail_none (hk : k.all isPlain = true) {e s value : Text} (he : Spells e s)
    (hvalue : value.all isEscapable = false) :
    eval ⟨.obj ms [] :: fs, .after⟩
      (tailText ((k, quote :: (e ++ json_escape value) ++ [quote]) :: ts)) = none := by
  have hquote : step ⟨.obj ms k :: fs, .value⟩ quote = some ⟨.obj ms k :: fs, .str false []⟩ := by
    simp [step, isSpace, startValue]
  rw [eval_tail_key ms ts hk, List.cons_append, List.cons_append, eval, run, hquote,
    Option.bind_some, List.append_assoc, List.append_assoc, run_append, he, Option.bind_some,
    run_json_escape_none hvalue]
  rfl

end tail

theorem trim_ascii_head {value t : Text} {c : UInt8} (h : trim_ascii value = c :: t) :
    isSpace c = false := by
  have hhead : (value.dropWhile isspace).head? = some c := by
    obtain ⟨rest, hrest⟩ := List.rdropWhile_prefix isspace (value.dropWhile isspace)
    rw [← hrest, show (value.dropWhile isspace).rdropWhile isspace = c :: t from h]
    rfl
  have hnot := List.head?_dropWhile_not isspace value
  rw [hhead] at hnot
  cases hs : isSpace c with
  | false => rfl
  | true =>
    simp only [isSpace, Bool.or_eq_true, decide_eq_true_eq] at hs
    rcases hs with ((rfl | rfl) | rfl) | rfl <;> cases hnot

/-- The value that is read for a key is the one that the object has for it. -/
theorem lookup_of_eval {ms all : List Member} {k p : Text} {v : Value} {b : Text}
    (h : eval (complete [.obj ms k, .obj [] p] v) b = some (.obj [(p, .obj all)]))
    (hk : k ∉ keys ms) : all.lookup k = some v := by
  obtain ⟨after, hs, hfs, hall⟩ := eval_complete_member h
  obtain ⟨after', hs', rfl, hnil⟩ := frames_cons hfs
  obtain rfl := List.map_eq_nil_iff.mp hnil
  simp only [plug_cons, plug_nil, Hole.fill, List.nil_append, Value.obj.injEq, List.cons.injEq,
    Prod.mk.injEq, true_and] at hall
  rw [hall.1]
  exact lookup_first hk v after

/-- A field of the filaments that does not fit is not read as it should be. -/
theorem fits_of_eval {fields : List (Text × Text)} {ms all : List Member} {p : Text}
    (hplain : ∀ m ∈ fields, m.1.all isPlain = true)
    (hblank : ∀ m ∈ fields, trim_ascii m.2 ≠ [])
    (hnodup : (keys ms ++ fields.map (·.1)).Nodup)
    (hall : ∀ m ∈ fields, ∃ v, all.lookup m.1 = some v ∧
      (parse (trim_ascii m.2) = some v ∨ v = .str (trim_ascii m.2)))
    (h : eval ⟨[.obj ms [], .obj [] p], .after⟩
      (tailText (fields.map fun m => (m.1, amsText m.2))) = some (.obj [(p, .obj all)])) :
    ∀ m ∈ fields, FieldFits m.2 := by
  induction fields generalizing ms with
  | nil => simp
  | cons m fields ih =>
    obtain ⟨k, value⟩ := m
    rw [List.forall_mem_cons] at hplain hblank hall ⊢
    have hk : k ∉ keys ms := by
      intro hk
      rw [List.map_cons, List.nodup_append] at hnodup
      exact hnodup.2.2 k hk k List.mem_cons_self rfl
    have hfits : FieldFits value := by
      unfold FieldFits
      split_ifs with hraw
      · rw [List.map_cons, eval_tail_key _ _ hplain.1, amsText, field_text, if_pos hraw] at h
        obtain ⟨c, t, ht⟩ := List.exists_cons_of_ne_nil hblank.1
        obtain ⟨v, b, hb, hne⟩ := eval_not_itself ⟨c, t, ht, trim_ascii_head ht⟩
          (tailText_starts _) h
        obtain ⟨v', hv', hsay⟩ := hall.1
        rw [lookup_of_eval hb hk, Option.some.injEq] at hv'
        subst hv'
        rw [hsay.resolve_right hne]
        rfl
      · cases hesc : (trim_ascii value).all isEscapable with
        | true => rfl
        | false =>
          have htext : amsText value =
              quote :: ([] ++ json_escape (trim_ascii value)) ++ [quote] := by
            rw [amsText, field_text, if_neg hraw]
            rfl
          rw [List.map_cons, htext, eval_tail_none _ _ hplain.1 .nil hesc] at h
          cases h
    have hrest : (keys (ms ++ [(k, amsValue value)]) ++ fields.map (·.1)).Nodup := by
      simpa using hnodup
    refine ⟨hfits, ih hplain.2 hblank.2 hrest hall.2 ?_⟩
    · rwa [List.map_cons, eval_tail_reads _ _ hplain.1 (reads_amsText hfits)] at h

/-- The text up to the first comma of the command. -/
theorem eval_command (params : PrintParams) (remote_filename plate_path : Text) :
    parse (build_project_file_command params remote_filename plate_path) =
      eval ⟨[.obj [(ascii "sequence_id", .num (decimal 0))] [], .obj [] (ascii "print")], .after⟩
        (tailText (commandTexts params remote_filename plate_path (amsTexts params)).tail) := by
  have htext : build_project_file_command params remote_filename plate_path =
      ascii "\x7b\"print\":\x7b" ++ (memberText (ascii "sequence_id") (decimal 0) ++
        tailText (commandTexts params remote_filename plate_path (amsTexts params)).tail) := by
    rw [command_text, objectText_cons]
    simp only [commandTexts, List.cons_append, objectText_cons, memberText, tailText,
      List.flatMap_nil, List.append_assoc, List.tail_cons, List.nil_append]
    rfl
  have hopen : run start (ascii "\x7b\"print\":\x7b") =
      some ⟨[.obj [] [], .obj [] (ascii "print")], .objStart⟩ := rfl
  obtain ⟨c, b, htail, hc⟩ := tailText_next
    (commandTexts params remote_filename plate_path (amsTexts params)).tail
  rw [htext, parse, eval_append, hopen, Option.bind_some, eval, htail,
    run_member (by decide) (reads_decimal 0) (.inl rfl) _ _ _ hc]
  rfl

theorem fits_of_said {params : PrintParams} {remote_filename plate_path : Text}
    (h : SaysWhatWasAsked params remote_filename plate_path) :
    Fits params remote_filename plate_path := by
  obtain ⟨ms, hparse, hsays⟩ := h
  rw [eval_command] at hparse
  simp only [commandTexts, List.tail_cons] at hparse
  rw [eval_tail_reads _ _ (by decide) (reads_string (spells_plain (by decide)))] at hparse
  have hpath : plate_path.all isEscapable = true := by
    by_contra hbad
    rw [← List.nil_append (json_escape plate_path),
      eval_tail_none _ _ (by decide) .nil (by simpa using hbad)] at hparse
    cases hparse
  rw [eval_tail_reads _ _ (by decide) (reads_string (spells_json_escape hpath))] at hparse
  have hname : (resolve_display_subtask_name params remote_filename).all isEscapable = true := by
    by_contra hbad
    rw [← List.nil_append (json_escape (resolve_display_subtask_name params remote_filename)),
      eval_tail_none _ _ (by decide) .nil (by simpa using hbad)] at hparse
    cases hparse
  rw [eval_tail_reads _ _ (by decide) (reads_string (spells_json_escape hname))] at hparse
  have hremote : remote_filename.all isEscapable = true := by
    by_contra hbad
    rw [eval_tail_none _ _ (by decide) (spells_plain (by decide)) (by simpa using hbad)] at hparse
    cases hparse
  rw [eval_tail_reads _ _ (by decide) (reads_string
      ((spells_plain (by decide)).append (spells_json_escape hremote))),
    eval_tail_reads _ _ (by decide) (reads_decimal _),
    eval_tail_reads _ _ (by decide) (reads_bool_text _),
    eval_tail_reads _ _ (by decide) (reads_bool_text _),
    eval_tail_reads _ _ (by decide) (reads_bool_text _),
    eval_tail_reads _ _ (by decide) (reads_bool_text _),
    eval_tail_reads _ _ (by decide) (reads_bool_text _),
    eval_tail_reads _ _ (by decide) (reads_bool_text _)] at hparse
  refine ⟨hpath, hname, hremote, fits_of_eval plain_amsFields (fun m hm => ?_) ?_ hsays.ams hparse⟩
  · simpa using (List.mem_filter.mp hm).2
  · exact nodup_keys params

theorem print_command_says_what_was_asked_iff (params : PrintParams)
    (remote_filename plate_path : Text) :
    SaysWhatWasAsked params remote_filename plate_path ↔
      Fits params remote_filename plate_path := by
  constructor
  · exact fits_of_said
  · intro h
    exact ⟨_, parse_command h, says_command params remote_filename plate_path h.ams⟩

/-- A mapping that goes on behind its array, with a second url. -/
def mappingWithUrl : Text := ascii "[],\"url\":\"ftp://other.3mf\""

theorem mapping_brings_a_second_url :
    ¬ SaysWhatWasAsked { taskJob (ascii "A1") (ascii "benchy") with ams_mapping := mappingWithUrl }
      (ascii "benchy.3mf") (ascii "Metadata/plate_1.gcode") := by
  intro h
  have hfits := (fits_of_said h).ams (ascii "ams_mapping", mappingWithUrl) (by decide +kernel)
  exact absurd hfits (by decide +kernel)

end bambu_farm_client.print_job
