-- The names of a print job on the printer (`print_job.cpp`): the name that a file
-- is uploaded under, from six fields that may each be empty, the path of the
-- plate, and the name that is shown. A package is named by its content.
import BambuFarm.PrintJob
import Mathlib.Data.List.DropRight

open json

namespace bambu_farm_client.print_job

/-! ## Texts -/

def to_lower_byte (c : UInt8) : UInt8 := if 0x41 ≤ c && c ≤ 0x5A then c - 0x41 + 0x61 else c

def to_lower_ascii (value : Text) : Text := value.map to_lower_byte

def ends_with_case_insensitive (value suffix : Text) : Bool :=
  if value.length < suffix.length then false
  else to_lower_ascii (value.drop (value.length - suffix.length)) = to_lower_ascii suffix

/-- `std::isspace` in the C locale. -/
def isspace (c : UInt8) : Bool := c = 0x20 || (0x09 ≤ c && c ≤ 0x0D)

def trim_ascii (value : Text) : Text := (value.dropWhile isspace).rdropWhile isspace

/-- `std::filesystem::path::filename`: what stands behind the last slash. -/
def basename_or_empty (path : Text) : Text :=
  if path = [] then [] else path.rtakeWhile (· ≠ 0x2F)

/-! ## The job -/

/-- The fields of `PrintParams` that the plugin reads. -/
structure PrintParams where
  dev_id : Text
  task_name : Text
  project_name : Text
  filename : Text
  plate_index : Int32
  ftp_file : Text
  ams_mapping : Text
  ams_mapping2 : Text
  ams_mapping_info : Text
  dst_file : Text
  task_bed_leveling : Bool
  task_flow_cali : Bool
  task_vibration_cali : Bool
  task_layer_inspect : Bool
  task_record_timelapse : Bool
  task_use_ams : Bool
  deriving DecidableEq

/-- A job that is named by its task. -/
def taskJob (dev_id task_name : Text) : PrintParams where
  dev_id := dev_id
  task_name := task_name
  project_name := []
  filename := []
  plate_index := 1
  ftp_file := []
  ams_mapping := []
  ams_mapping2 := []
  ams_mapping_info := []
  dst_file := []
  task_bed_leveling := true
  task_flow_cali := false
  task_vibration_cali := false
  task_layer_inspect := false
  task_record_timelapse := false
  task_use_ams := false

/-- The files that can be opened, with their contents. -/
abbrev Files := Text → Option Text

/-! ## Suffixes -/

def append_package_suffix (base_name suffix : Text) : Text :=
  if suffix = [] then base_name
  else if ends_with_case_insensitive base_name (ascii ".gcode.3mf") then
    base_name.take (base_name.length - (ascii ".gcode.3mf").length) ++ ascii "-" ++ suffix ++
      ascii ".gcode.3mf"
  else if ends_with_case_insensitive base_name (ascii ".3mf") then
    base_name.take (base_name.length - (ascii ".3mf").length) ++ ascii "-" ++ suffix ++
      ascii ".3mf"
  else base_name ++ ascii "-" ++ suffix

def strip_known_package_suffixes (value : Text) : Text :=
  if ends_with_case_insensitive value (ascii ".gcode.3mf") then
    value.take (value.length - (ascii ".gcode.3mf").length)
  else if ends_with_case_insensitive value (ascii ".3mf") then
    value.take (value.length - (ascii ".3mf").length)
  else if ends_with_case_insensitive value (ascii ".gcode") then
    value.take (value.length - (ascii ".gcode").length)
  else value

def hash_byte (hash : UInt32) (c : UInt8) : UInt32 := (hash ^^^ c.toUInt32) * 16777619

/-- The 32-bit FNV-1a hash. -/
def fnv1a (bytes : Text) : UInt32 := bytes.foldl hash_byte 2166136261

def lower_hex_digit (n : Nat) : UInt8 := if n < 10 then digit n else (0x57 + n).toUInt8

/-- Eight digits, filled up with zeros. -/
def hex (hash : UInt32) : Text :=
  (List.range 8).map fun i => lower_hex_digit (hash.toNat / 16 ^ (7 - i) % 16)

def short_path_suffix (path : Text) : Text := if path = [] then [] else hex (fnv1a path)

/-- The loop that reads a file: a read that fills the buffer is followed by another one. -/
def hash_reads (content : Text) (hash : UInt32) : UInt32 :=
  let hash := (content.take 8192).foldl hash_byte hash
  if content.length < 8192 then hash else hash_reads (content.drop 8192) hash
termination_by content.length
decreasing_by
  rw [List.length_drop]
  omega

def short_content_suffix (files : Files) (path : Text) : Text :=
  if path = [] then []
  else match files path with
    | none => []
    | some content => hex (hash_reads content 2166136261)

/-! ## Names -/

/-- The bytes that do not stand in a name on the printer: `/ \ : * ? " < > |`. -/
def forbidden : List UInt8 := [0x2F, 0x5C, 0x3A, 0x2A, 0x3F, 0x22, 0x3C, 0x3E, 0x7C]

def sanitize_remote_filename (value : Text) : Text :=
  let value := value.map fun c => if c ∈ forbidden then 0x5F else c
  let value := value.dropWhile fun c => c = 0x2E || c = 0x20
  let value := value.rdropWhile fun c => c = 0x20
  if value = [] then ascii "print.gcode.3mf" else value

def normalize_print_package_name (value : Text) : Text :=
  let value := sanitize_remote_filename value
  if ends_with_case_insensitive value (ascii ".gcode.3mf") then value
  else if ends_with_case_insensitive value (ascii ".3mf") then
    value.take (value.length - 4) ++ ascii ".gcode.3mf"
  else value ++ ascii ".gcode.3mf"

def resolve_display_subtask_name (params : PrintParams) (remote_filename : Text) : Text :=
  if trim_ascii params.project_name ≠ [] then params.project_name
  else if trim_ascii params.task_name ≠ [] then params.task_name
  else if trim_ascii params.dst_file ≠ [] then
    strip_known_package_suffixes (basename_or_empty params.dst_file)
  else if trim_ascii params.ftp_file ≠ [] then
    strip_known_package_suffixes (basename_or_empty params.ftp_file)
  else if trim_ascii params.filename ≠ [] then
    strip_known_package_suffixes (basename_or_empty params.filename)
  else strip_known_package_suffixes remote_filename

/-- The digits of a package: of its content, or of its path when it cannot be opened. -/
def package_suffix (files : Files) (filename : Text) : Text :=
  let content_suffix := short_content_suffix files filename
  if content_suffix ≠ [] then content_suffix else short_path_suffix filename

def source_is_3mf (params : PrintParams) : Bool :=
  ends_with_case_insensitive (basename_or_empty params.filename) (ascii ".3mf") ||
    ends_with_case_insensitive params.filename (ascii ".3mf")

def resolve_remote_filename (files : Files) (params : PrintParams) : Text :=
  let source_name := basename_or_empty params.filename
  let package_suffix := package_suffix files params.filename
  if source_is_3mf params && params.project_name ≠ [] then
    append_package_suffix (normalize_print_package_name params.project_name) package_suffix
  else if source_is_3mf params && params.task_name ≠ [] then
    append_package_suffix (normalize_print_package_name params.task_name) package_suffix
  else if params.ftp_file ≠ [] then
    sanitize_remote_filename (basename_or_empty params.ftp_file)
  else if params.dst_file ≠ [] then
    sanitize_remote_filename (basename_or_empty params.dst_file)
  else if params.task_name ≠ [] then sanitize_remote_filename params.task_name
  else if params.filename ≠ [] then
    if source_is_3mf params then
      append_package_suffix (normalize_print_package_name source_name) package_suffix
    else sanitize_remote_filename source_name
  else ascii "print.gcode.3mf"

/-- The number of the plate, counted from 1. -/
def plate_number (params : PrintParams) : Nat :=
  if params.plate_index > 0 then params.plate_index.toInt.toNat else 1

def resolve_plate_metadata_path (params : PrintParams) : Text :=
  if params.dst_file ≠ [] then params.dst_file
  else if params.ftp_file ≠ [] then params.ftp_file
  else ascii "Metadata/plate_" ++ decimal (plate_number params) ++ ascii ".gcode"

/-! ## The laws of the names -/

/-- The name is not empty, names one file, and is not hidden. -/
structure Safe (name : Text) : Prop where
  nonempty : name ≠ []
  allowed : ∀ c ∈ name, c ∉ forbidden
  dot : name.head? ≠ some 0x2E
  space : name.head? ≠ some 0x20

/-- The job is named as a package: its file is one, and its name is given or that of the
file. -/
def IsPackage (params : PrintParams) : Prop :=
  ends_with_case_insensitive params.filename (ascii ".3mf") = true ∧
    (params.project_name ≠ [] ∨ params.task_name ≠ [] ∨
      (params.project_name = [] ∧ params.task_name = [] ∧ params.ftp_file = [] ∧
        params.dst_file = []))

def isLowerHex (c : UInt8) : Bool := isDigit c || (0x61 ≤ c && c ≤ 0x66)

/-- A stem, a hash of eight digits, and the ending of a package. -/
structure IsPackageName (name stem digits : Text) : Prop where
  eq : name = stem ++ ascii "-" ++ digits ++ ascii ".gcode.3mf"
  stem : stem ≠ []
  length : digits.length = 8
  digits : digits.all isLowerHex = true

/-! ## Endings -/

theorem length_to_lower (value : Text) : (to_lower_ascii value).length = value.length := by
  simp [to_lower_ascii]

/-- A text ends with a suffix when its last bytes are those of the suffix, up to case. -/
theorem ends_with_iff (value suffix : Text) :
    ends_with_case_insensitive value suffix = true ↔
      ∃ stem ending, value = stem ++ ending ∧ to_lower_ascii ending = to_lower_ascii suffix := by
  unfold ends_with_case_insensitive
  constructor
  · intro h
    split at h
    · cases h
    · exact ⟨_, _, (List.take_append_drop _ value).symm, by simpa using h⟩
  · rintro ⟨stem, ending, rfl, h⟩
    have hlen : ending.length = suffix.length := by
      rw [← length_to_lower ending, h, length_to_lower]
    rw [if_neg (by simp [hlen])]
    simp [← hlen, h]

theorem take_stem {stem ending suffix : Text}
    (h : to_lower_ascii ending = to_lower_ascii suffix) :
    (stem ++ ending).take ((stem ++ ending).length - suffix.length) = stem := by
  have hlen : ending.length = suffix.length := by
    rw [← length_to_lower ending, h, length_to_lower]
  simp [hlen]

theorem dot_of_lower {c : UInt8} (h : to_lower_byte c = 0x2E) : c = 0x2E := by
  unfold to_lower_byte at h
  split at h
  · rename_i hc
    simp only [Bool.and_eq_true, decide_eq_true_eq, UInt8.le_iff_toNat_le] at hc
    have hn := congrArg UInt8.toNat h
    simp only [UInt8.toNat_add, UInt8.toNat_sub, UInt8.reduceToNat] at hn hc
    omega
  · exact h

/-- An ending that starts with a dot starts with a dot in any case. -/
theorem dot_of_ending {ending suffix : Text} (hsuffix : suffix.head? = some 0x2E)
    (h : to_lower_ascii ending = to_lower_ascii suffix) : ending.head? = some 0x2E := by
  cases suffix with
  | nil => cases hsuffix
  | cons d suffix =>
    cases hsuffix
    cases ending with
    | nil => cases h
    | cons c ending =>
      simp only [to_lower_ascii, List.map_cons, List.cons.injEq] at h
      rw [List.head?_cons, dot_of_lower (h.1.trans (by decide))]

/-! ## Safe names -/

/-- What stands before an ending of a safe name is not empty, since the ending is hidden. -/
theorem Safe.stem {stem ending suffix : Text} (h : Safe (stem ++ ending))
    (hsuffix : suffix.head? = some 0x2E)
    (hending : to_lower_ascii ending = to_lower_ascii suffix) : Safe stem := by
  have hne : stem ≠ [] := by
    rintro rfl
    exact h.dot (dot_of_ending hsuffix hending)
  obtain ⟨c, rest, rfl⟩ := List.exists_cons_of_ne_nil hne
  exact ⟨hne, fun d hd => h.allowed d (List.mem_append_left _ hd), h.dot, h.space⟩

theorem Safe.append {stem ending : Text} (h : Safe stem) (hending : ∀ c ∈ ending, c ∉ forbidden) :
    Safe (stem ++ ending) := by
  obtain ⟨c, rest, rfl⟩ := List.exists_cons_of_ne_nil h.nonempty
  refine ⟨by simp, fun d hd => ?_, h.dot, h.space⟩
  rcases List.mem_append.mp hd with hd | hd
  · exact h.allowed d hd
  · exact hending d hd

/-- A name that the sanitizer leaves alone. -/
theorem sanitize_of_safe {name : Text} (h : Safe name) (hlast : name.getLast? ≠ some 0x20) :
    sanitize_remote_filename name = name := by
  have hmap : name.map (fun c => if c ∈ forbidden then 0x5F else c) = name := by
    refine (List.map_congr_left fun c hc => ?_).trans (List.map_id name)
    rw [if_neg (h.allowed c hc), id]
  have hfront : name.dropWhile (fun c => c = 0x2E || c = 0x20) = name := by
    obtain ⟨c, rest, rfl⟩ := List.exists_cons_of_ne_nil h.nonempty
    have hdot : c ≠ 0x2E := fun hc => h.dot (by rw [hc]; rfl)
    have hspace : c ≠ 0x20 := fun hc => h.space (by rw [hc]; rfl)
    simp [hdot, hspace]
  have hback : name.rdropWhile (fun c => c = 0x20) = name := by
    rw [List.rdropWhile_eq_self_iff]
    intro hne hspace
    rw [List.getLast?_eq_some_getLast hne] at hlast
    exact hlast (by simpa using hspace)
  unfold sanitize_remote_filename
  dsimp only
  rw [hmap, hfront, hback, if_neg h.nonempty]

theorem safe_default : Safe (ascii "print.gcode.3mf") :=
  ⟨by decide, by decide +kernel, by decide, by decide⟩

/-- What the sanitizer gives is safe and does not end with a space. -/
theorem safe_sanitize (value : Text) : Safe (sanitize_remote_filename value) ∧
    (sanitize_remote_filename value).getLast? ≠ some 0x20 := by
  unfold sanitize_remote_filename
  extract_lets mapped fronted name
  split
  · exact ⟨safe_default, by decide⟩
  · rename_i hne
    have hfront : name <+: fronted := List.rdropWhile_prefix _ _
    have hsub : ∀ c ∈ name, c ∈ mapped := fun c hc =>
      (List.dropWhile_sublist _).subset (hfront.subset hc)
    have hhead : ∀ c, name.head? = some c → c ≠ 0x2E ∧ c ≠ 0x20 := by
      intro c hc
      obtain ⟨rest, hrest⟩ := hfront
      have hfront : fronted.head? = some c := by rw [← hrest, List.head?_append, hc]; rfl
      have hnot := List.head?_dropWhile_not (fun c => c = 0x2E || c = 0x20) mapped
      rw [show mapped.dropWhile _ = fronted from rfl, hfront] at hnot
      simpa using hnot
    refine ⟨⟨hne, fun c hc => ?_, fun h => (hhead _ h).1 rfl, fun h => (hhead _ h).2 rfl⟩, ?_⟩
    · obtain ⟨d, -, rfl⟩ := List.mem_map.mp (hsub c hc)
      split
      · decide
      · assumption
    · intro h
      rw [List.getLast?_eq_some_getLast hne, Option.some.injEq] at h
      have hnot := List.rdropWhile_last_not (fun c => decide (c = 0x20)) fronted hne
      exact hnot (by simpa using h)

theorem sanitize_idempotent (value : Text) :
    sanitize_remote_filename (sanitize_remote_filename value) = sanitize_remote_filename value :=
  sanitize_of_safe (safe_sanitize value).1 (safe_sanitize value).2

/-! ## Packages -/

/-- The name of a package is safe, and ends as one behind a stem. -/
theorem normalize_spec (value : Text) :
    Safe (normalize_print_package_name value) ∧
    (normalize_print_package_name value).getLast? ≠ some 0x20 ∧
    ∃ stem ending, normalize_print_package_name value = stem ++ ending ∧
      to_lower_ascii ending = to_lower_ascii (ascii ".gcode.3mf") ∧ Safe stem := by
  obtain ⟨hsafe, hlast⟩ := safe_sanitize value
  have hpackage : ∀ stem, Safe stem → Safe (stem ++ ascii ".gcode.3mf") ∧
      (stem ++ ascii ".gcode.3mf").getLast? ≠ some 0x20 := by
    intro stem hstem
    refine ⟨hstem.append (by decide +kernel), ?_⟩
    rw [List.getLast?_append, show (ascii ".gcode.3mf").getLast? = some 0x66 by decide]
    simp
  unfold normalize_print_package_name
  dsimp only
  generalize sanitize_remote_filename value = name at hsafe hlast ⊢
  split
  · rename_i h
    obtain ⟨stem, ending, rfl, hending⟩ := (ends_with_iff _ _).mp h
    exact ⟨hsafe, hlast, stem, ending, rfl, hending, hsafe.stem (by decide) hending⟩
  · split
    · rename_i h
      obtain ⟨stem, ending, rfl, hending⟩ := (ends_with_iff _ _).mp h
      have hstem := hsafe.stem (by decide) hending
      have htake : (stem ++ ending).take ((stem ++ ending).length - 4) = stem := take_stem hending
      rw [htake]
      exact ⟨(hpackage stem hstem).1, (hpackage stem hstem).2, stem, _, rfl, rfl, hstem⟩
    · exact ⟨(hpackage _ hsafe).1, (hpackage _ hsafe).2, _, _, rfl, rfl, hsafe⟩

theorem normalize_idempotent (value : Text) :
    normalize_print_package_name (normalize_print_package_name value) =
      normalize_print_package_name value := by
  obtain ⟨hsafe, hlast, stem, ending, heq, hending, -⟩ := normalize_spec value
  have hends : ends_with_case_insensitive (normalize_print_package_name value)
      (ascii ".gcode.3mf") = true := (ends_with_iff _ _).mpr ⟨stem, ending, heq, hending⟩
  rw [normalize_print_package_name, sanitize_of_safe hsafe hlast]
  simp only [hends, if_true]

theorem append_package_suffix_eq {stem ending suffix : Text} (hne : suffix ≠ [])
    (hending : to_lower_ascii ending = to_lower_ascii (ascii ".gcode.3mf")) :
    append_package_suffix (stem ++ ending) suffix =
      stem ++ ascii "-" ++ suffix ++ ascii ".gcode.3mf" := by
  have hends := (ends_with_iff (stem ++ ending) (ascii ".gcode.3mf")).mpr ⟨stem, ending, rfl, hending⟩
  rw [append_package_suffix, if_neg hne, if_pos hends, take_stem hending]

/-! ## Hashes -/

theorem isLowerHex_digit {n : Nat} (h : n < 16) : isLowerHex (lower_hex_digit n) = true := by
  interval_cases n <;> decide

theorem hex_digits (hash : UInt32) : (hex hash).length = 8 ∧ (hex hash).all isLowerHex = true := by
  refine ⟨by simp [hex], ?_⟩
  rw [List.all_eq_true]
  intro c hc
  obtain ⟨i, -, rfl⟩ := List.mem_map.mp hc
  exact isLowerHex_digit (Nat.mod_lt _ (by omega))

theorem hex_ne_nil (hash : UInt32) : hex hash ≠ [] := by
  intro h
  have hlen := (hex_digits hash).1
  rw [h] at hlen
  cases hlen

theorem isLowerHex_allowed {c : UInt8} (h : isLowerHex c = true) : c ∉ forbidden := by
  intro hc
  simp only [forbidden, List.mem_cons, List.not_mem_nil, or_false] at hc
  rcases hc with rfl | rfl | rfl | rfl | rfl | rfl | rfl | rfl | rfl <;> cases h

/-- The reads hash the whole content, wherever they end. -/
theorem hash_reads_eq (content : Text) (hash : UInt32) :
    hash_reads content hash = content.foldl hash_byte hash := by
  induction content, hash using hash_reads.induct with
  | case1 content hash hlt =>
    rw [hash_reads, if_pos hlt, List.take_of_length_le (by omega)]
  | case2 content hash _ hge ih =>
    rw [hash_reads, if_neg hge, ih, ← List.foldl_append, List.take_append_drop]

theorem package_suffix_eq {files : Files} {filename : Text} (h : filename ≠ []) :
    package_suffix files filename = hex (fnv1a ((files filename).getD filename)) := by
  unfold package_suffix short_content_suffix short_path_suffix
  rw [if_neg h, if_neg h]
  cases files filename with
  | none => rfl
  | some content =>
    dsimp only
    rw [if_pos (hex_ne_nil _), hash_reads_eq]
    rfl

theorem filename_ne_nil {params : PrintParams} (h : source_is_3mf params = true) :
    params.filename ≠ [] := by
  intro hnil
  simp [source_is_3mf, hnil, basename_or_empty, ends_with_case_insensitive, ascii] at h

/-! ## Remote file names -/

/-- A name and the digits of a package. -/
theorem package_name (files : Files) {params : PrintParams} (h : source_is_3mf params = true)
    (name : Text) :
    Safe (append_package_suffix (normalize_print_package_name name)
      (package_suffix files params.filename)) ∧
    ∃ stem, IsPackageName (append_package_suffix (normalize_print_package_name name)
      (package_suffix files params.filename)) stem
      (hex (fnv1a ((files params.filename).getD params.filename))) := by
  obtain ⟨-, -, stem, ending, heq, hending, hstem⟩ := normalize_spec name
  rw [package_suffix_eq (filename_ne_nil h), heq, append_package_suffix_eq (hex_ne_nil _) hending]
  generalize hdigits : hex (fnv1a ((files params.filename).getD params.filename)) = digits
  obtain ⟨hlen, hhex⟩ := hex_digits (fnv1a ((files params.filename).getD params.filename))
  rw [hdigits] at hlen hhex
  refine ⟨?_, stem, rfl, hstem.nonempty, hlen, hhex⟩
  refine ((hstem.append (by decide +kernel)).append ?_).append (by decide +kernel)
  intro c hc
  exact isLowerHex_allowed (List.all_eq_true.mp hhex c hc)

theorem safe_resolve (files : Files) (params : PrintParams) :
    Safe (resolve_remote_filename files params) := by
  unfold resolve_remote_filename
  dsimp only
  split_ifs with h1 h2 h3 h4 h5 h6 h7
  · exact (package_name files (by simp_all) _).1
  · exact (package_name files (by simp_all) _).1
  · exact (safe_sanitize _).1
  · exact (safe_sanitize _).1
  · exact (safe_sanitize _).1
  · exact (package_name files h7 _).1
  · exact (safe_sanitize _).1
  · exact safe_default

/-- Which name a package gets. -/
theorem resolve_package (files : Files) {params : PrintParams} (h : IsPackage params) :
    resolve_remote_filename files params = append_package_suffix (normalize_print_package_name
      (if params.project_name ≠ [] then params.project_name
        else if params.task_name ≠ [] then params.task_name
        else basename_or_empty params.filename)) (package_suffix files params.filename) := by
  obtain ⟨h3mf, hnames⟩ := h
  have hsource : source_is_3mf params = true := by simp [source_is_3mf, h3mf]
  have hfile := filename_ne_nil hsource
  unfold resolve_remote_filename
  dsimp only
  rw [hsource]
  by_cases hproject : params.project_name = []
  · by_cases htask : params.task_name = []
    · obtain ⟨-, -, hftp, hdst⟩ := (hnames.resolve_left (by simp [hproject])).resolve_left
        (by simp [htask])
      simp [hproject, htask, hftp, hdst, hfile]
    · simp [hproject, htask]
  · simp [hproject]

/-- The laws of the remote file names. -/
structure LawfulNames : Prop where
  safe : ∀ files params, Safe (resolve_remote_filename files params)
  package : ∀ files params, IsPackage params →
    ∃ stem digits, IsPackageName (resolve_remote_filename files params) stem digits ∧
      ∀ content, files params.filename = some content → digits = hex (fnv1a content)
  /-- Two runs, with the files as they are in each of them. -/
  content : ∀ (files files' : Files) (params params' : PrintParams) content,
    ends_with_case_insensitive params.filename (ascii ".3mf") = true →
    ends_with_case_insensitive params'.filename (ascii ".3mf") = true →
    params.project_name ≠ [] → params'.project_name = params.project_name →
    files params.filename = some content → files' params'.filename = some content →
    resolve_remote_filename files params = resolve_remote_filename files' params'
  normalized : ∀ value, normalize_print_package_name (normalize_print_package_name value) =
    normalize_print_package_name value
  sanitized : ∀ value, sanitize_remote_filename (sanitize_remote_filename value) =
    sanitize_remote_filename value

theorem remote_names_are_safe_and_named_by_content : LawfulNames where
  safe := safe_resolve
  package := by
    intro files params h
    have hsource : source_is_3mf params = true := by simp [source_is_3mf, h.1]
    rw [resolve_package files h]
    obtain ⟨-, stem, hname⟩ := package_name files hsource _
    refine ⟨stem, _, hname, fun content hcontent => ?_⟩
    rw [hcontent, Option.getD_some]
  content := by
    intro files files' params params' content h h' hproject heq hfile hfile'
    have hpackage : IsPackage params := ⟨h, .inl hproject⟩
    have hpackage' : IsPackage params' := ⟨h', .inl (heq ▸ hproject)⟩
    have hsource : source_is_3mf params = true := by simp [source_is_3mf, h]
    have hsource' : source_is_3mf params' = true := by simp [source_is_3mf, h']
    rw [resolve_package files hpackage, resolve_package files' hpackage',
      package_suffix_eq (filename_ne_nil hsource), package_suffix_eq (filename_ne_nil hsource'),
      hfile, hfile', heq, if_pos hproject, if_pos hproject]
    rfl
  normalized := normalize_idempotent
  sanitized := sanitize_idempotent

/-- A stem that is only an ending. -/
example : normalize_print_package_name (ascii ".gcode.3mf") = ascii "gcode.gcode.3mf" := by
  decide +kernel

end bambu_farm_client.print_job
