-- Files that are browsed back. The path of an entry of a package is the name of
-- the package, a `#` and the entry, and is cut at its first `#`. The names that
-- the plugin gives to its uploads can have a `#` of their own, and so can the
-- names of time-lapses.
import BambuFarm.TunnelRequests

open json search serde_json
open bambu_farm_client.print_job bambu_farm_client.tunnel_protocol

namespace bambu_farm_client.tunnel_requests

/-- `#` -/
def hash : UInt8 := 0x23

/-! ## What browsing is for -/

/-- The path of an entry of a package. -/
def entry_path (name entry : Text) : Text := name ++ (ascii "#" ++ entry)

/-- A `SUB_FILE` request for one path. -/
structure AsksFor (req : Value) (path : Text) : Prop where
  first : ((((get req (ascii "paths")).bind as_array).getD []).filterMap as_str).head? = some path
  entry : ((get req (ascii "zip")).bind as_bool).getD false = false

/-- The answer with one entry of a package. -/
def entry_answer (serde : SerdeText) (world : Outside) (sequence : Int) (name entry : Text) :
    Text :=
  match (world.tunnel_download_file name).bind (world.extract_zip_entry · entry) with
  | some entry_bytes =>
    build_reply_frame serde.toSerdeJson sequence 0 (serde.object [
      (ascii "path", serde.string (entry_path name entry)), (ascii "thumbnail", serde.string entry),
      (ascii "mimetype", serde.string (guess_mimetype entry)),
      (ascii "size", decimal entry_bytes.length), (ascii "continue", ascii "false")]) entry_bytes
  | none => build_error_frame serde sequence 10

/-- The entries of a package are found: their paths are cut behind its name, and a request
for one downloads the package and extracts it. -/
structure BrowsesEntries (name : Text) : Prop where
  split : ∀ entry, entry ≠ [] → hash ∉ entry →
    split_subfile_path (entry_path name entry) = (name, some entry)
  answer : ∀ (serde : SerdeText) world sequence req entry, entry ≠ [] → hash ∉ entry →
    AsksFor req (entry_path name entry) →
    sub_file serde world sequence req = entry_answer serde world sequence name entry

/-- The name of one file of a directory. -/
structure FileName where
  text : Text
  no_slash : (0x2F : UInt8) ∉ text

/-- The path under which a file of the time-lapse directory is listed. -/
def timelapse_path (f : FileName) : Text := ascii "timelapse" ++ ascii "/" ++ f.text

/-- `stem` is the name without its last extension. -/
def IsStem (name stem : Text) : Prop :=
  (∃ extension, (0x2E : UInt8) ∉ extension ∧ name = stem ++ 0x2E :: extension) ∨
    (0x2E ∉ name ∧ name = stem)

/-- The thumbnail of a time-lapse is looked for beside its stem. -/
def BrowsesThumbnail (f : FileName) : Prop :=
  ∃ stem, IsStem f.text stem ∧
    timelapse_thumbnail_path (timelapse_path f ++ ascii "#thumbnail") =
      some (ascii "timelapse/thumbnail/" ++ stem ++ ascii ".jpg")

/-- The text of the job that its file is named after. -/
def naming_text (params : PrintParams) : Text :=
  if source_is_3mf params && params.project_name ≠ [] then params.project_name
  else if source_is_3mf params && params.task_name ≠ [] then params.task_name
  else if params.ftp_file ≠ [] then basename_or_empty params.ftp_file
  else if params.dst_file ≠ [] then basename_or_empty params.dst_file
  else if params.task_name ≠ [] then params.task_name
  else basename_or_empty params.filename

/-! ## The way of a `#` through the names -/

theorem mem_dropWhile {p : UInt8 → Bool} {c : UInt8} (hc : p c = false) (t : Text) :
    c ∈ t.dropWhile p ↔ c ∈ t := by
  constructor
  · exact fun h => (List.dropWhile_sublist p).subset h
  · intro h
    rw [← List.takeWhile_append_dropWhile (p := p) (l := t), List.mem_append] at h
    rcases h with h | h
    · rw [List.mem_takeWhile_imp h] at hc
      cases hc
    · exact h

theorem mem_rdropWhile {p : UInt8 → Bool} {c : UInt8} (hc : p c = false) (t : Text) :
    c ∈ t.rdropWhile p ↔ c ∈ t := by
  unfold List.rdropWhile
  rw [List.mem_reverse, mem_dropWhile hc, List.mem_reverse]

theorem hash_mem_sanitize (value : Text) :
    hash ∈ sanitize_remote_filename value ↔ hash ∈ value := by
  have hmap : hash ∈ (value.map fun c => if c ∈ forbidden then 0x5F else c) ↔ hash ∈ value := by
    rw [List.mem_map]
    constructor
    · rintro ⟨c, hc, heq⟩
      split at heq
      · cases heq
      · rwa [← heq]
    · intro h
      exact ⟨hash, h, rfl⟩
  unfold sanitize_remote_filename
  extract_lets mapped fronted name
  have hname : hash ∈ name ↔ hash ∈ value := by
    rw [mem_rdropWhile (by decide), mem_dropWhile (by decide), hmap]
  split
  · rename_i hempty
    rw [← hname, hempty]
    decide
  · exact hname

/-- A package ending has no `#`, in any case of its letters. -/
theorem hash_notMem_ending {ending suffix : Text}
    (h : to_lower_ascii ending = to_lower_ascii suffix) (hsuffix : hash ∉ to_lower_ascii suffix) :
    hash ∉ ending := by
  intro hmem
  apply hsuffix
  rw [← h]
  exact List.mem_map_of_mem (f := to_lower_byte) hmem

theorem hash_mem_take {value suffix : Text} (h : ends_with_case_insensitive value suffix = true)
    (hsuffix : hash ∉ to_lower_ascii suffix) :
    hash ∈ value.take (value.length - suffix.length) ↔ hash ∈ value := by
  obtain ⟨stem, ending, rfl, hending⟩ := (ends_with_iff _ _).mp h
  rw [take_stem hending, List.mem_append]
  simp [hash_notMem_ending hending hsuffix]

theorem hash_mem_normalize (value : Text) :
    hash ∈ normalize_print_package_name value ↔ hash ∈ value := by
  have hending : hash ∉ ascii ".gcode.3mf" := by decide
  unfold normalize_print_package_name
  dsimp only
  split
  · exact hash_mem_sanitize value
  · split
    · rename_i h
      have htake := hash_mem_take h (by decide)
      rw [show (ascii ".3mf").length = 4 from rfl] at htake
      rw [List.mem_append, or_iff_left hending, htake, hash_mem_sanitize]
    · rw [List.mem_append, or_iff_left hending, hash_mem_sanitize]

theorem hash_mem_append_suffix (name : Text) {suffix : Text} (hsuffix : hash ∉ suffix) :
    hash ∈ append_package_suffix name suffix ↔ hash ∈ name := by
  have hdash : hash ∉ ascii "-" := by decide
  unfold append_package_suffix
  split
  · rfl
  · split
    · rename_i h
      rw [List.mem_append, List.mem_append, List.mem_append, or_iff_left (by decide),
        or_iff_left hsuffix, or_iff_left hdash, hash_mem_take h (by decide)]
    · split
      · rename_i h
        rw [List.mem_append, List.mem_append, List.mem_append, or_iff_left (by decide),
          or_iff_left hsuffix, or_iff_left hdash, hash_mem_take h (by decide)]
      · rw [List.mem_append, List.mem_append, or_iff_left hsuffix, or_iff_left hdash]

theorem hash_notMem_hex (n : UInt32) : hash ∉ hex n := by
  intro h
  have hdigit := List.all_eq_true.mp (hex_digits n).2 hash h
  revert hdigit
  decide

theorem hash_notMem_suffix (files : Files) (filename : Text) :
    hash ∉ package_suffix files filename := by
  by_cases h : filename = []
  · subst h
    simp [package_suffix, short_content_suffix, short_path_suffix]
  · rw [package_suffix_eq h]
    exact hash_notMem_hex _

/-- The name on the printer has a `#` just in case the text has one that the job is named
after. -/
theorem hash_mem_resolve (files : Files) (params : PrintParams) :
    hash ∈ resolve_remote_filename files params ↔ hash ∈ naming_text params := by
  have hpackage : ∀ name, hash ∈ append_package_suffix (normalize_print_package_name name)
      (package_suffix files params.filename) ↔ hash ∈ name := by
    intro name
    rw [hash_mem_append_suffix _ (hash_notMem_suffix files params.filename), hash_mem_normalize]
  unfold resolve_remote_filename naming_text
  dsimp only
  split_ifs with hproject htask hftp hdst htask' hfile hsource
  · exact hpackage _
  · exact hpackage _
  · exact hash_mem_sanitize _
  · exact hash_mem_sanitize _
  · exact hash_mem_sanitize _
  · exact hpackage _
  · exact hash_mem_sanitize _
  · rw [not_not.mp hfile]
    decide

/-! ## Paths that are cut at their first `#` -/

theorem split_append {a b : Text} (h : hash ∉ a) :
    split_subfile_path (a ++ (ascii "#" ++ b)) = (a, some b) := by
  have hfind : find (a ++ (ascii "#" ++ b)) (ascii "#") 0 = some a.length :=
    find_append h (by decide)
  unfold split_subfile_path
  rw [hfind]
  dsimp only
  rw [List.take_left, ← List.drop_drop, List.drop_left]
  rfl

/-- A path whose name has a `#` is cut there. -/
theorem split_early {a b : Text} (h : hash ∈ a) : ∃ c d, hash ∉ c ∧
    split_subfile_path (a ++ (ascii "#" ++ b)) = (c, some (d ++ (ascii "#" ++ b))) := by
  obtain ⟨c, d, rfl, hc⟩ := List.eq_append_cons_of_mem h
  refine ⟨c, d, hc, ?_⟩
  have hcut : c ++ hash :: d ++ (ascii "#" ++ b) = c ++ (ascii "#" ++ (d ++ (ascii "#" ++ b))) := by
    rw [List.append_assoc, List.cons_append]
    rfl
  rw [hcut]
  exact split_append hc

theorem no_timelapse {name : Text} (h : Safe name) : (ascii "timelapse/").isPrefixOf name = false := by
  rw [Bool.eq_false_iff]
  intro hstart
  have hslash := (List.isPrefixOf_iff_prefix.mp hstart).subset
    (by decide : (0x2F : UInt8) ∈ ascii "timelapse/")
  exact h.allowed _ hslash (by decide)

/-- A safe name without a `#` is browsed. -/
theorem browsesEntries_of_safe {name : Text} (h : Safe name) (hname : hash ∉ name) :
    BrowsesEntries name where
  split entry _ _ := split_append hname
  answer := by
    intro serde world sequence req entry _ _ hasks
    have hsplit : split_subfile_path (entry_path name entry) = (name, some entry) :=
      split_append hname
    have hthumbnail : timelapse_thumbnail_path (entry_path name entry) = none := by
      unfold timelapse_thumbnail_path
      rw [hsplit]
      dsimp only
      rw [no_timelapse h]
      exact if_pos (Or.inr rfl)
    obtain ⟨hfirst, hentry⟩ := hasks
    unfold sub_file
    dsimp only
    cases hpaths : (((get req (ascii "paths")).bind as_array).getD []).filterMap as_str with
    | nil =>
      rw [hpaths] at hfirst
      cases hfirst
    | cons path paths =>
      rw [hpaths, List.head?_cons, Option.some.injEq] at hfirst
      subst hfirst
      dsimp only
      rw [hsplit, hthumbnail, hentry]
      rfl

theorem hash_notMem_of_browsesEntries {name : Text} (h : BrowsesEntries name) : hash ∉ name := by
  intro hname
  obtain ⟨c, d, hc, hsplit⟩ := split_early (b := ascii "x") hname
  have heq := (h.split (ascii "x") (by decide) (by decide)).symm.trans hsplit
  rw [Prod.mk.injEq] at heq
  exact hc (heq.1 ▸ hname)

/-! ## Time-lapses -/

theorem rtakeWhile_behind {p : UInt8 → Bool} {a b : Text} {c : UInt8} (hc : p c = false)
    (hb : ∀ d ∈ b, p d = true) : (a ++ c :: b).rtakeWhile p = b := by
  unfold List.rtakeWhile
  rw [List.reverse_append, List.reverse_cons, List.append_assoc, List.singleton_append,
    List.takeWhile_append_of_pos (by simpa using hb), List.takeWhile_cons_of_neg (by simp [hc]),
    List.append_nil, List.reverse_reverse]

theorem rdropWhile_before {p : UInt8 → Bool} {a b : Text} {c : UInt8} (hc : p c = false)
    (hb : ∀ d ∈ b, p d = true) : (a ++ c :: b).rdropWhile p = a ++ [c] := by
  unfold List.rdropWhile
  rw [List.reverse_append, List.reverse_cons, List.append_assoc, List.singleton_append,
    List.dropWhile_append_of_pos (by simpa using hb), List.dropWhile_cons_of_neg (by simp [hc]),
    List.reverse_cons, List.reverse_reverse]

/-- The last dot of a name. -/
theorem last_dot {name : Text} (h : (0x2E : UInt8) ∈ name) :
    ∃ stem extension, (0x2E : UInt8) ∉ extension ∧ name = stem ++ 0x2E :: extension := by
  obtain ⟨a, b, hrev, ha⟩ := List.eq_append_cons_of_mem (List.mem_reverse.mpr h)
  refine ⟨b.reverse, a.reverse, by simpa using ha, ?_⟩
  rw [← List.reverse_reverse name, hrev]
  simp

theorem isStem_of_code (name : Text) : IsStem name
    (if 0x2E ∈ name then (name.rdropWhile fun c => c ≠ 0x2E).dropLast else name) := by
  split
  · rename_i hdot
    obtain ⟨stem, extension, hextension, rfl⟩ := last_dot hdot
    refine Or.inl ⟨extension, hextension, ?_⟩
    rw [rdropWhile_before (by decide), List.dropLast_concat]
    intro d hd
    rw [decide_eq_true_eq]
    rintro rfl
    exact hextension hd
  · rename_i hdot
    exact Or.inr ⟨hdot, rfl⟩

theorem browsesThumbnail_iff (f : FileName) : BrowsesThumbnail f ↔ hash ∉ f.text := by
  have hpath : timelapse_path f ++ ascii "#thumbnail" =
      ascii "timelapse/" ++ f.text ++ (ascii "#" ++ ascii "thumbnail") := by
    simp [timelapse_path, ascii]
  constructor
  · rintro ⟨stem, -, hthumbnail⟩ hmem
    obtain ⟨c, d, -, hsplit⟩ := split_early (a := ascii "timelapse/" ++ f.text)
      (b := ascii "thumbnail") (List.mem_append_right _ hmem)
    rw [hpath] at hthumbnail
    unfold timelapse_thumbnail_path at hthumbnail
    rw [hsplit] at hthumbnail
    dsimp only at hthumbnail
    have hlong : some (d ++ (ascii "#" ++ ascii "thumbnail")) ≠ some (ascii "thumbnail") := by
      intro heq
      have hlength := congrArg List.length (Option.some.inj heq)
      simp [ascii] at hlength
    rw [if_pos (Or.inl hlong)] at hthumbnail
    cases hthumbnail
  · intro hmem
    have hroot : hash ∉ ascii "timelapse/" ++ f.text := by
      rw [List.mem_append, or_iff_right (by decide)]
      exact hmem
    have hname : (ascii "timelapse/" ++ f.text).rtakeWhile (fun c => c ≠ 0x2F) = f.text := by
      have hcut : ascii "timelapse/" ++ f.text = ascii "timelapse" ++ 0x2F :: f.text := rfl
      rw [hcut]
      apply rtakeWhile_behind (by decide)
      intro d hd
      rw [decide_eq_true_eq]
      rintro rfl
      exact f.no_slash hd
    refine ⟨_, isStem_of_code f.text, ?_⟩
    rw [hpath]
    unfold timelapse_thumbnail_path
    rw [split_append hroot]
    dsimp only
    rw [hname, if_neg (by simp)]

/-! ## The law -/

/-- Uploads and time-lapses are browsed back exactly when neither the text that the job is
named after nor the name of the time-lapse has a `#`. -/
theorem files_are_browsed_back_iff (files : Files) (params : PrintParams) (f : FileName) :
    BrowsesEntries (resolve_remote_filename files params) ∧ BrowsesThumbnail f ↔
      hash ∉ naming_text params ∧ hash ∉ f.text := by
  rw [browsesThumbnail_iff, ← not_congr (hash_mem_resolve files params)]
  constructor
  · rintro ⟨hentries, hthumbnail⟩
    exact ⟨hash_notMem_of_browsesEntries hentries, hthumbnail⟩
  · rintro ⟨hname, hthumbnail⟩
    exact ⟨browsesEntries_of_safe (safe_resolve files params) hname, hthumbnail⟩

theorem hashed_names_are_not_browsed :
    split_subfile_path (entry_path (resolve_remote_filename (fun _ => none)
        (taskJob (ascii "A1") (ascii "part#2"))) (ascii "Metadata/plate_1.png")) =
      (ascii "part", some (ascii "2#Metadata/plate_1.png")) ∧
    ¬ BrowsesEntries (resolve_remote_filename (fun _ => none)
      (taskJob (ascii "A1") (ascii "part#2"))) ∧
    timelapse_thumbnail_path (ascii "timelapse/part#2.mp4#thumbnail") = none := by
  refine ⟨by decide +kernel, ?_, by decide +kernel⟩
  intro h
  exact hash_notMem_of_browsesEntries h (by decide +kernel)

end bambu_farm_client.tunnel_requests
