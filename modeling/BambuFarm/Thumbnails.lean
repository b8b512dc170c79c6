-- The thumbnails of the jobs (`api.rs`). An extraction takes a picture out of the package, writes
-- it under a name that is made of the hash of where it comes from and what it shows, and hands out
-- the address of the file. The addresses stay in the contexts of the jobs, so the files have to
-- stay as they are.
import BambuFarm.Proto
import BambuFarm.RemoteNames
import BambuFarm.Runs

open json runs
open bambu_farm (Bytes)
open bambu_farm_client.print_job (lower_hex_digit)

namespace bambu_farm_client.thumbnails

/-! ## An extraction -/

/-- What the archive has under a name. -/
inductive Entry
  | missing
  /-- `read_to_end` fails. -/
  | broken
  | file (bytes : Bytes)

inductive Write
  /-- The file is not opened. -/
  | refused
  /-- The write stops, and the file keeps what was written. -/
  | torn (kept : Bytes)
  | written

structure Extraction where
  local_filename : Text
  plate_index : Int32
  output_dir : Text
  /-- The names of the archive, unless the package cannot be read. -/
  archive : Option (Text → Entry)
  create_dir_all : Bool
  write : Write

def plate_number (plate_index : Int32) : Nat :=
  if plate_index > 0 then plate_index.toInt.toNat else 1

def candidates (plate_index : Int32) : List Text :=
  [ascii "Metadata/plate_" ++ decimal (plate_number plate_index) ++ ascii ".png",
    ascii "Metadata/plate_" ++ decimal (plate_number plate_index) ++ ascii "_small.png",
    ascii "Auxiliaries/.thumbnails/thumbnail_3mf.png",
    ascii "/Auxiliaries/.thumbnails/thumbnail_3mf.png",
    ascii "Metadata/plate_1.png",
    ascii "Metadata/plate_1_small.png"]

/-- The loop over the candidates. The buffer is cleared behind an entry that gives no picture. -/
def find_thumbnail (by_name : Text → Entry) : List Text → Bytes → Bytes
  | [], png_bytes => png_bytes
  | candidate :: rest, png_bytes =>
    match by_name candidate with
    | .missing => find_thumbnail by_name rest png_bytes
    | .broken => find_thumbnail by_name rest []
    | .file bytes =>
      if png_bytes ++ bytes = [] then find_thumbnail by_name rest [] else png_bytes ++ bytes

/-- The sixteen digits of `{:016x}`. -/
def hex (hash : UInt64) : Text :=
  (List.range 16).map fun i => lower_hex_digit (hash.toNat / 16 ^ (15 - i) % 16)

/-- `PathBuf::join` with the name of a file. -/
def join (dir name : Text) : Text :=
  if dir = [] ∨ dir.getLast? = some 0x2F then dir ++ name else dir ++ 0x2F :: name

structure Thumbnail where
  url : Text
  output_path : Text
  png_bytes : Bytes

/-- The files of the directory, and the thumbnails that were handed out. -/
structure Disk where
  files : Text → Option Bytes := fun _ => none
  handed : List Thumbnail := []

section extraction

variable (hash : Text → Int32 → Bytes → UInt64) (from_file_path : Text → Option Text)

def output_path (e : Extraction) (png_bytes : Bytes) : Text :=
  join e.output_dir (hex (hash e.local_filename e.plate_index png_bytes) ++ ascii ".png")

/-- The directory after the extraction, and the address or the empty text. -/
def bambu_network_rs_extract_3mf_thumbnail (s : Disk) (e : Extraction) : Disk × Text :=
  match e.archive with
  | none => (s, [])
  | some by_name =>
    let png_bytes := find_thumbnail by_name (candidates e.plate_index) []
    if png_bytes = [] then (s, [])
    else if !e.create_dir_all then (s, [])
    else
      let path := output_path hash e png_bytes
      match e.write with
      | .refused => (s, [])
      | .torn kept => ({ s with files := Function.update s.files path (some kept) }, [])
      | .written =>
        match from_file_path path with
        | none => ({ s with files := Function.update s.files path (some png_bytes) }, [])
        | some url =>
          ({ files := Function.update s.files path (some png_bytes)
             handed := s.handed ++ [⟨url, path, png_bytes⟩] }, url)

def diskAfter (es : List Extraction) : Disk :=
  after (fun s e => (bambu_network_rs_extract_3mf_thumbnail hash from_file_path s e).1) {} es

@[simp] theorem diskAfter_snoc (es : List Extraction) (e : Extraction) :
    diskAfter hash from_file_path (es ++ [e]) =
      (bambu_network_rs_extract_3mf_thumbnail hash from_file_path
        (diskAfter hash from_file_path es) e).1 := after_snoc ..

/-! ## The law -/

/-- Behind each address that was handed out is the picture that was found then. -/
def Shown (es : List Extraction) : Prop :=
  ∀ t ∈ (diskAfter hash from_file_path es).handed,
    (diskAfter hash from_file_path es).files t.output_path = some t.png_bytes

/-- The picture that an extraction comes to write. -/
def pictureOf (e : Extraction) : Option Bytes :=
  e.archive.bind fun by_name =>
    if find_thumbnail by_name (candidates e.plate_index) [] = [] ∨ e.create_dir_all = false then none
    else some (find_thumbnail by_name (candidates e.plate_index) [])

/-- Where the name of a new picture is taken, the same picture stands there, and the write does
not tear it. -/
def Spares (pre : List Extraction) (e : Extraction) : Prop :=
  ∀ png_bytes, pictureOf e = some png_bytes →
    ∀ t ∈ (diskAfter hash from_file_path pre).handed, t.output_path = output_path hash e png_bytes →
      match e.write with
      | .refused => True
      | .torn kept => kept = t.png_bytes
      | .written => png_bytes = t.png_bytes

/-- The picture is the first one of the plate that the archive has. -/
def FirstPicture (e : Extraction) (png_bytes : Bytes) : Prop :=
  ∃ by_name before candidate behind, e.archive = some by_name ∧
    candidates e.plate_index = before ++ candidate :: behind ∧
    by_name candidate = .file png_bytes ∧ png_bytes ≠ [] ∧
    ∀ c ∈ before, ∀ bytes, by_name c = .file bytes → bytes = []

end extraction

theorem find_thumbnail_cases (by_name : Text → Entry) (cs : List Text) :
    find_thumbnail by_name cs [] = [] ∨ ∃ before candidate behind,
      cs = before ++ candidate :: behind ∧
      by_name candidate = .file (find_thumbnail by_name cs []) ∧
      find_thumbnail by_name cs [] ≠ [] ∧
      ∀ c ∈ before, ∀ bytes, by_name c = .file bytes → bytes = [] := by
  induction cs with
  | nil => exact .inl rfl
  | cons c cs ih =>
    -- an entry that gives no picture is passed over, with an empty buffer behind it
    have hpass : (∀ bytes, by_name c = .file bytes → bytes = []) →
        find_thumbnail by_name (c :: cs) [] = find_thumbnail by_name cs [] →
        find_thumbnail by_name (c :: cs) [] = [] ∨ ∃ before candidate behind,
          c :: cs = before ++ candidate :: behind ∧
          by_name candidate = .file (find_thumbnail by_name (c :: cs) []) ∧
          find_thumbnail by_name (c :: cs) [] ≠ [] ∧
          ∀ c' ∈ before, ∀ bytes, by_name c' = .file bytes → bytes = [] := by
      intro hc heq
      rw [heq]
      rcases ih with hnone | ⟨before, candidate, behind, hcs, hfile, hne, hbefore⟩
      · exact .inl hnone
      · refine .inr ⟨c :: before, candidate, behind, by rw [hcs]; rfl, hfile, hne, ?_⟩
        intro c' hc' bytes hbytes
        rcases List.mem_cons.mp hc' with rfl | hc'
        · exact hc bytes hbytes
        · exact hbefore c' hc' bytes hbytes
    cases hentry : by_name c with
    | missing => exact hpass (by simp [hentry]) (by simp [find_thumbnail, hentry])
    | broken => exact hpass (by simp [hentry]) (by simp [find_thumbnail, hentry])
    | file bytes =>
      by_cases hempty : bytes = []
      · subst hempty
        exact hpass (by simp [hentry]) (by simp [find_thumbnail, hentry])
      · have hfound : find_thumbnail by_name (c :: cs) [] = bytes := by
          simp [find_thumbnail, hentry, hempty]
        rw [hfound]
        exact .inr ⟨[], c, cs, rfl, hentry, hempty, by simp⟩

section law

variable {hash : Text → Int32 → Bytes → UInt64} {from_file_path : Text → Option Text}

/-- What an extraction leaves of the directory. -/
inductive Outcome (hash : Text → Int32 → Bytes → UInt64) (s : Disk) (e : Extraction) : Disk → Prop
  | kept (h : pictureOf e = none ∨ e.write matches .refused) : Outcome hash s e s
  | torn (png_bytes kept : Bytes) (hpicture : pictureOf e = some png_bytes)
      (hwrite : e.write = .torn kept) :
      Outcome hash s e
        { s with files := Function.update s.files (output_path hash e png_bytes) (some kept) }
  | written (png_bytes : Bytes) (handed : List Thumbnail) (hpicture : pictureOf e = some png_bytes)
      (hwrite : e.write = .written)
      (hhanded : handed = [] ∨ ∃ url, handed = [⟨url, output_path hash e png_bytes, png_bytes⟩]) :
      Outcome hash s e
        { files := Function.update s.files (output_path hash e png_bytes) (some png_bytes)
          handed := s.handed ++ handed }

theorem outcome (hash : Text → Int32 → Bytes → UInt64) (from_file_path : Text → Option Text)
    (s : Disk) (e : Extraction) : Outcome hash s e
    (bambu_network_rs_extract_3mf_thumbnail hash from_file_path s e).1 := by
  unfold bambu_network_rs_extract_3mf_thumbnail
  cases harchive : e.archive with
  | none => exact .kept (.inl (by simp [pictureOf, harchive]))
  | some by_name =>
    dsimp only
    by_cases hempty : find_thumbnail by_name (candidates e.plate_index) [] = []
    · rw [if_pos hempty]
      exact .kept (.inl (by simp [pictureOf, harchive, hempty]))
    · rw [if_neg hempty]
      cases hdir : e.create_dir_all with
      | false => exact .kept (.inl (by simp [pictureOf, harchive, hdir]))
      | true =>
        have hpicture : pictureOf e =
            some (find_thumbnail by_name (candidates e.plate_index) []) := by
          simp [pictureOf, harchive, hdir, hempty]
        cases hwrite : e.write with
        | refused => exact .kept (.inr (by rw [hwrite]))
        | torn kept => exact .torn _ kept hpicture hwrite
        | written =>
          dsimp only [Bool.not_true, Bool.false_eq_true, if_false]
          cases from_file_path (output_path hash e
              (find_thumbnail by_name (candidates e.plate_index) [])) with
          | none => exact (List.append_nil s.handed) ▸ .written _ [] hpicture hwrite (.inl rfl)
          | some url => exact .written _ _ hpicture hwrite (.inr ⟨url, rfl⟩)

theorem firstPicture_of_picture {e : Extraction} {png_bytes : Bytes}
    (h : pictureOf e = some png_bytes) : FirstPicture e png_bytes := by
  obtain ⟨by_name, harchive, hfound⟩ := Option.bind_eq_some_iff.mp h
  split_ifs at hfound with hnone
  cases hfound
  rcases find_thumbnail_cases by_name (candidates e.plate_index) with hempty | hfirst
  · exact absurd (.inl hempty) hnone
  · obtain ⟨before, candidate, behind, hcs, hfile, hne, hbefore⟩ := hfirst
    exact ⟨by_name, before, candidate, behind, harchive, hcs, hfile, hne, hbefore⟩

/-- A write spares the thumbnails that stand under its path with the same content. -/
theorem shown_update {files : Text → Option Bytes} {thumbnails : List Thumbnail}
    (h : ∀ t ∈ thumbnails, files t.output_path = some t.png_bytes) (path : Text) (bytes : Bytes) :
    (∀ t ∈ thumbnails, Function.update files path (some bytes) t.output_path = some t.png_bytes) ↔
      ∀ t ∈ thumbnails, t.output_path = path → bytes = t.png_bytes := by
  constructor
  · intro hs t ht hpath
    have := hs t ht
    rw [hpath, Function.update_self] at this
    exact Option.some.inj this
  · intro hs t ht
    by_cases hpath : t.output_path = path
    · rw [hpath, Function.update_self, hs t ht hpath]
    · rw [Function.update_of_ne hpath]
      exact h t ht

theorem shown_step (es : List Extraction) (e : Extraction) (h : Shown hash from_file_path es) :
    Shown hash from_file_path (es ++ [e]) ↔ Spares hash from_file_path es e := by
  unfold Shown Spares at *
  rw [diskAfter_snoc]
  generalize diskAfter hash from_file_path es = s at h
  have hout := outcome hash from_file_path s e
  generalize (bambu_network_rs_extract_3mf_thumbnail hash from_file_path s e).1 = s' at hout ⊢
  cases hout with
  | kept hkept =>
    refine iff_of_true h fun png_bytes hpicture t ht hpath => ?_
    rcases hkept with hnone | hrefused
    · rw [hnone] at hpicture
      cases hpicture
    · split at hrefused
      · rename_i hwrite
        rw [hwrite]
        trivial
      · cases hrefused
  | torn png_bytes kept hpicture hwrite =>
    rw [shown_update h]
    constructor
    · intro hs b hb t ht hpath
      cases hpicture.symm.trans hb
      rw [hwrite]
      exact hs t ht hpath
    · intro hs t ht hpath
      have := hs png_bytes hpicture t ht hpath
      rwa [hwrite] at this
  | written png_bytes handed hpicture hwrite hhanded =>
    have hnew : ∀ t ∈ handed, Function.update s.files (output_path hash e png_bytes)
        (some png_bytes) t.output_path = some t.png_bytes := by
      intro t ht
      rcases hhanded with rfl | ⟨url, rfl⟩
      · cases ht
      · rw [List.mem_singleton.mp ht]
        exact Function.update_self ..
    rw [List.forall_mem_append, shown_update h]
    constructor
    · intro hs b hb t ht hpath
      cases hpicture.symm.trans hb
      rw [hwrite]
      exact hs.1 t ht hpath
    · intro hs
      refine ⟨fun t ht hpath => ?_, hnew⟩
      have := hs png_bytes hpicture t ht hpath
      rwa [hwrite] at this

/-- Each thumbnail is the picture of an extraction. -/
theorem pictures_of_run (es : List Extraction) :
    ∀ t ∈ (diskAfter hash from_file_path es).handed, ∃ e ∈ es,
      t.output_path = output_path hash e t.png_bytes ∧ pictureOf e = some t.png_bytes := by
  induction es using List.reverseRecOn with
  | nil => exact fun _ ht => absurd ht List.not_mem_nil
  | append_singleton es e ih =>
    have hold : ∀ t ∈ (diskAfter hash from_file_path es).handed, ∃ e' ∈ es ++ [e],
        t.output_path = output_path hash e' t.png_bytes ∧ pictureOf e' = some t.png_bytes := by
      intro t ht
      obtain ⟨e', he', hpicture⟩ := ih t ht
      exact ⟨e', List.mem_append_left _ he', hpicture⟩
    rw [diskAfter_snoc]
    have hout := outcome hash from_file_path (diskAfter hash from_file_path es) e
    generalize (bambu_network_rs_extract_3mf_thumbnail hash from_file_path
      (diskAfter hash from_file_path es) e).1 = s' at hout ⊢
    cases hout with
    | kept hkept => exact hold
    | torn png_bytes kept hpicture hwrite => exact hold
    | written png_bytes handed hpicture hwrite hhanded =>
      intro t ht
      rcases List.mem_append.mp ht with ht | ht
      · exact hold t ht
      · rcases hhanded with rfl | ⟨url, rfl⟩
        · cases ht
        · obtain rfl := List.mem_singleton.mp ht
          exact ⟨e, by simp, rfl, hpicture⟩

/-- The write is not torn, and no earlier picture has the name of a different one. -/
def Distinct (hash : Text → Int32 → Bytes → UInt64) (pre : List Extraction) (e : Extraction) :
    Prop :=
  (∀ kept, e.write ≠ .torn kept) ∧ ∀ e' ∈ pre, ∀ old new, pictureOf e' = some old →
    pictureOf e = some new → output_path hash e' old = output_path hash e new → new = old

theorem spares_of_distinct {pre : List Extraction} {e : Extraction} (h : Distinct hash pre e) :
    Spares hash from_file_path pre e := by
  intro png_bytes hpicture t ht hpath
  obtain ⟨e', he', hname, hold⟩ := pictures_of_run pre t ht
  cases hwrite : e.write with
  | refused => trivial
  | torn kept => exact absurd hwrite (h.1 kept)
  | written => exact h.2 e' he' _ _ hold hpicture (hname.symm.trans hpath)

/-- In every run of extractions, each address that was handed out keeps its picture exactly when
each extraction spares the files of the earlier ones. So it does where no write is torn and no two
pictures have one name. The picture is the first one that the package has for the plate. -/
theorem a_thumbnail_keeps_its_picture (es : List Extraction) :
    (Always (Shown hash from_file_path) es ↔ Steps (Spares hash from_file_path) es) ∧
    (Steps (Distinct hash) es → Shown hash from_file_path es) ∧
    ∀ t ∈ (diskAfter hash from_file_path es).handed, ∃ e ∈ es,
      t.output_path = output_path hash e t.png_bytes ∧ FirstPicture e t.png_bytes := by
  have hlaw : Always (Shown hash from_file_path) es ↔ Steps (Spares hash from_file_path) es :=
    always_iff_steps (fun _ ht => absurd ht List.not_mem_nil)
      (fun es e _ _ hes => shown_step es e hes.last) (L := fun _ _ => True) fun _ _ => trivial
  refine ⟨hlaw, fun h => (hlaw.mpr (h.mono fun _ _ => spares_of_distinct)).last, fun t ht => ?_⟩
  obtain ⟨e, he, hpath, hpicture⟩ := pictures_of_run es t ht
  exact ⟨e, he, hpath, firstPicture_of_picture hpicture⟩

end law

end bambu_farm_client.thumbnails
