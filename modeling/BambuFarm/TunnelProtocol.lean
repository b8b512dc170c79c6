-- The frames of a file download. The Rust side builds one reply with the whole
-- file behind a JSON header, and the C++ side cuts it into frames of at most
-- 4 MiB, with headers made anew from what regular expressions find in the old
-- header.
import BambuFarm.JsonSearch
import BambuFarm.PrintJob
import BambuFarm.Search
import Mathlib.Tactic.Ring

open json search
open bambu_farm_client.print_job

namespace bambu_farm_client.tunnel_protocol

/-! ## The reply -/

/-- What the reply relies on of `serde_json`: texts without spaces, in which each byte of a
string stands for itself or, for a quote, a backslash or a control character, is replaced by
an escape. The order of the members of an object is left open. -/
structure SerdeJson where
  escape_byte : UInt8 → Text
  plain : ∀ c, isPlain c = true → escape_byte c = [c]
  escaped : ∀ c, isPlain c = false → ∃ d rest, escape_byte c = backslash :: d :: rest ∧
    0x20 ≤ d ∧ rest.all isPlain = true
  order : List (Text × Text) → List (Text × Text)
  order_perm : ∀ members, (order members).Perm members

namespace SerdeJson

variable (serde : SerdeJson)

def string (s : Text) : Text := quote :: s.flatMap serde.escape_byte ++ [quote]

/-- An object with keys that need no escape, from the texts of its values. -/
def object (members : List (Text × Text)) : Text := objectText (serde.order members)

/-- The escapes of a writer that keeps the members in order. -/
def ordered_escape_byte (c : UInt8) : Text :=
  let hex := fun d : UInt8 => if d < 10 then 0x30 + d else 0x57 + d
  if c = quote then ascii "\\\""
  else if c = backslash then ascii "\\\\"
  else if c = 0x08 then ascii "\\b"
  else if c = 0x09 then ascii "\\t"
  else if c = 0x0A then ascii "\\n"
  else if c = 0x0C then ascii "\\f"
  else if c = 0x0D then ascii "\\r"
  else if c < 0x20 then ascii "\\u00" ++ [hex (c / 16), hex (c % 16)]
  else [c]

theorem ordered_escape_byte_spec (n : Fin 256) :
    let t := ordered_escape_byte (.ofFin n)
    if isPlain (.ofFin n) then t = [.ofFin n]
    else t = backslash :: t.getD 1 0 :: t.drop 2 ∧ 0x20 ≤ t.getD 1 0 ∧
      (t.drop 2).all isPlain = true := by
  revert n
  decide +kernel

instance : Inhabited SerdeJson where
  default := {
    escape_byte := ordered_escape_byte
    plain := fun c h => by
      have := ordered_escape_byte_spec c.toFin
      rwa [if_pos (by simpa using h)] at this
    escaped := fun c h => by
      have := ordered_escape_byte_spec c.toFin
      rw [if_neg (by simpa using h), UInt8.ofFin_toFin] at this
      exact ⟨_, _, this⟩
    order := id
    order_perm := fun _ => .refl _ }

end SerdeJson

def integer (n : Int) : Text := if n < 0 then 0x2D :: decimal n.natAbs else decimal n.natAbs

/-- `reply` is the text of the reply. -/
def build_reply_frame (serde : SerdeJson) (sequence result : Int) (reply payload : Text) : Text :=
  serde.object [(ascii "result", integer result), (ascii "sequence", integer sequence),
    (ascii "reply", reply)] ++ ascii "\n\n" ++ payload

/-- A byte vector of Rust. -/
structure Blob where
  bytes : Text
  fits : bytes.length < 2 ^ 63

/-- The reply to a `FILE_DOWNLOAD` request. -/
def download_reply (serde : SerdeJson) (size total : Nat) (file_md5 ftp_file_md5 path : Text) :
    Text :=
  serde.object [(ascii "size", decimal size), (ascii "offset", decimal 0),
    (ascii "total", decimal total), (ascii "file_md5", serde.string file_md5),
    (ascii "ftp_file_md5", serde.string ftp_file_md5), (ascii "path", serde.string path)]

/-! ## The frames -/

def kTunnelDownloadChunkSize : Nat := 4 * 1024 * 1024

/-- The number that a text of digits spells, or the largest one of 64 bits. -/
def strtoull (digits : Text) : Nat :=
  min (digits.foldl (fun n c => 10 * n + (c.toNat - 0x30)) 0) (2 ^ 64 - 1)

def extract_json_integer (json key : Text) : Option Nat := (searchInteger key json).map strtoull

def extract_json_string (json key : Text) : Text := (searchString key json).getD []

/-- What all frames of a download have in common. -/
structure FrameFields where
  sequence : Nat
  total : Nat
  file_md5 : Text
  ftp_file_md5 : Text
  path : Text

def frame_header (f : FrameFields) (result chunk_size offset : Nat) : Text :=
  ascii "\x7b\"result\":" ++ decimal result ++
  ascii ",\"sequence\":" ++ decimal f.sequence ++
  ascii ",\"reply\":\x7b\"size\":" ++ decimal chunk_size ++
  ascii ",\"offset\":" ++ decimal offset ++
  ascii ",\"total\":" ++ decimal f.total ++
  ascii ",\"file_md5\":\"" ++ json_escape f.file_md5 ++
  ascii "\",\"ftp_file_md5\":\"" ++ json_escape f.ftp_file_md5 ++
  ascii "\",\"path\":\"" ++ json_escape f.path ++ ascii "\"\x7d\x7d"

/-- The frame of the chunk at `offset`. -/
def frame (f : FrameFields) (payload : Text) (offset : Nat) : Text :=
  let chunk_size := min kTunnelDownloadChunkSize (payload.length - offset)
  let result := if offset + chunk_size < payload.length then 1 else 0
  frame_header f result chunk_size offset ++ ascii "\n\n" ++ (payload.drop offset).take chunk_size

def frames_from (f : FrameFields) (payload : Text) (offset : Nat) : List Text :=
  if offset < payload.length then
    frame f payload offset :: frames_from f payload (offset + kTunnelDownloadChunkSize)
  else []
termination_by payload.length - offset
decreasing_by
  unfold kTunnelDownloadChunkSize
  omega

def split_file_download_response_frames (response_bytes : Text) : List Text :=
  match find response_bytes (ascii "\n\n") 0 with
  | none => [response_bytes]
  | some separator =>
    let header := response_bytes.take separator
    let payload := response_bytes.drop (separator + 2)
    if payload.length ≤ kTunnelDownloadChunkSize then [response_bytes]
    else match extract_json_integer header (ascii "sequence") with
      | none => [response_bytes]
      | some sequence => frames_from {
          sequence
          total := (extract_json_integer header (ascii "total")).getD payload.length
          file_md5 := extract_json_string header (ascii "file_md5")
          ftp_file_md5 := extract_json_string header (ascii "ftp_file_md5")
          path := extract_json_string header (ascii "path") } payload 0

/-! ## What a frame says -/

/-- A frame in two at its first blank line. -/
def split_frame (t : Text) : Option (Text × Text) :=
  (find t (ascii "\n\n") 0).map fun i => (t.take i, t.drop (i + 2))

/-- The header is a JSON object with these numbers. -/
def Carries (header : Text) (result sequence size offset total : Nat) : Prop :=
  ∃ file_md5 ftp_file_md5 path, parse header = some (.obj [
    (ascii "result", .num (decimal result)), (ascii "sequence", .num (decimal sequence)),
    (ascii "reply", .obj [(ascii "size", .num (decimal size)),
      (ascii "offset", .num (decimal offset)), (ascii "total", .num (decimal total)),
      (ascii "file_md5", .str file_md5), (ascii "ftp_file_md5", .str ftp_file_md5),
      (ascii "path", .str path)])])

/-- The text has no control character. -/
def Visible (t : Text) : Prop := ∀ c ∈ t, (0x20 : UInt8) ≤ c

theorem visible_append {t u : Text} : Visible (t ++ u) ↔ Visible t ∧ Visible u := by
  simp only [Visible, List.mem_append]
  constructor
  · intro h
    exact ⟨fun c hc => h c (Or.inl hc), fun c hc => h c (Or.inr hc)⟩
  · rintro ⟨h, h'⟩ c (hc | hc)
    · exact h c hc
    · exact h' c hc

theorem visible_cons {c : UInt8} {t : Text} : Visible (c :: t) ↔ 0x20 ≤ c ∧ Visible t := by
  simp [Visible]

theorem visible_of_plain {t : Text} (h : t.all isPlain = true) : Visible t := by
  intro c hc
  have := List.all_eq_true.mp h c hc
  simp only [isPlain, Bool.and_eq_true, decide_eq_true_eq] at this
  exact this.1.1

theorem visible_decimal (n : Nat) : Visible (decimal n) := by
  intro c hc
  have h := isDigit_le (List.all_eq_true.mp (digits_decimal n) c hc)
  exact UInt8.le_trans (by decide) h.1

theorem quote_notMem_decimal (n : Nat) : quote ∉ decimal n := by
  intro hm
  have h := isDigit_le (List.all_eq_true.mp (digits_decimal n) quote hm)
  revert h
  decide

theorem visible_joined {us : List Text} (h : ∀ u ∈ us, Visible u) : Visible (joined us) := by
  induction us with
  | nil => simp [joined, Visible]
  | cons u us ih =>
    have hus := ih fun x hx => h x (List.mem_cons_of_mem _ hx)
    cases us with
    | nil => exact h u List.mem_cons_self
    | cons u' us =>
      simp only [joined, visible_append, visible_cons]
      exact ⟨h u List.mem_cons_self, by decide, hus⟩

theorem visible_memberText {k t : Text} (hk : k.all isPlain = true) (ht : Visible t) :
    Visible (memberText k t) := by
  simp only [memberText, visible_append, visible_cons]
  exact ⟨⟨⟨by decide, visible_of_plain hk⟩, by decide, by decide, by simp [Visible]⟩, ht⟩

theorem visible_objectText {ts : List (Text × Text)}
    (h : ∀ m ∈ ts, Visible (memberText m.1 m.2)) : Visible (objectText ts) := by
  simp only [objectText, visible_append, visible_cons]
  refine ⟨⟨by decide, visible_joined fun u hu => ?_⟩, by decide, by simp [Visible]⟩
  obtain ⟨m, hm, rfl⟩ := List.mem_map.mp hu
  exact h m hm

theorem visible_json_escape {t : Text} (h : Visible t) : Visible (json_escape t) := by
  intro c hc
  obtain ⟨d, hd, hc⟩ := List.mem_flatMap.mp hc
  unfold escapeByte at hc
  split_ifs at hc
  all_goals simp only [List.mem_cons, List.not_mem_nil, or_false] at hc
  · rcases hc with rfl | rfl <;> decide
  · rcases hc with rfl | rfl <;> decide
  · rcases hc with rfl | rfl <;> decide
  · rcases hc with rfl | rfl <;> decide
  · rcases hc with rfl | rfl <;> decide
  · rw [hc]
    exact h d hd

theorem spells_json_escape_of_visible {t : Text} (h : Visible t) : Spells (json_escape t) t := by
  apply spells_json_escape
  rw [List.all_eq_true]
  intro c hc
  simp [isEscapable, h c hc]

/-- A header without a control character ends at the first blank line. -/
theorem find_separator {header : Text} (h : Visible header) (payload : Text) :
    find (header ++ ascii "\n\n" ++ payload) (ascii "\n\n") 0 = some header.length ∧
    (header ++ ascii "\n\n" ++ payload).take header.length = header ∧
    (header ++ ascii "\n\n" ++ payload).drop (header.length + 2) = payload := by
  have hno : (0x0A : UInt8) ∉ header := by
    intro hm
    have := h _ hm
    revert this
    decide
  rw [List.append_assoc]
  refine ⟨find_append hno rfl, by simp, ?_⟩
  simp [ascii, ← List.drop_drop]

theorem split_frame_append {header : Text} (h : Visible header) (payload : Text) :
    split_frame (header ++ ascii "\n\n" ++ payload) = some (header, payload) := by
  obtain ⟨hfind, hheader, hpayload⟩ := find_separator h payload
  rw [split_frame, hfind, Option.map_some, hheader, hpayload]

/-! ## The header of a frame -/

/-- The strings have no control character. -/
structure FrameFields.Clean (f : FrameFields) : Prop where
  file_md5 : Visible f.file_md5
  ftp_file_md5 : Visible f.ftp_file_md5
  path : Visible f.path

theorem frame_header_eq (f : FrameFields) (result chunk_size offset : Nat) :
    frame_header f result chunk_size offset = objectText [
      (ascii "result", decimal result), (ascii "sequence", decimal f.sequence),
      (ascii "reply", objectText [(ascii "size", decimal chunk_size),
        (ascii "offset", decimal offset), (ascii "total", decimal f.total),
        (ascii "file_md5", quote :: json_escape f.file_md5 ++ [quote]),
        (ascii "ftp_file_md5", quote :: json_escape f.ftp_file_md5 ++ [quote]),
        (ascii "path", quote :: json_escape f.path ++ [quote])])] := by
  simp only [frame_header, objectText, memberText, joined, List.map_cons, List.map_nil,
    List.append_assoc, List.cons_append, List.nil_append]
  rfl

theorem visible_quoted {t : Text} (h : Visible t) : Visible (quote :: t ++ [quote]) := by
  simp only [visible_append, visible_cons]
  exact ⟨⟨by decide, h⟩, by decide, by simp [Visible]⟩

theorem visible_frame_header {f : FrameFields} (h : f.Clean) (result chunk_size offset : Nat) :
    Visible (frame_header f result chunk_size offset) := by
  have hf := visible_quoted (visible_json_escape h.file_md5)
  have hg := visible_quoted (visible_json_escape h.ftp_file_md5)
  have hp := visible_quoted (visible_json_escape h.path)
  rw [frame_header_eq]
  apply visible_objectText
  simp only [List.forall_mem_cons, List.not_mem_nil, false_implies, implies_true, and_true]
  refine ⟨visible_memberText (by decide) (visible_decimal _),
    visible_memberText (by decide) (visible_decimal _), visible_memberText (by decide) ?_⟩
  apply visible_objectText
  simp only [List.forall_mem_cons, List.not_mem_nil, false_implies, implies_true, and_true]
  exact ⟨visible_memberText (by decide) (visible_decimal _),
    visible_memberText (by decide) (visible_decimal _),
    visible_memberText (by decide) (visible_decimal _), visible_memberText (by decide) hf,
    visible_memberText (by decide) hg, visible_memberText (by decide) hp⟩

/-- What the header of a frame says. -/
theorem parse_frame_header {f : FrameFields} (h : f.Clean) (result chunk_size offset : Nat) :
    parse (frame_header f result chunk_size offset) = some (.obj [
      (ascii "result", .num (decimal result)), (ascii "sequence", .num (decimal f.sequence)),
      (ascii "reply", .obj [(ascii "size", .num (decimal chunk_size)),
        (ascii "offset", .num (decimal offset)), (ascii "total", .num (decimal f.total)),
        (ascii "file_md5", .str f.file_md5), (ascii "ftp_file_md5", .str f.ftp_file_md5),
        (ascii "path", .str f.path)])]) := by
  rw [frame_header_eq]
  refine parse_objectText ?_ (by simp)
  refine .cons (by decide) (reads_decimal _) (.cons (by decide) (reads_decimal _)
    (.cons (by decide) (reads_objectText ?_ (by simp)) .nil))
  exact .cons (by decide) (reads_decimal _) (.cons (by decide) (reads_decimal _)
    (.cons (by decide) (reads_decimal _)
    (.cons (by decide) (reads_string (spells_json_escape_of_visible h.file_md5))
    (.cons (by decide) (reads_string (spells_json_escape_of_visible h.ftp_file_md5))
    (.cons (by decide) (reads_string (spells_json_escape_of_visible h.path)) .nil)))))

/-- The header of a frame carries the numbers that it is made of. -/
theorem carries_frame_header {f : FrameFields} (h : f.Clean) (result chunk_size offset : Nat) :
    Carries (frame_header f result chunk_size offset) result f.sequence chunk_size offset
      f.total :=
  ⟨f.file_md5, f.ftp_file_md5, f.path, parse_frame_header h result chunk_size offset⟩

/-! ## The header of the reply -/

namespace SerdeJson

variable (serde : SerdeJson)

theorem escape_byte_spec (c : UInt8) :
    Escaped (serde.escape_byte c) ∧ Visible (serde.escape_byte c) := by
  by_cases hc : isPlain c = true
  · have hall : [c].all isPlain = true := by simpa using hc
    rw [serde.plain c hc]
    exact ⟨escaped_of_plain hall, visible_of_plain hall⟩
  · obtain ⟨d, rest, he, hd, hrest⟩ := serde.escaped c (by simpa using hc)
    rw [he]
    refine ⟨.escape (escaped_of_plain hrest), ?_⟩
    simp only [visible_cons]
    exact ⟨by decide, hd, visible_of_plain hrest⟩

theorem escape_spec (t : Text) :
    Escaped (t.flatMap serde.escape_byte) ∧ Visible (t.flatMap serde.escape_byte) := by
  induction t with
  | nil => exact ⟨.nil, by simp [Visible]⟩
  | cons c t ih =>
    have hc := serde.escape_byte_spec c
    rw [List.flatMap_cons]
    exact ⟨escaped_append hc.1 ih.1, visible_append.mpr ⟨hc.2, ih.2⟩⟩

theorem visible_string (t : Text) : Visible (serde.string t) :=
  visible_quoted (serde.escape_spec t).2

theorem passes_string {key : Text} {m : Text → Option Text} (hm : Keyed key m)
    (hkey : key.all isKeyByte = true) (hne : key ≠ []) (t : Text) : Passes m (serde.string t) :=
  hm.passes_string hkey hne (serde.escape_spec t).1

theorem visible_object {members : List (Text × Text)}
    (h : ∀ m ∈ members, Visible (memberText m.1 m.2)) : Visible (serde.object members) :=
  visible_objectText fun m hm => h m ((serde.order_perm members).mem_iff.mp hm)

theorem passes_object {key : Text} {m : Text → Option Text} (hm : Keyed key m)
    {members : List (Text × Text)} (h : ∀ x ∈ members, Passes m (memberText x.1 x.2)) :
    Passes m (serde.object members) :=
  hm.passes_object fun x hx => h x ((serde.order_perm members).mem_iff.mp hx)

/-- In any order of the members, the search finds the one member that there is to find. -/
theorem yields_object {key ds : Text} {m : Text → Option Text} (hm : Keyed key m)
    {members : List (Text × Text)}
    (h : ∀ x ∈ members, Passes m (memberText x.1 x.2) ∨ Yields m (memberText x.1 x.2) ds)
    (hex : ∃ x ∈ members, Yields m (memberText x.1 x.2) ds) : Yields m (serde.object members) ds := by
  apply hm.yields_object
  · exact fun x hx => h x ((serde.order_perm members).mem_iff.mp hx)
  · obtain ⟨x, hx, hf⟩ := hex
    exact ⟨x, (serde.order_perm members).mem_iff.mpr hx, hf⟩

end SerdeJson

section reply

variable (serde : SerdeJson) (size total : Nat) (file_md5 ftp_file_md5 path : Text)

theorem visible_download_reply :
    Visible (download_reply serde size total file_md5 ftp_file_md5 path) := by
  apply serde.visible_object
  simp only [List.forall_mem_cons, List.not_mem_nil, false_implies, implies_true, and_true]
  exact ⟨visible_memberText (by decide) (visible_decimal _),
    visible_memberText (by decide) (visible_decimal _),
    visible_memberText (by decide) (visible_decimal _),
    visible_memberText (by decide) (serde.visible_string _),
    visible_memberText (by decide) (serde.visible_string _),
    visible_memberText (by decide) (serde.visible_string _)⟩

theorem passes_decimal_member {k key : Text} {m : Text → Option Text} (hm : Keyed key m)
    (h : PassesOver key k) (n : Nat) : Passes m (memberText k (decimal n)) :=
  hm.passes_member h (hm.passes_of_no_quote (quote_notMem_decimal n))

theorem passes_string_member {k key : Text} {m : Text → Option Text} (hm : Keyed key m)
    (h : PassesOver key k) (t : Text) : Passes m (memberText k (serde.string t)) :=
  hm.passes_member h (serde.passes_string hm h.1 h.2.1 t)

theorem quiet_sequence_reply :
    Quiet (ascii "sequence") (download_reply serde size total file_md5 ftp_file_md5 path) := by
  have hm := keyed_matchInteger (ascii "sequence")
  rw [quiet_iff]
  apply serde.passes_object hm
  simp only [List.forall_mem_cons, List.not_mem_nil, false_implies, implies_true, and_true]
  exact ⟨passes_decimal_member hm (by decide) _,
    passes_decimal_member hm (by decide) _,
    passes_decimal_member hm (by decide) _,
    passes_string_member serde hm (by decide) _,
    passes_string_member serde hm (by decide) _,
    passes_string_member serde hm (by decide) _⟩

theorem finds_total_reply :
    Finds (ascii "total") (download_reply serde size total file_md5 ftp_file_md5 path)
      (decimal total) := by
  have hm := keyed_matchInteger (ascii "total")
  have hf : Yields (matchInteger (ascii "total")) (memberText (ascii "total") (decimal total))
      (decimal total) := yields_integer_member (digits_decimal _) (decimal_ne_nil _)
  rw [finds_iff]
  apply serde.yields_object hm
  · simp only [List.forall_mem_cons, List.not_mem_nil, false_implies, implies_true, and_true]
    exact ⟨Or.inl (passes_decimal_member hm (by decide) _),
      Or.inl (passes_decimal_member hm (by decide) _),
      Or.inr hf,
      Or.inl (passes_string_member serde hm (by decide) _),
      Or.inl (passes_string_member serde hm (by decide) _),
      Or.inl (passes_string_member serde hm (by decide) _)⟩
  · exact ⟨(ascii "total", decimal total), by simp, hf⟩

/-- The header of the reply to a download. -/
def reply_header (sequence : Nat) : Text :=
  serde.object [(ascii "result", integer 0), (ascii "sequence", integer sequence),
    (ascii "reply", download_reply serde size total file_md5 ftp_file_md5 path)]

theorem integer_natCast (n : Nat) : integer n = decimal n := by
  rw [integer, if_neg (by omega)]
  rfl

variable (sequence : Nat)

theorem visible_reply_header :
    Visible (reply_header serde size total file_md5 ftp_file_md5 path sequence) := by
  apply serde.visible_object
  simp only [List.forall_mem_cons, List.not_mem_nil, false_implies, implies_true, and_true,
    integer_natCast]
  exact ⟨visible_memberText (by decide) (visible_decimal 0),
    visible_memberText (by decide) (visible_decimal _),
    visible_memberText (by decide) (visible_download_reply serde size total file_md5
      ftp_file_md5 path)⟩

theorem finds_sequence :
    Finds (ascii "sequence") (reply_header serde size total file_md5 ftp_file_md5 path sequence)
      (decimal sequence) := by
  have hm := keyed_matchInteger (ascii "sequence")
  have hf : Yields (matchInteger (ascii "sequence"))
      (memberText (ascii "sequence") (decimal sequence)) (decimal sequence) :=
    yields_integer_member (digits_decimal _) (decimal_ne_nil _)
  rw [finds_iff]
  apply serde.yields_object hm
  · simp only [List.forall_mem_cons, List.not_mem_nil, false_implies, implies_true, and_true,
      integer_natCast]
    exact ⟨Or.inl (passes_decimal_member hm (by decide) 0),
      Or.inr hf, Or.inl (hm.passes_member (by decide)
        (quiet_iff.mp (quiet_sequence_reply serde size total file_md5 ftp_file_md5 path)))⟩
  · exact ⟨(ascii "sequence", integer sequence), by simp, by rwa [integer_natCast]⟩

theorem finds_total :
    Finds (ascii "total") (reply_header serde size total file_md5 ftp_file_md5 path sequence)
      (decimal total) := by
  have hm := keyed_matchInteger (ascii "total")
  have hf : Yields (matchInteger (ascii "total")) (memberText (ascii "reply")
      (download_reply serde size total file_md5 ftp_file_md5 path)) (decimal total) :=
    hm.yields_in_member (by decide)
      (finds_iff.mp (finds_total_reply serde size total file_md5 ftp_file_md5 path))
  rw [finds_iff]
  apply serde.yields_object hm
  · simp only [List.forall_mem_cons, List.not_mem_nil, false_implies, implies_true, and_true,
      integer_natCast]
    exact ⟨Or.inl (passes_decimal_member hm (by decide) 0),
      Or.inl (passes_decimal_member hm (by decide) _),
      Or.inr hf⟩
  · exact ⟨(ascii "reply", download_reply serde size total file_md5 ftp_file_md5 path), by simp,
      hf⟩

end reply

theorem strtoull_decimal {n : Nat} (h : n < 2 ^ 64) : strtoull (decimal n) = n := by
  rw [strtoull, digits_value]
  omega

theorem extract_of_finds {key header : Text} {n : Nat} (h : Finds key header (decimal n))
    (hn : n < 2 ^ 64) : extract_json_integer header key = some n := by
  have := h [] delimited_nil
  rw [List.append_nil] at this
  rw [extract_json_integer, this, Option.map_some, strtoull_decimal hn]

theorem visible_extract {header : Text} (h : Visible header) (key : Text) :
    Visible (extract_json_string header key) := by
  unfold extract_json_string
  cases hs : searchString key header with
  | none => simp [Visible]
  | some t => exact fun c hc => h c (searchString_subset hs hc)

/-! ## The frames of a payload -/

theorem chunk_size_pos : 0 < kTunnelDownloadChunkSize := by
  unfold kTunnelDownloadChunkSize
  omega

/-- A chunk is what is left, cut at the size of a chunk. -/
theorem take_chunk (payload : Text) (offset : Nat) :
    (payload.drop offset).take (min kTunnelDownloadChunkSize (payload.length - offset)) =
      (payload.drop offset).take kTunnelDownloadChunkSize := by
  rw [← List.length_drop, ← List.take_eq_take_min]

theorem split_frame_frame {f : FrameFields} (h : f.Clean) (payload : Text) (offset : Nat) :
    ∃ header, split_frame (frame f payload offset) =
        some (header, (payload.drop offset).take kTunnelDownloadChunkSize) ∧
      Carries header (if offset + kTunnelDownloadChunkSize < payload.length then 1 else 0)
        f.sequence ((payload.drop offset).take kTunnelDownloadChunkSize).length offset f.total := by
  have hresult : offset + min kTunnelDownloadChunkSize (payload.length - offset) <
      payload.length ↔ offset + kTunnelDownloadChunkSize < payload.length := by
    omega
  let chunk_size := min kTunnelDownloadChunkSize (payload.length - offset)
  refine ⟨frame_header f (if offset + chunk_size < payload.length then 1 else 0) chunk_size offset,
    ?_, ?_⟩
  · rw [← take_chunk]
    exact split_frame_append (visible_frame_header h _ _ _) _
  · have := carries_frame_header h (if offset + chunk_size < payload.length then 1 else 0)
      chunk_size offset
    simpa only [chunk_size, hresult, List.length_take, List.length_drop] using this

/-- The number of chunks that `n` bytes fill. -/
theorem ceil_step {n c : Nat} (hc : 0 < c) (hn : 0 < n) :
    (n + c - 1) / c = (n - c + c - 1) / c + 1 := by
  by_cases h : n ≤ c
  · have h0 : (n - c + c - 1) / c = 0 := Nat.div_eq_of_lt (by omega)
    have h1 : n + c - 1 = (n - 1) + c := by omega
    rw [h0, h1, Nat.add_div_right _ hc, Nat.div_eq_of_lt (by omega)]
  · rw [← Nat.add_div_right _ hc]
    congr 1
    omega

/-- There is another chunk exactly when this one does not reach the end. -/
theorem last_chunk {i n c : Nat} (hc : 0 < c) :
    i * c + c < n ↔ i + 1 < (n + c - 1) / c := by
  rw [← Nat.succ_le_iff (m := i + 1), Nat.le_div_iff_mul_le hc]
  have : (i + 1).succ * c = i * c + c + c := by rw [Nat.succ_mul, Nat.succ_mul]
  omega

theorem frames_from_length (f : FrameFields) (payload : Text) (offset : Nat) :
    (frames_from f payload offset).length =
      (payload.length - offset + kTunnelDownloadChunkSize - 1) / kTunnelDownloadChunkSize := by
  have hc := chunk_size_pos
  fun_induction frames_from f payload offset with
  | case1 offset h ih =>
    rw [List.length_cons, ih, ceil_step hc (by omega : 0 < payload.length - offset),
      Nat.sub_add_eq]
  | case2 offset h =>
    rw [List.length_nil, Nat.div_eq_of_lt (by omega)]

theorem frames_from_get (f : FrameFields) (payload : Text) (offset i : Nat) {t : Text}
    (h : (frames_from f payload offset)[i]? = some t) :
    t = frame f payload (offset + i * kTunnelDownloadChunkSize) ∧
      offset + i * kTunnelDownloadChunkSize < payload.length := by
  induction i generalizing offset with
  | zero =>
    rw [frames_from] at h
    split_ifs at h with hlt
    · simp only [List.getElem?_cons_zero, Option.some.injEq] at h
      simpa using ⟨h.symm, hlt⟩
    · cases h
  | succ i ih =>
    rw [frames_from] at h
    split_ifs at h with hlt
    · rw [List.getElem?_cons_succ] at h
      have := ih _ h
      rwa [show offset + kTunnelDownloadChunkSize + i * kTunnelDownloadChunkSize =
        offset + (i + 1) * kTunnelDownloadChunkSize by ring] at this
    · cases h

theorem frames_from_payload {f : FrameFields} (hf : f.Clean) (payload : Text) (offset : Nat) :
    ∃ parts : List (Text × Text), (frames_from f payload offset).map split_frame =
      parts.map some ∧ (parts.map Prod.snd).flatten = payload.drop offset := by
  fun_induction frames_from f payload offset with
  | case1 offset h ih =>
    obtain ⟨parts, hparts, hflat⟩ := ih
    obtain ⟨header, hsplit, -⟩ := split_frame_frame hf payload offset
    refine ⟨(header, (payload.drop offset).take kTunnelDownloadChunkSize) :: parts, ?_, ?_⟩
    · simp [hsplit, hparts]
    · rw [List.map_cons, List.flatten_cons, hflat, ← List.drop_drop, List.take_append_drop]
  | case2 offset h =>
    exact ⟨[], rfl, by rw [List.drop_eq_nil_of_le (by omega)]; rfl⟩

/-! ## The whole download -/

section download

variable (serde : SerdeJson) (sequence : Nat) (path file_md5 ftp_file_md5 : Text) (blob : Blob)

/-- The answer to a `FILE_DOWNLOAD` request. -/
def download_response : Text :=
  build_reply_frame serde sequence 0
    (download_reply serde blob.bytes.length blob.bytes.length file_md5 ftp_file_md5 path) blob.bytes

/-- The header of the answer. -/
def response_header : Text :=
  reply_header serde blob.bytes.length blob.bytes.length file_md5 ftp_file_md5 path sequence

theorem download_response_eq :
    download_response serde sequence path file_md5 ftp_file_md5 blob =
      response_header serde sequence path file_md5 ftp_file_md5 blob ++ ascii "\n\n" ++
        blob.bytes := rfl

theorem visible_response_header :
    Visible (response_header serde sequence path file_md5 ftp_file_md5 blob) :=
  visible_reply_header _ _ _ _ _ _ _

/-- What the frames of a download have in common, read back from the header of the reply. -/
def download_fields : FrameFields :=
  let header := response_header serde sequence path file_md5 ftp_file_md5 blob
  { sequence
    total := blob.bytes.length
    file_md5 := extract_json_string header (ascii "file_md5")
    ftp_file_md5 := extract_json_string header (ascii "ftp_file_md5")
    path := extract_json_string header (ascii "path") }

theorem clean_download_fields :
    (download_fields serde sequence path file_md5 ftp_file_md5 blob).Clean := by
  have hvisible := visible_response_header serde sequence path file_md5 ftp_file_md5 blob
  exact ⟨visible_extract hvisible _, visible_extract hvisible _, visible_extract hvisible _⟩

/-- The frames of a download of more than one chunk. -/
theorem split_download_fields (hsequence : sequence < 2 ^ 63)
    (hlarge : kTunnelDownloadChunkSize < blob.bytes.length) :
    split_file_download_response_frames
      (download_response serde sequence path file_md5 ftp_file_md5 blob) =
        frames_from (download_fields serde sequence path file_md5 ftp_file_md5 blob)
          blob.bytes 0 := by
  have hvisible := visible_response_header serde sequence path file_md5 ftp_file_md5 blob
  have hresponse := download_response_eq serde sequence path file_md5 ftp_file_md5 blob
  unfold download_fields
  dsimp only
  generalize hgen : response_header serde sequence path file_md5 ftp_file_md5 blob = header
    at hvisible hresponse
  have hseq : extract_json_integer header (ascii "sequence") = some sequence := by
    rw [← hgen]
    exact extract_of_finds (finds_sequence _ _ _ _ _ _ _) (by omega)
  have htotal : extract_json_integer header (ascii "total") = some blob.bytes.length := by
    rw [← hgen]
    exact extract_of_finds (finds_total _ _ _ _ _ _ _) (Nat.lt_trans blob.fits (by decide))
  obtain ⟨hfind, hheader, hpayload⟩ := find_separator hvisible blob.bytes
  rw [hresponse, split_file_download_response_frames, hfind]
  simp only [hheader, hpayload, hseq, htotal, if_neg (Nat.not_le.mpr hlarge), Option.getD_some]

/-- All are made from the numbers of the reply. -/
theorem split_large_download (hsequence : sequence < 2 ^ 63)
    (hlarge : kTunnelDownloadChunkSize < blob.bytes.length) :
    ∃ f : FrameFields, f.Clean ∧ f.sequence = sequence ∧ f.total = blob.bytes.length ∧
      split_file_download_response_frames
        (download_response serde sequence path file_md5 ftp_file_md5 blob) =
          frames_from f blob.bytes 0 :=
  ⟨_, clean_download_fields serde sequence path file_md5 ftp_file_md5 blob, rfl, rfl,
    split_download_fields serde sequence path file_md5 ftp_file_md5 blob hsequence hlarge⟩

theorem split_small_download (hsmall : blob.bytes.length ≤ kTunnelDownloadChunkSize) :
    split_file_download_response_frames
      (download_response serde sequence path file_md5 ftp_file_md5 blob) =
        [download_response serde sequence path file_md5 ftp_file_md5 blob] := by
  obtain ⟨hfind, -, hpayload⟩ := find_separator
    (visible_response_header serde sequence path file_md5 ftp_file_md5 blob) blob.bytes
  rw [download_response_eq, split_file_download_response_frames, hfind]
  simp only [hpayload, if_pos hsmall]

theorem split_frame_response :
    split_frame (download_response serde sequence path file_md5 ftp_file_md5 blob) =
      some (response_header serde sequence path file_md5 ftp_file_md5 blob, blob.bytes) :=
  split_frame_append (visible_response_header serde sequence path file_md5 ftp_file_md5 blob) _

end download

/-- The frames of a download carry the whole file in order. A file of more than one chunk
makes as many frames as it fills chunks, and each frame tells its own place and size, the size
of the file and the sequence of the request, whatever stands in the path; the last one alone
says that the download is over. -/
theorem the_frames_carry_the_whole_file (serde : SerdeJson) (sequence : Fin (2 ^ 63))
    (path file_md5 ftp_file_md5 : Text) (blob : Blob) :
    let response := build_reply_frame serde sequence.val 0
      (download_reply serde blob.bytes.length blob.bytes.length file_md5 ftp_file_md5 path)
      blob.bytes
    let frames := split_file_download_response_frames response
    frames ≠ [] ∧
    (∃ parts : List (Text × Text), frames.map split_frame = parts.map some ∧
      (parts.map Prod.snd).flatten = blob.bytes) ∧
    (kTunnelDownloadChunkSize < blob.bytes.length →
      frames.length = (blob.bytes.length + kTunnelDownloadChunkSize - 1) /
        kTunnelDownloadChunkSize ∧
      ∀ i t, frames[i]? = some t → ∃ header payload, split_frame t = some (header, payload) ∧
        payload = (blob.bytes.drop (i * kTunnelDownloadChunkSize)).take
          kTunnelDownloadChunkSize ∧
        1 ≤ payload.length ∧ payload.length ≤ kTunnelDownloadChunkSize ∧
        Carries header (if i + 1 < frames.length then 1 else 0) sequence.val payload.length
          (i * kTunnelDownloadChunkSize) blob.bytes.length) ∧
    (blob.bytes.length ≤ kTunnelDownloadChunkSize → frames = [response]) := by
  intro response frames
  rcases Nat.lt_or_ge kTunnelDownloadChunkSize blob.bytes.length with hlarge | hsmall
  · obtain ⟨f, hf, hsequence, htotal, hframes⟩ := split_large_download serde sequence.val path
      file_md5 ftp_file_md5 blob sequence.isLt hlarge
    change frames = frames_from f blob.bytes 0 at hframes
    have hlength := frames_from_length f blob.bytes 0
    rw [← hframes, Nat.sub_zero] at hlength
    refine ⟨?_, ?_, fun _ => ⟨hlength, ?_⟩, fun h => absurd h (Nat.not_le.mpr hlarge)⟩
    · rw [hframes, frames_from, if_pos (by omega)]
      exact List.cons_ne_nil _ _
    · rw [hframes]
      exact frames_from_payload hf blob.bytes 0
    · intro i t hi
      rw [hframes] at hi
      obtain ⟨ht, hlt⟩ := frames_from_get f blob.bytes 0 i hi
      rw [Nat.zero_add] at ht hlt
      rw [ht]
      obtain ⟨header, hsplit, hcarries⟩ := split_frame_frame hf blob.bytes
        (i * kTunnelDownloadChunkSize)
      refine ⟨header, _, hsplit, rfl, ?_, List.length_take_le _ _, ?_⟩
      · rw [List.length_take, List.length_drop]
        have := chunk_size_pos
        omega
      · rw [hlength]
        rwa [hsequence, htotal, if_congr (last_chunk chunk_size_pos) rfl rfl] at hcarries
  · have hframes : frames = [response] := split_small_download serde sequence.val path file_md5
      ftp_file_md5 blob hsmall
    have hsplit := split_frame_response serde sequence.val path file_md5 ftp_file_md5 blob
    generalize response_header serde sequence.val path file_md5 ftp_file_md5 blob = header at hsplit
    refine ⟨?_, ⟨[(header, blob.bytes)], ?_, by simp⟩,
      fun h => absurd hsmall (Nat.not_le.mpr h), fun _ => hframes⟩
    · rw [hframes]
      exact List.cons_ne_nil _ _
    · rw [hframes, List.map_singleton, List.map_singleton]
      exact congrArg (fun part => [part]) hsplit

/-- A file of one byte more than a chunk. -/
def largeFile : Blob where
  bytes := List.replicate (kTunnelDownloadChunkSize + 1) 0x61
  fits := by
    rw [List.length_replicate]
    decide

theorem a_large_file_makes_two_frames :
    (split_file_download_response_frames (build_reply_frame default 7 0
      (download_reply default largeFile.bytes.length largeFile.bytes.length (ascii "a0")
        (ascii "a0") (ascii "x\",\"sequence\":9,\"total\":9,\"y\":\""))
      largeFile.bytes)).length = 2 := by
  have hlength : largeFile.bytes.length = kTunnelDownloadChunkSize + 1 := List.length_replicate
  obtain ⟨-, -, hframes, -⟩ := the_frames_carry_the_whole_file default 7
    (ascii "x\",\"sequence\":9,\"total\":9,\"y\":\"") (ascii "a0") (ascii "a0") largeFile
  have hcount := (hframes (by rw [hlength]; exact Nat.lt_succ_self _)).1
  rw [hlength] at hcount ⊢
  exact hcount

end bambu_farm_client.tunnel_protocol
