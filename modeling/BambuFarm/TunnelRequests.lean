-- The requests of a tunnel (`api.rs`) and the control messages that the server
-- answers (`main.rs`). The client reads a request up to its first blank line, and the
-- server reads all of it.
import BambuFarm.JsonRead
import BambuFarm.RemoteNames
import BambuFarm.TunnelProtocol

open json search
open bambu_farm_client.tunnel_protocol

/-! ## JSON in Rust -/

namespace serde_json

/-- A text that can stand in a string. -/
def StringPart (e : Text) : Prop :=
  ∃ qs, ∀ fs isKey ps, run ⟨fs, .str isKey ps⟩ e = some ⟨fs, .str isKey (ps ++ qs)⟩

theorem stringPart_of_spells {e s : Text} (h : Spells e s) : StringPart e := ⟨_, h⟩

theorem StringPart.append {e e' : Text} (h : StringPart e) (h' : StringPart e') :
    StringPart (e ++ e') := by
  obtain ⟨qs, hqs⟩ := h
  obtain ⟨qs', hqs'⟩ := h'
  refine ⟨qs ++ qs', fun fs isKey ps => ?_⟩
  rw [run_append, hqs, Option.bind_some, hqs', List.append_assoc]

theorem whole_of_stringPart {e : Text} (h : StringPart e) :
    ∃ v, Whole (quote :: e ++ [quote]) v := by
  obtain ⟨qs, hqs⟩ := h
  refine ⟨.str (decode qs), ⟨quote, e ++ [quote], rfl, by decide, by decide⟩, fun fs rest => ?_⟩
  have hstart : step ⟨fs, .value⟩ quote = some ⟨fs, .str false []⟩ := by
    simp [step, isSpace, startValue]
  rw [List.cons_append, List.cons_append, run, hstart, Option.bind_some, List.append_assoc,
    run_append, hqs, Option.bind_some]
  simp [run, step, endString]

/-- What the requests rely on of `serde_json` besides its texts: an escape is one of JSON, a
text that is accepted is JSON, and spaces behind it are skipped. -/
structure SerdeText extends SerdeJson where
  escape_stands : ∀ c, isPlain c = false → StringPart (escape_byte c)
  from_str : Text → Option Value
  from_str_sound : ∀ t v, from_str t = some v → parse t = some v
  from_str_spaces : ∀ t v spaces, from_str t = some v → spaces.all isSpace = true →
    from_str (t ++ spaces) = some v

/-- A piece of a string that stands for one byte. -/
def Stands (q : Piece) (c : UInt8) : Prop := q = .byte c ∨ q = .code c.toNat ∧ c.toNat < 0x20

/-- The piece is what a reader makes of the escape. -/
def ReadsAs (e : Text) (q : Piece) : Prop :=
  ∀ fs isKey ps, run ⟨fs, .str isKey ps⟩ e = some ⟨fs, .str isKey (ps ++ [q])⟩

/-- The digits of an escape by number are those of the byte. -/
theorem hex_of_control (n : Fin 256) :
    let hex := fun d : UInt8 => if d < 10 then 0x30 + d else 0x57 + d
    n.val < 0x20 → hexDigit (hex (UInt8.ofFin n / 16)) = some (n.val / 16) ∧
      hexDigit (hex (UInt8.ofFin n % 16)) = some (n.val % 16) := by
  revert n
  decide +kernel

theorem run_code {a b : UInt8} {x y : Nat} (ha : hexDigit a = some x) (hb : hexDigit b = some y)
    (fs : List Frame) (isKey : Bool) (ps : List Piece) :
    run ⟨fs, .str isKey ps⟩ (ascii "\\u00" ++ [a, b]) =
      some ⟨fs, .str isKey (ps ++ [.code (x * 16 + y)])⟩ := by
  have hzero : hexDigit 0x30 = some 0 := by decide
  have htext : ascii "\\u00" ++ [a, b] = [backslash, 0x75, 0x30, 0x30, a, b] := rfl
  rw [htext]
  simp [run, step, ha, hb, hzero]

/-- A byte is read back from its escape. -/
theorem reads_ordered_escape (c : UInt8) :
    ∃ q, Stands q c ∧ ReadsAs (SerdeJson.ordered_escape_byte c) q := by
  have hbyte : ∀ e, Spells e [c] → ∃ q, Stands q c ∧ ReadsAs e q :=
    fun e h => ⟨.byte c, Or.inl rfl, h⟩
  unfold SerdeJson.ordered_escape_byte
  extract_lets hex
  split_ifs with hquote hbackslash h8 h9 hA hC hD hcontrol
  · subst hquote
    exact hbyte _ (spells_escape (c := quote) (by decide) rfl)
  · subst hbackslash
    exact hbyte _ (spells_escape (c := backslash) (by decide) rfl)
  · subst h8
    exact hbyte _ (spells_escape (c := 0x62) (by decide) rfl)
  · subst h9
    exact hbyte _ (spells_escape (c := 0x74) (by decide) rfl)
  · subst hA
    exact hbyte _ (spells_escape (c := 0x6E) (by decide) rfl)
  · subst hC
    exact hbyte _ (spells_escape (c := 0x66) (by decide) rfl)
  · subst hD
    exact hbyte _ (spells_escape (c := 0x72) (by decide) rfl)
  · have hlow : c.toNat < 0x20 := UInt8.lt_iff_toNat_lt.mp hcontrol
    obtain ⟨ha, hb⟩ := hex_of_control c.toFin hlow
    rw [UInt8.ofFin_toFin] at ha hb
    refine ⟨.code c.toNat, Or.inr ⟨rfl, hlow⟩, fun fs isKey ps => ?_⟩
    have hrun := run_code ha hb fs isKey ps
    rwa [show c.toFin.val = c.toNat from rfl, Nat.div_add_mod'] at hrun
  · apply hbyte
    apply spells_byte
    simp only [isPlain, Bool.and_eq_true, decide_eq_true_eq]
    exact ⟨⟨UInt8.not_lt.mp hcontrol, hquote⟩, hbackslash⟩

instance : Inhabited SerdeText where
  default := {
    (default : SerdeJson) with
    escape_stands := fun c _ => by
      obtain ⟨q, -, hread⟩ := reads_ordered_escape c
      exact ⟨[q], hread⟩
    from_str := parse
    from_str_sound := fun _ _ h => h
    from_str_spaces := fun _ _ _ h hs => parse_spaces h hs }

/-- Of two members with one key the later one counts. -/
def get (v : Value) (key : Text) : Option Value :=
  match v with
  | .obj ms => ((ms.filter fun m => m.1 = key).getLast?).map (·.2)
  | _ => none

theorem get_of_perm {vs vs' : List Member} {key : Text} {v : Value} (hperm : vs'.Perm vs)
    (hone : vs.filter (fun m => m.1 = key) = [(key, v)]) : get (.obj vs') key = some v := by
  have hfilter := hperm.filter fun m => m.1 = key
  rw [hone, List.perm_singleton] at hfilter
  rw [get, hfilter]
  rfl

/-- The text of an object is JSON for its members, in some order. -/
theorem reads_serde_object (serde : SerdeJson) {ms : List (Text × Text)} {vs : List Member}
    (h : Members ms vs) (hne : ms ≠ []) : ∃ vs', vs'.Perm vs ∧
      parse (serde.object ms) = some (.obj vs') ∧ Reads (serde.object ms) (.obj vs') := by
  obtain ⟨vs', hvs', hperm⟩ := List.perm_comp_forall₂ (serde.order_perm ms) h
  have hne' : serde.order ms ≠ [] := by
    intro hnil
    apply hne
    have hlength := (serde.order_perm ms).length_eq
    rw [hnil] at hlength
    exact List.eq_nil_of_length_eq_zero hlength.symm
  exact ⟨vs', hperm, parse_objectText hvs' hne', reads_objectText hvs' hne'⟩

/-- A literal with a fraction or an exponent is a float, and so are `-0` and an integer
that is no `i64`. -/
def as_i64 (v : Value) : Option Int :=
  match v with
  | .num literal =>
    let negative : Bool := literal.head? = some 0x2D
    let digits := if negative then literal.drop 1 else literal
    let n : Nat := digits.foldl (fun n c => 10 * n + (c.toNat - 0x30)) 0
    if !digits.all isDigit then none
    else if negative then if 1 ≤ n && n ≤ 2 ^ 63 then some (-n) else none
    else if n < 2 ^ 63 then some n else none
  | _ => none

def as_str : Value → Option Text
  | .str s => some s
  | _ => none

def as_array : Value → Option (List Value)
  | .arr es => some es
  | _ => none

def as_bool : Value → Option Bool
  | .bool b => some b
  | _ => none

def sequence_of (v : Value) : Int := ((get v (ascii "sequence")).bind as_i64).getD 0

def cmdtype_of (v : Value) : Int := ((get v (ascii "cmdtype")).bind as_i64).getD (-1)

def req_of (v : Value) : Value := (get v (ascii "req")).getD (.obj [])

end serde_json

open serde_json

/-! ## The server -/

namespace bambu_farm_server.control

/-- A line of a listing that is understood. -/
structure RemoteFile where
  is_file : Bool
  name : Text
  modified : Int
  size : Nat

/-- What a printer lists for a directory, or for the root. A line that is not understood
is `none`. -/
abbrev Printer := Option Text → Option (List (Option RemoteFile))

def CONTROL_CMD_LIST_INFO : Int := 1
def CONTROL_CMD_REQUEST_MEDIA_ABILITY : Int := 7

def remote_media_dir (requested_type : Text) : Option Text :=
  if requested_type = ascii "timelapse" then some (ascii "timelapse")
  else if requested_type = ascii "video" then some (ascii "ipcam")
  else none

/-- The files that a list of models shows. -/
def is_model (name : Text) : Bool :=
  !(ascii ".").isPrefixOf name && !(name = ascii "check_access_code.txt" || name = ascii "verify_job")
    && ((ascii ".gcode.3mf").isSuffixOf name || (ascii ".3mf").isSuffixOf name)

section reply

variable (serde : SerdeText)

def file_entry (remote_dir : Option Text) (file : RemoteFile) : Text :=
  let remote_path := match remote_dir with
    | some remote_dir => remote_dir ++ ascii "/" ++ file.name
    | none => file.name
  serde.object [(ascii "name", serde.string file.name), (ascii "path", serde.string remote_path),
    (ascii "time", integer file.modified), (ascii "size", decimal file.size)]

def list_files_via_ftps (printer : Printer) (requested_type : Text) : Option Text :=
  if requested_type ≠ ascii "model" ∧ requested_type ≠ ascii "timelapse" ∧
      requested_type ≠ ascii "video" then
    some (serde.object [(ascii "file_lists", arrayText [])])
  else
    let remote_dir := remote_media_dir requested_type
    (printer remote_dir).map fun raw_entries =>
      let files := (raw_entries.filterMap id).filter fun file =>
        file.is_file && (requested_type ≠ ascii "model" || is_model file.name)
      serde.object [(ascii "file_lists", arrayText (files.map (file_entry serde remote_dir)))]

def control_response (sequence result : Int) (reply : Text) : Text :=
  serde.object [(ascii "result", integer result), (ascii "sequence", integer sequence),
    (ascii "reply", reply)]

def control_error_response (sequence result : Int) : Text :=
  control_response serde sequence result (serde.object [])

def handle_control_message (printer : Printer) (data : Text) : Text :=
  match serde.from_str data with
  | none => control_error_response serde 0 2
  | some root =>
    let sequence := sequence_of root
    let cmdtype := cmdtype_of root
    let req := req_of root
    if cmdtype = CONTROL_CMD_REQUEST_MEDIA_ABILITY then
      control_response serde sequence 0
        (serde.object [(ascii "storage", arrayText [serde.string (ascii "internal")])])
    else if cmdtype = CONTROL_CMD_LIST_INFO then
      let requested_type := ((get req (ascii "type")).bind as_str).getD (ascii "model")
      match list_files_via_ftps serde printer requested_type with
      | some reply => control_response serde sequence 0 reply
      | none => control_error_response serde sequence 17
    else control_error_response serde sequence 18

/-- A device that is not known is an error of the call. -/
def send_control_message (lookup_printer : Option Printer) (data : Text) : Option Text :=
  lookup_printer.map fun printer => handle_control_message serde printer data

end reply

end bambu_farm_server.control

/-! ## The client -/

namespace bambu_farm_client.tunnel_requests

open bambu_farm_server.control

/-- The text before the first blank line. -/
def before_blank_line (t : Text) : Text :=
  match find t (ascii "\n\n") 0 with
  | some i => t.take i
  | none => t

def behind_blank_line (t : Text) : Text :=
  match find t (ascii "\n\n") 0 with
  | some i => t.drop (i + 2)
  | none => []

def split_subfile_path (path : Text) : Text × Option Text :=
  match find path (ascii "#") 0 with
  | some i => (path.take i, some (path.drop (i + 1)))
  | none => (path, none)

def to_ascii_lowercase (t : Text) : Text := t.map print_job.to_lower_byte

def guess_mimetype (path : Text) : Text :=
  let ending := to_ascii_lowercase (path.rtakeWhile fun c => c ≠ 0x2E)
  if ending = ascii "jpg" ∨ ending = ascii "jpeg" then ascii "image/jpeg"
  else if ending = ascii "png" then ascii "image/png"
  else if ending = ascii "webp" then ascii "image/webp"
  else if ending = ascii "model" then
    ascii "application/vnd.ms-package.3dmanufacturing-3dmodel+xml"
  else if ending = ascii "rels" then
    ascii "application/vnd.openxmlformats-package.relationships+xml"
  else if ending = ascii "config" then ascii "text/plain"
  else ascii "application/octet-stream"

def timelapse_thumbnail_path (requested_path : Text) : Option Text :=
  let (root, subpath) := split_subfile_path requested_path
  if subpath ≠ some (ascii "thumbnail") ∨ !(ascii "timelapse/").isPrefixOf root then none
  else
    let filename := root.rtakeWhile fun c => c ≠ 0x2F
    let stem := if 0x2E ∈ filename then (filename.rdropWhile fun c => c ≠ 0x2E).dropLast
      else filename
    some (ascii "timelapse/thumbnail/" ++ stem ++ ascii ".jpg")

/-- What the world outside does with one request: the printer's files, the archive, the
digest, and the way to the server. -/
structure Outside where
  /-- The file that a path leads to. The definition over curl and FTPS is in `tunnel_files`. -/
  tunnel_download_file : Text → Option Text
  extract_zip_entry : Text → Text → Option Text
  md5_hex : Text → Text
  connect_client : Bool
  rpc : Bool
  lookup_printer : Option Printer

section request

variable (serde : SerdeText)

def build_error_frame (sequence result : Int) : Text :=
  build_reply_frame serde.toSerdeJson sequence result (serde.object []) []

/-- The answer to a `FILE_DOWNLOAD` request. -/
def file_download (world : Outside) (sequence : Int) (req : Value) : Text :=
  let remote_path := (((get req (ascii "path")).bind as_str).or
    ((get req (ascii "file")).bind as_str)).getD []
  if remote_path = [] then build_error_frame serde sequence 10
  else match world.tunnel_download_file remote_path with
    | some blob =>
      let md5_hex := world.md5_hex blob
      build_reply_frame serde.toSerdeJson sequence 0 (download_reply serde.toSerdeJson blob.length
        blob.length md5_hex md5_hex remote_path) blob
    | none => build_error_frame serde sequence 10

/-- The answer to a `SUB_FILE` request. -/
def sub_file (world : Outside) (sequence : Int) (req : Value) : Text :=
  let paths := (((get req (ascii "paths")).bind as_array).getD []).filterMap as_str
  match paths with
  | [] => build_error_frame serde sequence 10
  | first_path :: _ =>
    let zip_requested := ((get req (ascii "zip")).bind as_bool).getD false
    let (root_path, subpath) := split_subfile_path first_path
    if zip_requested then
      match world.tunnel_download_file root_path with
      | some blob =>
        build_reply_frame serde.toSerdeJson sequence 0 (serde.object [
          (ascii "path", serde.string root_path), (ascii "size", decimal blob.length),
          (ascii "continue", ascii "false")]) blob
      | none => build_error_frame serde sequence 10
    else match timelapse_thumbnail_path first_path with
      | some thumbnail_remote_path =>
        match world.tunnel_download_file thumbnail_remote_path with
        | some blob =>
          build_reply_frame serde.toSerdeJson sequence 0 (serde.object [
            (ascii "path", serde.string first_path),
            (ascii "thumbnail", serde.string (ascii "thumbnail")),
            (ascii "mimetype", serde.string (ascii "image/jpeg")),
            (ascii "size", decimal blob.length), (ascii "continue", ascii "false")]) blob
        | none => build_error_frame serde sequence 10
      | none =>
        match subpath with
        | some subpath =>
          match (world.tunnel_download_file root_path).bind
              (world.extract_zip_entry · subpath) with
          | some entry_bytes =>
            build_reply_frame serde.toSerdeJson sequence 0 (serde.object [
              (ascii "path", serde.string first_path), (ascii "thumbnail", serde.string subpath),
              (ascii "mimetype", serde.string (guess_mimetype subpath)),
              (ascii "size", decimal entry_bytes.length), (ascii "continue", ascii "false")])
              entry_bytes
          | none => build_error_frame serde sequence 10
        | none => build_error_frame serde sequence 10

/-- An empty answer is an error of the request. -/
def bambu_network_rs_tunnel_request (world : Outside) (data : Text) : Text :=
  match serde.from_str (before_blank_line data) with
  | none => []
  | some parsed =>
    let sequence := sequence_of parsed
    let cmdtype := cmdtype_of parsed
    let req := req_of parsed
    if cmdtype = 4 then file_download serde world sequence req
    else if cmdtype = 2 then sub_file serde world sequence req
    else if !world.connect_client then []
    else if !world.rpc then []
    else (send_control_message serde world.lookup_printer data).getD []

end request

/-! ## Numbers -/

theorem step_minus (fs : List Frame) {d : Nat} (h : d < 10) :
    step ⟨fs, .num [0x2D] .minus⟩ (digit d) =
      some ⟨fs, .num [0x2D, digit d] (decimalState d)⟩ := by
  interval_cases d <;> rfl

theorem run_minus (fs : List Frame) (n : Nat) : run ⟨fs, .num [0x2D] .minus⟩ (decimal n) =
    some ⟨fs, .num (0x2D :: decimal n) (decimalState n)⟩ :=
  run_digits [0x2D] (fun _ => step_minus fs) n

theorem reads_integer (n : Int) : Reads (integer n) (.num (integer n)) := by
  unfold integer
  split_ifs with hn
  · apply reads_of_parse
    have hminus : step start 0x2D = some ⟨[], .num [0x2D] .minus⟩ := rfl
    rw [parse, eval, run, hminus, Option.bind_some, run_minus, Option.bind_some, finish,
      decimalState_accepts, if_pos rfl]
  · exact reads_decimal _

theorem visible_integer (n : Int) : Visible (integer n) := by
  unfold integer
  split_ifs with hn
  · exact visible_cons.mpr ⟨by decide, visible_decimal _⟩
  · exact visible_decimal _

/-- The number is an `i64`. -/
def InI64 (n : Int) : Prop := -2 ^ 63 ≤ n ∧ n < 2 ^ 63

theorem as_i64_integer {n : Int} (h : InI64 n) : as_i64 (.num (integer n)) = some n := by
  obtain ⟨hlow, hhigh⟩ := h
  unfold as_i64 integer
  split_ifs with hn
  · have habs : 1 ≤ n.natAbs ∧ n.natAbs ≤ 2 ^ 63 := by omega
    simp only [List.head?_cons, List.drop_one, List.tail_cons, digits_decimal, digits_value,
      decide_true, if_true, Bool.not_true, Bool.false_eq_true, if_false, habs, Bool.and_self]
    congr 1
    omega
  · have hhead : (decimal n.natAbs).head? ≠ some 0x2D := by
      intro heq
      have hdigit := List.all_eq_true.mp (digits_decimal n.natAbs) _ (List.mem_of_mem_head? heq)
      revert hdigit
      decide
    simp only [hhead, decide_false, Bool.false_eq_true, if_false, digits_decimal, digits_value,
      Bool.not_true]
    rw [if_pos (by omega)]
    congr 1
    omega

theorem inI64_as_i64 {v : Value} {n : Int} (h : as_i64 v = some n) : InI64 n := by
  unfold as_i64 at h
  split at h
  · dsimp only at h
    split_ifs at h with hdigits hneg hrange hsmall
    · simp only [Bool.and_eq_true, decide_eq_true_eq] at hrange
      cases h
      constructor <;> omega
    · cases h
      constructor <;> omega
  · cases h

theorem inI64_sequence_of (v : Value) : InI64 (sequence_of v) := by
  unfold sequence_of
  cases h : (get v (ascii "sequence")).bind as_i64 with
  | none => constructor <;> decide
  | some n =>
    obtain ⟨w, -, hw⟩ := Option.bind_eq_some_iff.mp h
    exact inI64_as_i64 hw

/-! ## Texts that are values -/

/-- The text is a value and has no control character. -/
structure IsValue (t : Text) : Prop where
  visible : Visible t
  reads : ∃ v, Reads t v

/-- The text is a value that ends by itself. -/
structure IsWhole (t : Text) : Prop where
  visible : Visible t
  whole : ∃ v, Whole t v

theorem IsWhole.isValue {t : Text} (h : IsWhole t) : IsValue t := by
  obtain ⟨v, hv⟩ := h.whole
  exact ⟨h.visible, v, hv.toReads⟩

theorem isValue_integer (n : Int) : IsValue (integer n) := ⟨visible_integer n, _, reads_integer n⟩

theorem isValue_decimal (n : Nat) : IsValue (decimal n) := ⟨visible_decimal n, _, reads_decimal n⟩

theorem isValue_false : IsValue (ascii "false") :=
  ⟨visible_of_plain (by decide), .bool false, reads_of_parse rfl⟩

theorem isWhole_array {ts : List Text} (h : ∀ t ∈ ts, IsWhole t) : IsWhole (arrayText ts) := by
  have hvalues : ∃ vs, List.Forall₂ Whole ts vs := by
    induction ts with
    | nil => exact ⟨[], .nil⟩
    | cons t ts ih =>
      obtain ⟨v, hv⟩ := (h t List.mem_cons_self).whole
      obtain ⟨vs, hvs⟩ := ih fun u hu => h u (List.mem_cons_of_mem _ hu)
      exact ⟨v :: vs, .cons hv hvs⟩
  obtain ⟨vs, hvs⟩ := hvalues
  refine ⟨?_, _, whole_arrayText hvs⟩
  simp only [arrayText, visible_append, visible_cons]
  exact ⟨⟨by decide, visible_joined fun t ht => (h t ht).visible⟩, by decide, by simp [Visible]⟩

/-- Members with plain keys and texts that are values. -/
def AllValues (ms : List (Text × Text)) : Prop := ∀ m ∈ ms, m.1.all isPlain = true ∧ IsValue m.2

theorem AllValues.nil : AllValues [] := by
  intro m hm
  cases hm

theorem AllValues.cons {k t : Text} {ms : List (Text × Text)} (hk : k.all isPlain = true)
    (ht : IsValue t) (h : AllValues ms) : AllValues ((k, t) :: ms) :=
  List.forall_mem_cons.mpr ⟨⟨hk, ht⟩, h⟩

section texts

variable (serde : SerdeText)

theorem stringPart_escape (s : Text) : StringPart (s.flatMap serde.escape_byte) := by
  induction s with
  | nil => exact (stringPart_of_spells .nil)
  | cons c s ih =>
    rw [List.flatMap_cons]
    refine StringPart.append ?_ ih
    cases hplain : isPlain c with
    | true =>
      rw [serde.plain c hplain]
      exact stringPart_of_spells (spells_byte hplain)
    | false => exact serde.escape_stands c hplain

theorem isWhole_string (s : Text) : IsWhole (serde.string s) :=
  ⟨serde.visible_string s, whole_of_stringPart (stringPart_escape serde s)⟩

theorem isWhole_object {ms : List (Text × Text)} (h : AllValues ms) :
    IsWhole (serde.object ms) := by
  have hvalues : ∀ ts, AllValues ts → ∃ vs, Members ts vs := by
    intro ts hts
    induction ts with
    | nil => exact ⟨[], .nil⟩
    | cons m ts ih =>
      obtain ⟨hplain, -, v, hv⟩ := hts m List.mem_cons_self
      obtain ⟨vs, hvs⟩ := ih fun u hu => hts u (List.mem_cons_of_mem _ hu)
      exact ⟨(m.1, v) :: vs, .cons hplain hv hvs⟩
  obtain ⟨vs, hvs⟩ := hvalues (serde.order ms)
    fun m hm => h m ((serde.order_perm ms).mem_iff.mp hm)
  refine ⟨serde.visible_object fun m hm => ?_, _, whole_objectText hvs⟩
  exact visible_memberText (h m hm).1 (h m hm).2.visible

/-! ## The header of a reply -/

/-- The text before the blank line of a reply is an object with this sequence. -/
def CarriesSequence (reply : Text) (sequence : Int) : Prop :=
  ∃ v, parse (before_blank_line reply) = some v ∧
    (get v (ascii "sequence")).bind as_i64 = some sequence

theorem parse_header {reply : Text} (hreply : IsValue reply) {sequence : Int} (result : Int)
    (hsequence : InI64 sequence) :
    ∃ v, parse (control_response serde sequence result reply) = some v ∧
      (get v (ascii "sequence")).bind as_i64 = some sequence := by
  obtain ⟨-, v, hv⟩ := hreply
  have hmembers : Members [(ascii "result", integer result), (ascii "sequence", integer sequence),
      (ascii "reply", reply)] [(ascii "result", .num (integer result)),
      (ascii "sequence", .num (integer sequence)), (ascii "reply", v)] :=
    .cons (by decide) (reads_integer _) (.cons (by decide) (reads_integer _)
      (.cons (by decide) hv .nil))
  obtain ⟨ms, hms, hparse, -⟩ := reads_serde_object serde.toSerdeJson hmembers (by simp)
  refine ⟨.obj ms, hparse, ?_⟩
  rw [get_of_perm hms (v := .num (integer sequence)) rfl]
  exact as_i64_integer hsequence

theorem visible_control_response {reply : Text} (hreply : IsValue reply) (sequence result : Int) :
    Visible (control_response serde sequence result reply) := by
  apply IsWhole.visible
  apply isWhole_object
  exact .cons (by decide) (isValue_integer _) (.cons (by decide) (isValue_integer _)
    (.cons (by decide) hreply .nil))

theorem before_blank_line_of_visible {t : Text} (h : Visible t) : before_blank_line t = t := by
  have hfind : find t (ascii "\n\n") 0 = none := by
    rw [find_eq_none_iff, List.drop_zero]
    intro hwithin
    have := h 0x0A (hwithin.subset (by decide))
    revert this
    decide
  rw [before_blank_line, hfind]

theorem carries_control_response {reply : Text} (hreply : IsValue reply) {sequence : Int}
    (result : Int) (hsequence : InI64 sequence) :
    CarriesSequence (control_response serde sequence result reply) sequence := by
  rw [CarriesSequence,
    before_blank_line_of_visible (visible_control_response serde hreply sequence result)]
  exact parse_header serde hreply result hsequence

theorem carries_reply_frame {reply : Text} (hreply : IsValue reply) {sequence : Int}
    (result : Int) (hsequence : InI64 sequence) (payload : Text) :
    CarriesSequence (build_reply_frame serde.toSerdeJson sequence result reply payload)
      sequence := by
  obtain ⟨hfind, hheader, -⟩ :=
    find_separator (visible_control_response serde hreply sequence result) payload
  have hbefore : before_blank_line (build_reply_frame serde.toSerdeJson sequence result reply
      payload) = control_response serde sequence result reply := by
    rw [before_blank_line, build_reply_frame]
    rw [control_response] at hfind hheader ⊢
    rw [hfind]
    exact hheader
  rw [CarriesSequence, hbefore]
  exact parse_header serde hreply result hsequence

/-! ## The branches -/

theorem isValue_empty_object : IsValue (serde.object []) :=
  (isWhole_object serde .nil).isValue

theorem isValue_string (s : Text) : IsValue (serde.string s) := (isWhole_string serde s).isValue

theorem isValue_object {ms : List (Text × Text)} (h : AllValues ms) : IsValue (serde.object ms) :=
  (isWhole_object serde h).isValue

section branches

variable {sequence : Int}

theorem carries_error_frame (hsequence : InI64 sequence) (result : Int) :
    CarriesSequence (build_error_frame serde sequence result) sequence :=
  carries_reply_frame serde (isValue_empty_object serde) result hsequence []

theorem carries_control_error (hsequence : InI64 sequence) (result : Int) :
    CarriesSequence (control_error_response serde sequence result) sequence :=
  carries_control_response serde (isValue_empty_object serde) result hsequence

theorem carries_file_download (hsequence : InI64 sequence) (world : Outside) (req : Value) :
    CarriesSequence (file_download serde world sequence req) sequence := by
  unfold file_download
  dsimp only
  split_ifs
  · exact carries_error_frame serde hsequence 10
  · split
    · refine carries_reply_frame serde (isValue_object serde ?_) 0 hsequence _
      exact .cons (by decide) (isValue_decimal _) (.cons (by decide) (isValue_decimal _)
        (.cons (by decide) (isValue_decimal _) (.cons (by decide) (isValue_string serde _)
        (.cons (by decide) (isValue_string serde _)
        (.cons (by decide) (isValue_string serde _) .nil)))))
    · exact carries_error_frame serde hsequence 10

/-- The reply that describes a picture. -/
theorem isValue_picture (path thumbnail mimetype : Text) (size : Nat) :
    IsValue (serde.object [(ascii "path", serde.string path),
      (ascii "thumbnail", serde.string thumbnail), (ascii "mimetype", serde.string mimetype),
      (ascii "size", decimal size), (ascii "continue", ascii "false")]) := by
  apply isValue_object
  exact .cons (by decide) (isValue_string serde _) (.cons (by decide) (isValue_string serde _)
    (.cons (by decide) (isValue_string serde _) (.cons (by decide) (isValue_decimal _)
    (.cons (by decide) isValue_false .nil))))

theorem carries_sub_file (hsequence : InI64 sequence) (world : Outside) (req : Value) :
    CarriesSequence (sub_file serde world sequence req) sequence := by
  have herror := carries_error_frame serde hsequence 10
  unfold sub_file
  dsimp only
  split
  · exact herror
  · split_ifs
    · split
      · refine carries_reply_frame serde (isValue_object serde ?_) 0 hsequence _
        exact .cons (by decide) (isValue_string serde _) (.cons (by decide) (isValue_decimal _)
          (.cons (by decide) isValue_false .nil))
      · exact herror
    · split
      · split
        · exact carries_reply_frame serde (isValue_picture serde _ _ _ _) 0 hsequence _
        · exact herror
      · split
        · split
          · exact carries_reply_frame serde (isValue_picture serde _ _ _ _) 0 hsequence _
          · exact herror
        · exact herror

/-! ## The server's reply -/

theorem isWhole_file_entry (remote_dir : Option Text) (file : RemoteFile) :
    IsWhole (file_entry serde remote_dir file) := by
  apply isWhole_object
  exact .cons (by decide) (isValue_string serde _) (.cons (by decide) (isValue_string serde _)
    (.cons (by decide) (isValue_integer _) (.cons (by decide) (isValue_decimal _) .nil)))

/-- An object with one member, which is a list. -/
theorem isValue_list_reply {key : Text} (hkey : key.all isPlain = true) {ts : List Text}
    (h : ∀ t ∈ ts, IsWhole t) : IsValue (serde.object [(key, arrayText ts)]) := by
  apply isValue_object
  exact .cons hkey (isWhole_array h).isValue .nil

theorem isValue_list_files {printer : Printer} {requested_type reply : Text}
    (h : list_files_via_ftps serde printer requested_type = some reply) : IsValue reply := by
  unfold list_files_via_ftps at h
  split_ifs at h
  · cases h
    exact isValue_list_reply serde (by decide) (by simp)
  · obtain ⟨raw_entries, -, rfl⟩ := Option.map_eq_some_iff.mp h
    refine isValue_list_reply serde (by decide) fun t ht => ?_
    obtain ⟨file, -, rfl⟩ := List.mem_map.mp ht
    exact isWhole_file_entry serde _ file

theorem carries_handle_control_message (printer : Printer) {data : Text} {root : Value}
    (h : serde.from_str data = some root) :
    CarriesSequence (handle_control_message serde printer data) (sequence_of root) := by
  have hsequence := inI64_sequence_of root
  rw [handle_control_message, h]
  dsimp only
  split_ifs
  · refine carries_control_response serde (isValue_list_reply serde (by decide) ?_) 0 hsequence
    intro t ht
    rw [List.mem_singleton.mp ht]
    exact isWhole_string serde _
  · split
    · rename_i reply hreply
      exact carries_control_response serde (isValue_list_files serde hreply) 0 hsequence
    · exact carries_control_error serde hsequence 17
  · exact carries_control_error serde hsequence 18

end branches

/-! ## Requests and replies -/

theorem carries_unique {reply : Text} {m n : Int} (h : CarriesSequence reply m)
    (h' : CarriesSequence reply n) : m = n := by
  obtain ⟨v, hv, hm⟩ := h
  obtain ⟨w, hw, hn⟩ := h'
  rw [hv] at hw
  cases hw
  rw [hm] at hn
  exact Option.some.inj hn

theorem carries_ne_nil {reply : Text} {n : Int} (h : CarriesSequence reply n) : reply ≠ [] := by
  rintro rfl
  obtain ⟨v, hv, -⟩ := h
  cases hv

/-- The parts of a text around its first blank line. -/
theorem eq_around_blank_line (t : Text) : ∃ separator : Text, separator.all isSpace = true ∧
    t = before_blank_line t ++ (separator ++ behind_blank_line t) := by
  unfold before_blank_line behind_blank_line
  cases hfind : find t (ascii "\n\n") 0 with
  | none => exact ⟨[], rfl, by simp⟩
  | some i =>
    refine ⟨ascii "\n\n", by decide, ?_⟩
    rw [← List.append_assoc]
    exact find_split hfind

/-- The server understands a request exactly when nothing but spaces is behind its blank
line. -/
theorem from_str_whole {data : Text} {ms : List Member}
    (h : serde.from_str (before_blank_line data) = some (.obj ms)) :
    serde.from_str data =
      if (behind_blank_line data).all isSpace = true then some (.obj ms) else none := by
  obtain ⟨separator, hseparator, hdata⟩ := eq_around_blank_line data
  split_ifs with hspaces
  · have hall : (separator ++ behind_blank_line data).all isSpace = true := by
      rw [List.all_append, hseparator, hspaces]
      rfl
    rw [hdata]
    exact serde.from_str_spaces _ _ _ h hall
  · cases hv : serde.from_str data with
    | none => rfl
    | some v =>
      have hparse := serde.from_str_sound _ _ hv
      rw [hdata] at hparse
      have hall := spaces_of_parse (serde.from_str_sound _ _ h) hparse
      rw [List.all_append, Bool.and_eq_true] at hall
      exact absurd hall.2 hspaces

/-- The client answers the request itself. -/
def AnsweredHere (request : Value) : Prop := cmdtype_of request = 4 ∨ cmdtype_of request = 2

/-- No reply comes from the server. -/
def OutOfReach (world : Outside) : Prop :=
  world.connect_client = false ∨ world.rpc = false ∨ world.lookup_printer = none

/-- The client and the server give the request the same sequence. -/
def ReadAlike (world : Outside) (data : Text) (request : Value) : Prop :=
  AnsweredHere request ∨ OutOfReach world ∨ (behind_blank_line data).all isSpace = true ∨
    sequence_of request = 0

/-- A request that the client passes on, and the server answers or not. -/
theorem tunnel_request_passed_on {world : Outside} {data : Text} {request : Value}
    (h : serde.from_str (before_blank_line data) = some request) (hhere : ¬ AnsweredHere request) :
    (OutOfReach world ∧ bambu_network_rs_tunnel_request serde world data = []) ∨
    ∃ printer, ¬ OutOfReach world ∧ bambu_network_rs_tunnel_request serde world data =
      handle_control_message serde printer data := by
  rw [AnsweredHere, not_or] at hhere
  rw [bambu_network_rs_tunnel_request, h]
  dsimp only
  rw [if_neg hhere.1, if_neg hhere.2]
  cases hconnect : world.connect_client with
  | false => exact .inl ⟨.inl hconnect, rfl⟩
  | true =>
    cases hrpc : world.rpc with
    | false => exact .inl ⟨.inr (.inl hrpc), rfl⟩
    | true =>
      cases hprinter : world.lookup_printer with
      | none => exact .inl ⟨.inr (.inr hprinter), rfl⟩
      | some printer =>
        refine .inr ⟨printer, ?_, rfl⟩
        rw [OutOfReach, hconnect, hrpc, hprinter]
        simp

theorem carries_answered_here {world : Outside} {data : Text} {request : Value}
    (h : serde.from_str (before_blank_line data) = some request) (hhere : AnsweredHere request) :
    CarriesSequence (bambu_network_rs_tunnel_request serde world data) (sequence_of request) := by
  have hsequence := inI64_sequence_of request
  rw [bambu_network_rs_tunnel_request, h]
  dsimp only
  rcases hhere with hcmd | hcmd
  · rw [if_pos hcmd]
    exact carries_file_download serde hsequence world _
  · rw [if_neg (by omega), if_pos hcmd]
    exact carries_sub_file serde hsequence world _

theorem tunnel_replies_are_correlated_iff (world : Outside) (data : Text) (ms : List Member)
    (h : serde.from_str (before_blank_line data) = some (.obj ms)) :
    (bambu_network_rs_tunnel_request serde world data ≠ [] →
      CarriesSequence (bambu_network_rs_tunnel_request serde world data) (sequence_of (.obj ms))) ↔
    ReadAlike world data (.obj ms) := by
  by_cases hhere : AnsweredHere (.obj ms)
  · exact iff_of_true (fun _ => carries_answered_here serde h hhere) (.inl hhere)
  obtain ⟨hout, hreply⟩ | ⟨printer, hreach, hreply⟩ := tunnel_request_passed_on serde h hhere
  · exact iff_of_true (fun hne => absurd hreply hne) (.inr (.inl hout))
  have hserver := from_str_whole serde h
  rw [hreply]
  split_ifs at hserver with hspaces
  · refine iff_of_true (fun _ => ?_) (.inr (.inr (.inl hspaces)))
    exact carries_handle_control_message serde printer hserver
  · -- The server has not understood the request and answers with sequence 0.
    have hzero : CarriesSequence (handle_control_message serde printer data) 0 := by
      rw [handle_control_message, hserver]
      exact carries_control_error serde (by constructor <;> decide) 2
    constructor
    · intro hcarries
      exact .inr (.inr (.inr (carries_unique (hcarries (carries_ne_nil hzero)) hzero)))
    · rintro (hlocal | hout | hall | hsequence) _
      · exact absurd hlocal hhere
      · exact absurd hout hreach
      · exact absurd hall hspaces
      · rwa [hsequence]

end texts

/-- A printer without files, and a way to the server. -/
def reachable : Outside where
  tunnel_download_file := fun _ => none
  extract_zip_entry := fun _ _ => none
  md5_hex := fun _ => []
  connect_client := true
  rpc := true
  lookup_printer := some fun _ => some []

def listRequest : Text := ascii "\x7b\"sequence\":7,\"cmdtype\":1\x7d"

def listMembers : List Member :=
  [(ascii "sequence", .num (ascii "7")), (ascii "cmdtype", .num (ascii "1"))]

theorem list_reply_is_correlated :
    CarriesSequence (bambu_network_rs_tunnel_request default reachable
      (listRequest ++ ascii "\n\n")) 7 := by
  have h : (default : SerdeText).from_str (before_blank_line (listRequest ++ ascii "\n\n")) =
      some (.obj listMembers) := rfl
  refine (tunnel_replies_are_correlated_iff default reachable _ listMembers h).mpr
    (.inr (.inr (.inl rfl))) ?_
  decide +kernel

/-- A request with a body behind its blank line is answered with sequence 0. -/
theorem request_with_a_body_is_not_correlated :
    (default : SerdeText).from_str (before_blank_line (listRequest ++ ascii "\n\nbody")) =
      some (.obj listMembers) ∧
    bambu_network_rs_tunnel_request default reachable (listRequest ++ ascii "\n\nbody") ≠ [] ∧
    ¬ CarriesSequence (bambu_network_rs_tunnel_request default reachable
      (listRequest ++ ascii "\n\nbody")) (sequence_of (.obj listMembers)) := by
  refine ⟨rfl, by decide +kernel, fun hcarries => ?_⟩
  have hzero : CarriesSequence (bambu_network_rs_tunnel_request default reachable
      (listRequest ++ ascii "\n\nbody")) 0 := by
    have hreply : bambu_network_rs_tunnel_request default reachable
        (listRequest ++ ascii "\n\nbody") = control_error_response default 0 2 := by
      decide +kernel
    rw [hreply]
    exact carries_control_error default (by constructor <;> decide) 2
  exact absurd (carries_unique hcarries hzero) (by decide +kernel)

end bambu_farm_client.tunnel_requests
