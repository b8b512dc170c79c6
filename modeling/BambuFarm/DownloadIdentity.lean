-- The identity of a downloaded file. A reply that is cut into frames gives each
-- frame the path and the digests that regular expressions read from the text of
-- its header: escaped ones, which are then escaped again. The path comes through
-- when it needs no escape, and not otherwise.
import BambuFarm.TunnelRequests

open json search serde_json
open bambu_farm_client.print_job

namespace bambu_farm_client.tunnel_protocol

/-! ## The law -/

/-- What a decoder relies on of `serde_json`: the text of a string is JSON for that string. -/
structure SerdeStrings extends SerdeJson where
  parse_string : ∀ s, parse (toSerdeJson.string s) = some (.str s)

/-- A digest in hex digits. -/
structure Md5 where
  text : Text
  digits : text.all (fun c => (hexDigit c).isSome) = true

/-- The header is JSON, and its reply names the file. -/
def NamesFile (header path file_md5 ftp_file_md5 : Text) : Prop :=
  ∃ v reply, parse header = some v ∧ get v (ascii "reply") = some reply ∧
    (get reply (ascii "path")).bind as_str = some path ∧
    (get reply (ascii "file_md5")).bind as_str = some file_md5 ∧
    (get reply (ascii "ftp_file_md5")).bind as_str = some ftp_file_md5

/-- Each frame of a response names the file. -/
def KeepsIdentity (response path file_md5 ftp_file_md5 : Text) : Prop :=
  ∀ t ∈ split_file_download_response_frames response, ∃ header payload,
    split_frame t = some (header, payload) ∧ NamesFile header path file_md5 ftp_file_md5

/-! ## The header of the response -/

section

variable (serde : SerdeStrings) (size total : Nat) (file_md5 ftp_file_md5 path : Text)

theorem reads_serde_string (s : Text) : Reads (serde.string s) (.str s) :=
  reads_of_parse (serde.parse_string s)

/-- The reply of a download names its file. -/
theorem names_reply_header (sequence : Nat) :
    NamesFile (reply_header serde.toSerdeJson size total file_md5 ftp_file_md5 path sequence)
      path file_md5 ftp_file_md5 := by
  have hreply : Members [(ascii "size", decimal size), (ascii "offset", decimal 0),
      (ascii "total", decimal total), (ascii "file_md5", serde.string file_md5),
      (ascii "ftp_file_md5", serde.string ftp_file_md5), (ascii "path", serde.string path)]
      [(ascii "size", .num (decimal size)), (ascii "offset", .num (decimal 0)),
        (ascii "total", .num (decimal total)), (ascii "file_md5", .str file_md5),
        (ascii "ftp_file_md5", .str ftp_file_md5), (ascii "path", .str path)] :=
    .cons (by decide) (reads_decimal _) (.cons (by decide) (reads_decimal _)
      (.cons (by decide) (reads_decimal _) (.cons (by decide) (reads_serde_string serde _)
      (.cons (by decide) (reads_serde_string serde _)
      (.cons (by decide) (reads_serde_string serde _) .nil)))))
  obtain ⟨rs, hrs, -, hreads⟩ := reads_serde_object serde.toSerdeJson hreply (by simp)
  have hheader : Members [(ascii "result", integer 0), (ascii "sequence", integer sequence),
      (ascii "reply", download_reply serde.toSerdeJson size total file_md5 ftp_file_md5 path)]
      [(ascii "result", .num (decimal 0)), (ascii "sequence", .num (decimal sequence)),
        (ascii "reply", .obj rs)] := by
    rw [integer_natCast]
    exact .cons (by decide) (reads_decimal _) (.cons (by decide) (reads_decimal _)
      (.cons (by decide) hreads .nil))
  obtain ⟨vs, hvs, hparse, -⟩ := reads_serde_object serde.toSerdeJson hheader (by simp)
  refine ⟨.obj vs, .obj rs, hparse, get_of_perm hvs rfl, ?_, ?_, ?_⟩
  · rw [get_of_perm hrs (v := .str path) rfl]
    rfl
  · rw [get_of_perm hrs (v := .str file_md5) rfl]
    rfl
  · rw [get_of_perm hrs (v := .str ftp_file_md5) rfl]
    rfl

end

/-! ## What the search reads of it -/

section

variable (serde : SerdeJson) (size total : Nat) (file_md5 ftp_file_md5 path : Text)

/-- In an object of numbers and strings the search reads the string of its key. -/
theorem yields_string_of_members {key s : Text} {members : List (Text × Text)}
    (h : ∀ x ∈ members, x = (key, serde.string s) ∨
      PassesOver key x.1 ∧ ((∃ n, x.2 = decimal n) ∨ ∃ t, x.2 = serde.string t))
    (hmem : (key, serde.string s) ∈ members) :
    Yields (matchString key) (serde.object members)
      ((s.flatMap serde.escape_byte).takeWhile fun c => c ≠ quote) := by
  have hm := keyed_matchString key
  have hself : Yields (matchString key) (memberText key (serde.string s))
      ((s.flatMap serde.escape_byte).takeWhile fun c => c ≠ quote) := yields_string_member key _
  apply serde.yields_object hm
  · intro x hx
    rcases h x hx with rfl | ⟨hpasses, ⟨n, hn⟩ | ⟨t, ht⟩⟩
    · exact Or.inr hself
    · rw [hn]
      exact Or.inl (passes_decimal_member hm hpasses n)
    · rw [ht]
      exact Or.inl (passes_string_member serde hm hpasses t)
  · exact ⟨_, hmem, hself⟩

/-- The member of the reply that the search for `key` reads. -/
def ReplyString (key s : Text) : Prop :=
  Yields (matchString key) (download_reply serde size total file_md5 ftp_file_md5 path)
    ((s.flatMap serde.escape_byte).takeWhile fun c => c ≠ quote)

theorem replyString_path :
    ReplyString serde size total file_md5 ftp_file_md5 path (ascii "path") path := by
  apply yields_string_of_members
  · simp only [List.forall_mem_cons, List.not_mem_nil, false_implies, implies_true, and_true]
    exact ⟨Or.inr ⟨by decide, Or.inl ⟨_, rfl⟩⟩, Or.inr ⟨by decide, Or.inl ⟨_, rfl⟩⟩,
      Or.inr ⟨by decide, Or.inl ⟨_, rfl⟩⟩, Or.inr ⟨by decide, Or.inr ⟨_, rfl⟩⟩,
      Or.inr ⟨by decide, Or.inr ⟨_, rfl⟩⟩, Or.inl trivial⟩
  · simp

theorem replyString_file_md5 :
    ReplyString serde size total file_md5 ftp_file_md5 path (ascii "file_md5") file_md5 := by
  apply yields_string_of_members
  · simp only [List.forall_mem_cons, List.not_mem_nil, false_implies, implies_true, and_true]
    exact ⟨Or.inr ⟨by decide, Or.inl ⟨_, rfl⟩⟩, Or.inr ⟨by decide, Or.inl ⟨_, rfl⟩⟩,
      Or.inr ⟨by decide, Or.inl ⟨_, rfl⟩⟩, Or.inl trivial, Or.inr ⟨by decide, Or.inr ⟨_, rfl⟩⟩,
      Or.inr ⟨by decide, Or.inr ⟨_, rfl⟩⟩⟩
  · simp

theorem replyString_ftp_file_md5 :
    ReplyString serde size total file_md5 ftp_file_md5 path (ascii "ftp_file_md5")
      ftp_file_md5 := by
  apply yields_string_of_members
  · simp only [List.forall_mem_cons, List.not_mem_nil, false_implies, implies_true, and_true]
    exact ⟨Or.inr ⟨by decide, Or.inl ⟨_, rfl⟩⟩, Or.inr ⟨by decide, Or.inl ⟨_, rfl⟩⟩,
      Or.inr ⟨by decide, Or.inl ⟨_, rfl⟩⟩, Or.inr ⟨by decide, Or.inr ⟨_, rfl⟩⟩, Or.inl trivial,
      Or.inr ⟨by decide, Or.inr ⟨_, rfl⟩⟩⟩
  · simp

/-- The search reads it from the whole header. -/
theorem extract_of_replyString {key s : Text} (sequence : Nat)
    (hresult : PassesOver key (ascii "result")) (hsequence : PassesOver key (ascii "sequence"))
    (hreply : PassesOver key (ascii "reply"))
    (h : ReplyString serde size total file_md5 ftp_file_md5 path key s) :
    extract_json_string (reply_header serde size total file_md5 ftp_file_md5 path sequence) key =
      (s.flatMap serde.escape_byte).takeWhile fun c => c ≠ quote := by
  have hm := keyed_matchString key
  have hf := hm.yields_in_member hreply h
  have hyields : Yields (matchString key)
      (reply_header serde size total file_md5 ftp_file_md5 path sequence)
      ((s.flatMap serde.escape_byte).takeWhile fun c => c ≠ quote) := by
    apply serde.yields_object hm
    · simp only [List.forall_mem_cons, List.not_mem_nil, false_implies, implies_true, and_true,
        integer_natCast]
      exact ⟨Or.inl (passes_decimal_member hm hresult 0),
        Or.inl (passes_decimal_member hm hsequence _), Or.inr hf⟩
    · exact ⟨(ascii "reply", download_reply serde size total file_md5 ftp_file_md5 path),
        by simp, hf⟩
  have hfound := hyields [] delimited_nil
  rw [List.append_nil] at hfound
  rw [extract_json_string, searchString_eq, hfound, Option.getD_some]

end

/-! ## Escapes that are read as text -/

section

variable (serde : SerdeStrings)

theorem parse_quoted {e s : Text} (h : Spells e s) :
    parse (quote :: e ++ [quote]) = some (.str s) := by
  rw [parse, eval, start, ← List.append_nil (quote :: e ++ [quote]), run_append, run_string h,
    Option.bind_some]
  rfl

/-- Only the escape of a quote has a quote. -/
theorem quote_notMem_escape {c : UInt8} (h : c ≠ quote) : quote ∉ serde.escape_byte c := by
  cases hc : isPlain c with
  | true =>
    rw [serde.plain c hc, List.mem_singleton]
    exact h.symm
  | false =>
    obtain ⟨d, rest, he, -, hrest⟩ := serde.escaped c hc
    have hd : d ≠ quote := by
      rintro rfl
      -- such an escape would read as a quote
      have hspells : Spells (serde.escape_byte c) (quote :: rest) := by
        rw [he]
        exact (spells_escape (c := quote) (by decide) rfl).append (spells_plain hrest)
      have hparse := serde.parse_string [c]
      rw [SerdeJson.string, List.flatMap_singleton, parse_quoted hspells] at hparse
      simp only [Option.some.injEq, Value.str.injEq, List.cons.injEq] at hparse
      exact h hparse.1.symm
    rw [he, List.mem_cons, List.mem_cons]
    rintro (hq | hq | hq)
    · exact absurd hq (by decide)
    · exact hd hq.symm
    · have hplain := List.all_eq_true.mp hrest quote hq
      revert hplain
      decide

theorem quote_notMem_escapes {s : Text} (h : quote ∉ s) :
    quote ∉ s.flatMap serde.escape_byte := by
  rw [List.mem_flatMap]
  rintro ⟨c, hc, hq⟩
  exact quote_notMem_escape serde (fun heq => h (heq ▸ hc)) hq

theorem length_escape_byte (c : UInt8) :
    if isPlain c then (serde.escape_byte c).length = 1 else 2 ≤ (serde.escape_byte c).length := by
  split
  · rename_i hc
    rw [serde.plain c hc]
    rfl
  · rename_i hc
    obtain ⟨d, rest, he, -, -⟩ := serde.escaped c (by simpa using hc)
    rw [he, List.length_cons, List.length_cons]
    omega

/-- A text with an escape is longer than what it spells. -/
theorem length_escapes (s : Text) : s.length ≤ (s.flatMap serde.escape_byte).length ∧
    ((s.flatMap serde.escape_byte).length = s.length → s.all isPlain = true) := by
  induction s with
  | nil => exact ⟨le_refl 0, fun _ => rfl⟩
  | cons c s ih =>
    obtain ⟨hle, hplain⟩ := ih
    have hc := length_escape_byte serde c
    rw [List.flatMap_cons, List.length_append, List.length_cons, List.all_cons]
    split at hc
    · rename_i hcplain
      refine ⟨by omega, fun heq => ?_⟩
      rw [hcplain, hplain (by omega)]
      rfl
    · exact ⟨by omega, fun heq => by omega⟩

theorem escapes_of_plain {s : Text} (h : s.all isPlain = true) :
    s.flatMap serde.escape_byte = s := by
  induction s with
  | nil => rfl
  | cons c s ih =>
    rw [List.all_cons, Bool.and_eq_true] at h
    rw [List.flatMap_cons, serde.plain c h.1, ih h.2]
    rfl

theorem quote_notMem_of_plain {s : Text} (h : s.all isPlain = true) : quote ∉ s := by
  intro hq
  have hplain := List.all_eq_true.mp h quote hq
  revert hplain
  decide

/-- What the search reads is the string itself exactly when no byte needs an escape. -/
theorem read_back_iff (s : Text) :
    ((s.flatMap serde.escape_byte).takeWhile fun c => c ≠ quote) = s ↔ s.all isPlain = true := by
  have htake : ∀ t : Text, quote ∉ t → (t.takeWhile fun c => c ≠ quote) = t := by
    intro t ht
    rw [List.takeWhile_eq_self_iff]
    intro c hc
    rw [decide_eq_true_eq]
    rintro rfl
    exact ht hc
  constructor
  · intro h
    have hquote : quote ∉ s := by
      intro hq
      rw [← h] at hq
      have hne := List.mem_takeWhile_imp hq
      simp at hne
    rw [htake _ (quote_notMem_escapes serde hquote)] at h
    exact (length_escapes serde s).2 (congrArg List.length h)
  · intro h
    rw [escapes_of_plain serde h]
    exact htake s (quote_notMem_of_plain h)

end

/-! ## The frames -/

theorem plain_of_hexDigit (n : Fin 256) :
    (hexDigit (.ofFin n)).isSome = true → isPlain (.ofFin n) = true := by
  revert n
  decide +kernel

theorem Md5.plain (d : Md5) : d.text.all isPlain = true := by
  rw [List.all_eq_true]
  intro c hc
  have h := plain_of_hexDigit c.toFin
  rw [UInt8.ofFin_toFin] at h
  exact h (List.all_eq_true.mp d.digits c hc)

/-- A frame tells the strings that it was made of, and no others. -/
theorem names_frame_header_iff {f : FrameFields} (h : f.Clean) (result chunk_size offset : Nat)
    (path file_md5 ftp_file_md5 : Text) :
    NamesFile (frame_header f result chunk_size offset) path file_md5 ftp_file_md5 ↔
      f.path = path ∧ f.file_md5 = file_md5 ∧ f.ftp_file_md5 = ftp_file_md5 := by
  have hparse := parse_frame_header h result chunk_size offset
  unfold NamesFile
  rw [hparse]
  constructor
  · rintro ⟨v, reply, hv, hreply, hpath, hfile, hftp⟩
    cases hv
    cases hreply
    cases hpath
    cases hfile
    cases hftp
    exact ⟨rfl, rfl, rfl⟩
  · rintro ⟨rfl, rfl, rfl⟩
    exact ⟨_, _, rfl, rfl, rfl, rfl, rfl⟩

theorem split_frame_header {f : FrameFields} (h : f.Clean) (payload : Text) (offset : Nat) :
    ∃ result chunk_size, split_frame (frame f payload offset) = some
      (frame_header f result chunk_size offset, (payload.drop offset).take chunk_size) :=
  ⟨_, _, split_frame_append (visible_frame_header h _ _ _) _⟩

section

variable (serde : SerdeStrings) (sequence : Nat) (path : Text) (file_md5 ftp_file_md5 : Md5)
  (blob : Blob)

/-- What the frames of a download say of the file. -/
theorem download_fields_eq :
    let f := download_fields serde.toSerdeJson sequence path file_md5.text ftp_file_md5.text blob
    f.path = ((path.flatMap serde.escape_byte).takeWhile fun c => c ≠ quote) ∧
      f.file_md5 = file_md5.text ∧ f.ftp_file_md5 = ftp_file_md5.text := by
  refine ⟨?_, ?_, ?_⟩
  · exact extract_of_replyString _ _ _ _ _ _ sequence (by decide) (by decide) (by decide)
      (replyString_path _ _ _ _ _ _)
  · refine (extract_of_replyString _ _ _ _ _ _ sequence (by decide) (by decide) (by decide)
      (replyString_file_md5 _ _ _ _ _ _)).trans ?_
    exact (read_back_iff serde _).mpr file_md5.plain
  · refine (extract_of_replyString _ _ _ _ _ _ sequence (by decide) (by decide) (by decide)
      (replyString_ftp_file_md5 _ _ _ _ _ _)).trans ?_
    exact (read_back_iff serde _).mpr ftp_file_md5.plain

/-- The frames of a large file name it exactly when its path needs no escape. -/
theorem keepsIdentity_large (hsequence : sequence < 2 ^ 63)
    (hlarge : kTunnelDownloadChunkSize < blob.bytes.length) :
    KeepsIdentity (download_response serde.toSerdeJson sequence path file_md5.text
      ftp_file_md5.text blob) path file_md5.text ftp_file_md5.text ↔ path.all isPlain = true := by
  obtain ⟨hpath, hfile, hftp⟩ :=
    download_fields_eq serde sequence path file_md5 ftp_file_md5 blob
  have hclean := clean_download_fields serde.toSerdeJson sequence path file_md5.text
    ftp_file_md5.text blob
  unfold KeepsIdentity
  rw [split_download_fields _ _ _ _ _ _ hsequence hlarge, ← read_back_iff serde path, ← hpath]
  generalize download_fields serde.toSerdeJson sequence path file_md5.text ftp_file_md5.text
    blob = f at hfile hftp hclean ⊢
  constructor
  · intro h
    have hfirst : frame f blob.bytes 0 ∈ frames_from f blob.bytes 0 := by
      rw [frames_from, if_pos (by omega)]
      exact List.mem_cons_self
    obtain ⟨header, payload, hsplit, hnames⟩ := h _ hfirst
    obtain ⟨result, chunk_size, hheader⟩ := split_frame_header hclean blob.bytes 0
    rw [hheader, Option.some.injEq, Prod.mk.injEq] at hsplit
    rw [← hsplit.1] at hnames
    exact ((names_frame_header_iff hclean _ _ _ _ _ _).mp hnames).1
  · intro h t ht
    obtain ⟨i, hi⟩ := List.getElem?_of_mem ht
    have hframe := (frames_from_get f blob.bytes 0 i hi).1
    obtain ⟨result, chunk_size, hheader⟩ := split_frame_header hclean blob.bytes
      (0 + i * kTunnelDownloadChunkSize)
    rw [hframe]
    exact ⟨_, _, hheader, (names_frame_header_iff hclean _ _ _ _ _ _).mpr ⟨h, hfile, hftp⟩⟩

/-- A small file is named by the reply itself. -/
theorem keepsIdentity_small (hsmall : blob.bytes.length ≤ kTunnelDownloadChunkSize) :
    KeepsIdentity (download_response serde.toSerdeJson sequence path file_md5.text
      ftp_file_md5.text blob) path file_md5.text ftp_file_md5.text := by
  intro t ht
  rw [split_small_download _ _ _ _ _ _ hsmall, List.mem_singleton] at ht
  subst ht
  exact ⟨_, _, split_frame_response _ _ _ _ _ _, names_reply_header serde _ _ _ _ _ _⟩

end

/-- Downloads keep the identity of their file exactly when the file fits into one chunk, or its
path has no quote, no backslash and no control character. -/
theorem downloads_keep_the_file_identity_iff (serde : SerdeStrings) (sequence : Fin (2 ^ 63))
    (path : Text) (file_md5 ftp_file_md5 : Md5) (blob : Blob) :
    KeepsIdentity (build_reply_frame serde.toSerdeJson sequence.val 0
        (download_reply serde.toSerdeJson blob.bytes.length blob.bytes.length file_md5.text
          ftp_file_md5.text path) blob.bytes) path file_md5.text ftp_file_md5.text ↔
      blob.bytes.length ≤ kTunnelDownloadChunkSize ∨ path.all isPlain = true := by
  rcases Nat.lt_or_ge kTunnelDownloadChunkSize blob.bytes.length with hlarge | hsmall
  · rw [or_iff_right (Nat.not_le.mpr hlarge)]
    exact keepsIdentity_large serde sequence.val path file_md5 ftp_file_md5 blob sequence.isLt
      hlarge
  · exact iff_of_true
      (keepsIdentity_small serde sequence.val path file_md5 ftp_file_md5 blob hsmall) (Or.inl hsmall)

/-! ## A writer that keeps the members in order -/

theorem decode_cons {q : Piece} {c : UInt8} (h : Stands q c) (ps : List Piece) :
    decode (q :: ps) = c :: decode ps := by
  rcases h with rfl | ⟨rfl, hc⟩
  · rfl
  · have hutf8 : utf8 c.toNat = [c] := by
      unfold utf8
      rw [if_pos (by omega)]
      simp
    cases ps with
    | nil => simp [decode, hutf8]
    | cons p ps =>
      cases p with
      | byte b => simp [decode, hutf8]
      | code n =>
        rw [decode, if_neg (by omega), hutf8]
        rfl

theorem decode_stands {qs : List Piece} {s : Text} (h : List.Forall₂ Stands qs s) :
    decode qs = s := by
  induction h with
  | nil => rfl
  | cons hq _ ih => rw [decode_cons hq, ih]

theorem run_ordered_escapes (s : Text) : ∃ qs, List.Forall₂ Stands qs s ∧ ∀ fs isKey ps,
    run ⟨fs, .str isKey ps⟩ (s.flatMap SerdeJson.ordered_escape_byte) =
      some ⟨fs, .str isKey (ps ++ qs)⟩ := by
  induction s with
  | nil => exact ⟨[], .nil, fun fs isKey ps => by simp [run]⟩
  | cons c s ih =>
    obtain ⟨q, hq, hread⟩ := reads_ordered_escape c
    obtain ⟨qs, hqs, hrun⟩ := ih
    refine ⟨q :: qs, .cons hq hqs, fun fs isKey ps => ?_⟩
    rw [List.flatMap_cons, run_append, hread, Option.bind_some, hrun, List.append_assoc]
    rfl

instance : Inhabited SerdeStrings where
  default := {
    (default : SerdeJson) with
    parse_string := fun s => by
      obtain ⟨qs, hqs, hrun⟩ := run_ordered_escapes s
      have hstart : step start quote = some ⟨[], .str false []⟩ := rfl
      have hescape : (default : SerdeJson).escape_byte = SerdeJson.ordered_escape_byte := rfl
      rw [SerdeJson.string, hescape, parse, eval, List.cons_append, run, hstart, Option.bind_some,
        run_append, hrun, Option.bind_some]
      simp only [run, step, if_true, endString, List.nil_append, decode_stands hqs]
      rfl }

/-- A model whose name has a quote, and more than a chunk of it. -/
theorem a_quoted_path_is_lost :
    ¬ KeepsIdentity (build_reply_frame (default : SerdeStrings).toSerdeJson 7 0
      (download_reply (default : SerdeStrings).toSerdeJson largeFile.bytes.length
        largeFile.bytes.length (ascii "a0") (ascii "a0") (ascii "the \"big\" one.3mf"))
      largeFile.bytes) (ascii "the \"big\" one.3mf") (ascii "a0") (ascii "a0") := by
  have hdigits : (ascii "a0").all (fun c => (hexDigit c).isSome) = true := by decide
  have hlength : largeFile.bytes.length = kTunnelDownloadChunkSize + 1 := List.length_replicate
  intro h
  have hplain := (keepsIdentity_large default 7 (ascii "the \"big\" one.3mf")
    ⟨ascii "a0", hdigits⟩ ⟨ascii "a0", hdigits⟩ largeFile (by decide) (by omega)).mp h
  revert hplain
  decide

end bambu_farm_client.tunnel_protocol
