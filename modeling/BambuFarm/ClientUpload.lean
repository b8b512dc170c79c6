-- The upload of the client. It reads the local file chunk by chunk into the
-- stream of the upload RPC. A read that fails ends the stream as the end of
-- the file does, so the server takes the part read so far for the whole file.
import BambuFarm.Uploads

open frames bambu_farm
open bambu_farm_server.printers bambu_farm_server.uploads
open bambu_farm_client.errors

namespace bambu_farm_client.uploads

/-! ## The model -/

def UPLOAD_CHUNK_SIZE : Nat := 256 * 1024

/-- What one `read` of the file gives: some bytes, or an I/O error. -/
inductive ReadResult
  | data (bytes : Bytes)
  | error
  deriving DecidableEq

/-- The ways to read what is left of a file: in pieces of any size up to the chunk size,
until the end or until a read fails. At the end a read gives no bytes. -/
inductive Reads : Bytes → List ReadResult → Prop
  | eof : Reads [] []
  | data {bytes rest : Bytes} {rs : List ReadResult} : bytes ≠ [] →
      bytes.length ≤ UPLOAD_CHUNK_SIZE → Reads rest rs → Reads (bytes ++ rest) (.data bytes :: rs)
  | error {rest : Bytes} : Reads rest [.error]

/-- A local file with the reads that an upload makes of it. -/
structure LocalFile where
  content : Bytes
  reads : List ReadResult
  valid : Reads content reads

/-- The stream that `unfold` makes of the reads. Both the end of the file and an error
give `None`. -/
def chunk_stream (device_id remote_filename : String) : List ReadResult → List UploadFileChunk
  | [] => []
  | .error :: _ => []
  | .data bytes :: rs =>
    if bytes = [] then [] else
      ⟨device_id, bytes, remote_filename⟩ :: chunk_stream device_id remote_filename rs

/-- The farm that an upload talks to: whether it can be reached, its printers, its upload
handler, and whether its reply arrives. -/
structure Server where
  reachable : Bool
  printers : List Printer
  upload_handler : UploadHandler
  reply_arrives : Bool

/-- The result of the upload and the calls of the upload handler. `file` is `none` when
the local file does not open. -/
def bambu_network_rs_upload_file (server : Server) (device_id : String)
    (file : Option (List ReadResult)) (remote_filename : String) : Int × List UploadCall :=
  if !server.reachable then (BAMBU_NETWORK_ERR_SEND_MSG_FAILED, []) else
    match file with
    | none => (BAMBU_NETWORK_ERR_SEND_MSG_FAILED, [])
    | some reads =>
      let result := (upload_file_stream server.printers server.upload_handler
        { chunks := chunk_stream device_id remote_filename reads }).run []
      if !server.reply_arrives then (BAMBU_NETWORK_ERR_SEND_MSG_FAILED, finalState result) else
        match result with
        | .ok true calls => (BAMBU_NETWORK_SUCCESS, calls)
        | .ok false calls => (BAMBU_NETWORK_ERR_SEND_MSG_FAILED, calls)
        | .error _ calls => (BAMBU_NETWORK_ERR_SEND_MSG_FAILED, calls)

/-! ## What the stream carries -/

/-- The offset at which a read fails, counted from `offset`. -/
def failsAt (offset : Nat) : List ReadResult → Option Nat
  | [] => none
  | .error :: _ => some offset
  | .data bytes :: rs => failsAt (offset + bytes.length) rs

/-- A read fails after the first byte and before the last one has been read. -/
def LocalFile.BreaksInside (file : LocalFile) : Prop :=
  ∃ o, failsAt 0 file.reads = some o ∧ 0 < o ∧ o < file.content.length

theorem chunk_stream_uniform (device_id remote_filename : String) (rs : List ReadResult) :
    Uniform (chunk_stream device_id remote_filename rs) device_id remote_filename := by
  induction rs with
  | nil => simp [Uniform, chunk_stream]
  | cons r rs ih =>
    cases r with
    | error => simp [Uniform, chunk_stream]
    | data bytes =>
      unfold chunk_stream
      split
      · simp [Uniform]
      · intro chunk hc
        rcases List.mem_cons.mp hc with rfl | hc
        · exact ⟨rfl, rfl⟩
        · exact ih chunk hc

/-- With no failing read the stream carries the whole file. -/
theorem contentOf_chunk_stream (device_id remote_filename : String) {content : Bytes}
    {rs : List ReadResult} (h : Reads content rs) (offset : Nat) :
    (failsAt offset rs = none ∧ contentOf (chunk_stream device_id remote_filename rs) = content) ∨
    ∃ n ≤ content.length, failsAt offset rs = some (offset + n) ∧
      contentOf (chunk_stream device_id remote_filename rs) = content.take n := by
  induction h generalizing offset with
  | eof => exact Or.inl ⟨rfl, rfl⟩
  | error => exact Or.inr ⟨0, Nat.zero_le _, rfl, rfl⟩
  | @data bytes rest rs hne _ _ ih =>
    have hcons : contentOf (chunk_stream device_id remote_filename (.data bytes :: rs)) =
        bytes ++ contentOf (chunk_stream device_id remote_filename rs) := by
      simp [chunk_stream, hne, contentOf]
    simp only [failsAt, hcons]
    rcases ih (offset + bytes.length) with ⟨hf, hc⟩ | ⟨n, hn, hf, hc⟩
    · exact Or.inl ⟨hf, by rw [hc]⟩
    · refine Or.inr ⟨bytes.length + n, by simp; omega, ?_, ?_⟩
      · rw [hf, Nat.add_assoc]
      · rw [hc, List.take_length_add_append]

/-- A chunk of the stream is never empty, so a stream with no content has no chunk. -/
theorem chunk_stream_eq_nil (device_id remote_filename : String) (rs : List ReadResult)
    (h : contentOf (chunk_stream device_id remote_filename rs) = []) :
    chunk_stream device_id remote_filename rs = [] := by
  cases rs with
  | nil => rfl
  | cons r rs =>
    cases r with
    | error => rfl
    | data bytes =>
      by_cases hb : bytes = []
      · simp [chunk_stream, hb]
      · simp [chunk_stream, hb, contentOf] at h

/-- A file that does not break inside is sent whole, or not at all. -/
theorem chunk_stream_of_sound (device_id remote_filename : String) (file : LocalFile)
    (h : ¬ file.BreaksInside) :
    chunk_stream device_id remote_filename file.reads = [] ∨
      contentOf (chunk_stream device_id remote_filename file.reads) = file.content := by
  rcases contentOf_chunk_stream device_id remote_filename file.valid 0 with
    ⟨-, hc⟩ | ⟨n, hn, hf, hc⟩
  · exact Or.inr hc
  · rw [Nat.zero_add] at hf
    by_cases h0 : n = 0
    · subst h0
      exact Or.inl (chunk_stream_eq_nil _ _ _ (by simpa using hc))
    · have hlen : n = file.content.length := by
        by_contra hlt
        exact h ⟨n, hf, by omega, by omega⟩
      right
      rw [hc, hlen, List.take_length]

/-! ## The law of an upload -/

/-- The upload of the file is complete: success means that the handler was called with the
whole content for the remote name. -/
def LocalFile.UploadsWhole (file : LocalFile) : Prop :=
  ∀ (server : Server) (device_id remote_filename : String) (calls : List UploadCall),
    bambu_network_rs_upload_file server device_id (some file.reads) remote_filename =
      (BAMBU_NETWORK_SUCCESS, calls) →
    ∃ printer, calls = [⟨printer, remote_filename, file.content, file.content.length⟩]

/-- Success of the upload is success of the stream RPC. -/
theorem upload_file_success (server : Server) (device_id remote_filename : String)
    (rs : List ReadResult) (calls : List UploadCall)
    (h : bambu_network_rs_upload_file server device_id (some rs) remote_filename =
      (BAMBU_NETWORK_SUCCESS, calls)) :
    (upload_file_stream server.printers server.upload_handler
      { chunks := chunk_stream device_id remote_filename rs }).run [] = .ok true calls := by
  have hne : BAMBU_NETWORK_ERR_SEND_MSG_FAILED ≠ BAMBU_NETWORK_SUCCESS := by decide
  unfold bambu_network_rs_upload_file at h
  split at h
  · simp [hne] at h
  · dsimp only at h
    split at h
    · simp [hne] at h
    · split at h
      · rename_i hr
        simp only [Prod.mk.injEq, true_and] at h
        rw [hr, h]
      · simp [hne] at h
      · simp [hne] at h

/-- The call of a stream that succeeds has the content and the path of its chunks. -/
theorem call_of_stream {printers : List Printer} {upload_handler : UploadHandler}
    {chunks : List UploadFileChunk} {dev_id remote_path : String} {calls : List UploadCall}
    (hu : Uniform chunks dev_id remote_path)
    (h : (upload_file_stream printers upload_handler { chunks }).run [] = .ok true calls) :
    chunks ≠ [] ∧ ∃ printer,
      calls = [⟨printer, remote_path, contentOf chunks, (contentOf chunks).length⟩] := by
  rcases upload_file_stream_run printers upload_handler { chunks } with
    ⟨call, ⟨-, hne, dev_id', hu', -, hc, ht⟩, -, hr⟩ | ⟨-, err, hr⟩
  · refine ⟨hne, call.printer, ?_⟩
    rw [h] at hr
    simp only [finalState] at hr hc
    rw [hr, (uniform_unique hne hu hu').2, ← hc, ← ht]
  · rw [hr] at h
    cases h

/-- A printer that takes every upload. -/
def willing : Server where
  reachable := true
  printers := [⟨"", "printer-1", "", "", ""⟩]
  upload_handler _ := some (.ok true)
  reply_arrives := true

/-- A stream with a chunk for a willing printer succeeds with what it carries. -/
theorem willing_takes (rs : List ReadResult) (remote_filename : String)
    (hne : chunk_stream "printer-1" remote_filename rs ≠ []) :
    bambu_network_rs_upload_file willing "printer-1" (some rs) remote_filename =
      (BAMBU_NETWORK_SUCCESS, [⟨⟨"", "printer-1", "", "", ""⟩, remote_filename,
        contentOf (chunk_stream "printer-1" remote_filename rs),
        (contentOf (chunk_stream "printer-1" remote_filename rs)).length⟩]) := by
  have hrun := upload_file_stream_uniform willing.printers willing.upload_handler
    { chunks := chunk_stream "printer-1" remote_filename rs } _ _ rfl hne
    (chunk_stream_uniform "printer-1" remote_filename rs)
  simp only [bambu_network_rs_upload_file, hrun]
  rfl

/-- An upload is complete exactly when no read fails inside the file. A read that fails
before the first byte sends nothing, and one that fails after the last byte has sent it
all; between the two the server is given a part of the file, and success is reported. -/
theorem a_successful_upload_is_complete (file : LocalFile) :
    file.UploadsWhole ↔ ¬ file.BreaksInside := by
  constructor
  · rintro hw ⟨o, hf, h0, hlt⟩
    rcases contentOf_chunk_stream "printer-1" "" file.valid 0 with ⟨hn, -⟩ | ⟨n, -, hn, hc⟩
    · rw [hn] at hf
      cases hf
    · have hno : n = o := by
        rw [hn] at hf
        simpa using hf
      subst hno
      have hlen : (contentOf (chunk_stream "printer-1" "" file.reads)).length = n := by
        rw [hc, List.length_take]
        omega
      have hne : chunk_stream "printer-1" "" file.reads ≠ [] := by
        intro he
        rw [he] at hlen
        simp [contentOf] at hlen
        omega
      obtain ⟨printer, hcalls⟩ := hw willing "printer-1" "" _ (willing_takes file.reads "" hne)
      simp only [List.cons.injEq, UploadCall.mk.injEq, true_and, and_true] at hcalls
      omega
  · intro hs server device_id remote_filename calls hok
    obtain ⟨hne, printer, hcalls⟩ := call_of_stream
      (chunk_stream_uniform device_id remote_filename file.reads)
      (upload_file_success server device_id remote_filename file.reads calls hok)
    rcases chunk_stream_of_sound device_id remote_filename file hs with he | hc
    · exact absurd he hne
    · exact ⟨printer, by rw [hcalls, hc]⟩

/-- A file of two bytes whose second read fails. -/
def tornFile : LocalFile where
  content := [1, 2]
  reads := [.data [1], .error]
  valid := by
    have h : Reads ([1] ++ [2]) [.data [1], .error] := .data (by decide) (by decide) .error
    exact h

/-- The upload of the torn file succeeds although the printer got one byte of two. -/
theorem a_torn_upload_succeeds : ¬ tornFile.UploadsWhole := by
  intro hw
  obtain ⟨printer, h⟩ := hw willing "printer-1" "job.gcode.3mf" _
    (willing_takes tornFile.reads "job.gcode.3mf" (by decide))
  simp [tornFile, chunk_stream, contentOf] at h

end bambu_farm_client.uploads
