-- The upload of a file, end to end: the client reads the local file into a
-- stream of chunks, the server puts the chunks together again in a temporary
-- file and hands it to the upload handler. The temporary file takes every
-- write, and gRPC delivers the stream as it was sent.
import BambuFarm.Printers

open frames bambu_farm
open bambu_farm_server.printers

namespace bambu_farm_server.uploads

/-! ## The handlers of the server -/

/-- What a call of the upload handler gets: the file is given by its content. -/
structure UploadCall where
  printer : Printer
  remote_path : String
  content : Bytes
  total_bytes : Nat
  deriving DecidableEq

/-- The upload handler: its result, or `none` when it panics. -/
abbrev UploadHandler := UploadCall → Option (Except Status Bool)

/-- An upload handler of the server, with the calls of the upload handler so far. -/
abbrev UploadM := EStateM Status (List UploadCall)

def upload_temp_file (upload_handler : UploadHandler) (call : UploadCall) : UploadM Bool := do
  modify (· ++ [call])
  match upload_handler call with
  | some (.ok success) => pure success
  | some (.error err) => throw err
  | none => throw ⟨.Internal, "Upload task panicked"⟩

def upload_file (printers : List Printer) (upload_handler : UploadHandler)
    (req : UploadFileRequest) : UploadM Bool := do
  let printer ← MonadExcept.ofExcept (lookup_printer printers req.dev_id)
  upload_temp_file upload_handler ⟨printer, req.remote_path, req.blob, req.blob.length⟩

/-- The chunks that arrive, and the transport error that ends them, if one does. -/
structure ChunkStream where
  chunks : List UploadFileChunk
  broken : Option Status := none

/-- The locals of the receive loop. -/
structure Assembly where
  dev_id : Option String := none
  remote_path : Option String := none
  temp : Bytes := []
  total_bytes : Nat := 0

/-- One turn of the receive loop. -/
def receive (a : Assembly) (chunk : UploadFileChunk) : Except Status Assembly :=
  if a.dev_id.isNone then
    .ok { dev_id := some chunk.dev_id, remote_path := some chunk.remote_path,
          temp := a.temp ++ chunk.blob, total_bytes := a.total_bytes + chunk.blob.length }
  else if a.dev_id ≠ some chunk.dev_id ∨ a.remote_path ≠ some chunk.remote_path then
    .error ⟨.InvalidArgument, "Upload stream metadata changed mid-stream"⟩
  else
    .ok { a with temp := a.temp ++ chunk.blob, total_bytes := a.total_bytes + chunk.blob.length }

def receive_all (a : Assembly) : List UploadFileChunk → Except Status Assembly
  | [] => .ok a
  | chunk :: rest =>
    match receive a chunk with
    | .ok a' => receive_all a' rest
    | .error err => .error err

def upload_file_stream (printers : List Printer) (upload_handler : UploadHandler)
    (stream : ChunkStream) : UploadM Bool := do
  let a ← MonadExcept.ofExcept (receive_all {} stream.chunks)
  match stream.broken with
  | some err => throw err
  | none =>
    match a.dev_id, a.remote_path with
    | some dev_id, some remote_path =>
      let printer ← MonadExcept.ofExcept (lookup_printer printers dev_id)
      upload_temp_file upload_handler ⟨printer, remote_path, a.temp, a.total_bytes⟩
    | _, _ => throw ⟨.InvalidArgument, "Upload stream was empty"⟩

/-! ## The assembled file -/

/-- The blobs of the chunks, in order. -/
def contentOf (chunks : List UploadFileChunk) : Bytes := (chunks.map (·.blob)).flatten

/-- Every chunk names the same device and remote path. -/
def Uniform (chunks : List UploadFileChunk) (dev_id remote_path : String) : Prop :=
  ∀ chunk ∈ chunks, chunk.dev_id = dev_id ∧ chunk.remote_path = remote_path

/-- After the first chunk, the loop runs to the end exactly when the other chunks name
what the first one named. -/
theorem receive_all_latched (chunks : List UploadFileChunk) (dev_id remote_path : String)
    (temp : Bytes) (total : Nat) :
    (Uniform chunks dev_id remote_path →
      receive_all ⟨some dev_id, some remote_path, temp, total⟩ chunks =
        .ok ⟨some dev_id, some remote_path, temp ++ contentOf chunks,
          total + (contentOf chunks).length⟩) ∧
    (¬ Uniform chunks dev_id remote_path →
      receive_all ⟨some dev_id, some remote_path, temp, total⟩ chunks =
        .error ⟨.InvalidArgument, "Upload stream metadata changed mid-stream"⟩) := by
  induction chunks generalizing temp total with
  | nil => simp [Uniform, receive_all, contentOf]
  | cons chunk rest ih =>
    have hcons : Uniform (chunk :: rest) dev_id remote_path ↔
        (chunk.dev_id = dev_id ∧ chunk.remote_path = remote_path) ∧
          Uniform rest dev_id remote_path := by
      simp [Uniform]
    by_cases hc : chunk.dev_id = dev_id ∧ chunk.remote_path = remote_path
    · have hr : receive ⟨some dev_id, some remote_path, temp, total⟩ chunk =
          .ok ⟨some dev_id, some remote_path, temp ++ chunk.blob, total + chunk.blob.length⟩ := by
        simp [receive, hc]
      simp only [hcons, hc, true_and, receive_all, hr]
      obtain ⟨h1, h2⟩ := ih (temp ++ chunk.blob) (total + chunk.blob.length)
      refine ⟨fun hu => ?_, h2⟩
      rw [h1 hu]
      simp [contentOf, Nat.add_assoc]
    · have hr : receive ⟨some dev_id, some remote_path, temp, total⟩ chunk =
          .error ⟨.InvalidArgument, "Upload stream metadata changed mid-stream"⟩ := by
        rw [not_and_or] at hc
        simp only [receive, Option.isNone_some, Bool.false_eq_true, if_false, ne_eq,
          Option.some.injEq]
        rw [if_pos]
        rcases hc with h | h
        · exact Or.inl (Ne.symm h)
        · exact Or.inr (Ne.symm h)
      simp [hcons, hc, receive_all, hr]

/-- The loop of a stream whose chunks all name the same device and path. -/
theorem receive_all_uniform (chunks : List UploadFileChunk) (dev_id remote_path : String)
    (hne : chunks ≠ []) (hu : Uniform chunks dev_id remote_path) :
    receive_all {} chunks = .ok ⟨some dev_id, some remote_path, contentOf chunks,
      (contentOf chunks).length⟩ := by
  cases chunks with
  | nil => exact absurd rfl hne
  | cons chunk rest =>
    obtain ⟨h1, h2⟩ := hu chunk List.mem_cons_self
    have hrest : Uniform rest dev_id remote_path := fun c hc => hu c (List.mem_cons_of_mem _ hc)
    simp only [receive_all, receive, Option.isNone_none, if_true, h1, h2, List.nil_append]
    rw [(receive_all_latched rest dev_id remote_path _ _).1 hrest]
    simp [contentOf]

/-- The loop of a stream whose chunks do not all name the same device and path. -/
theorem receive_all_mixed (chunks : List UploadFileChunk)
    (h : ∀ dev_id remote_path, ¬ Uniform chunks dev_id remote_path) :
    receive_all {} chunks =
      .error ⟨.InvalidArgument, "Upload stream metadata changed mid-stream"⟩ := by
  cases chunks with
  | nil => exact absurd (by simp [Uniform]) (h "" "")
  | cons chunk rest =>
    simp only [receive_all, receive, Option.isNone_none, if_true]
    apply (receive_all_latched rest _ _ _ _).2
    intro hrest
    apply h chunk.dev_id chunk.remote_path
    intro c hc
    rcases List.mem_cons.mp hc with rfl | hc
    · exact ⟨rfl, rfl⟩
    · exact hrest c hc

/-! ## The stream against the whole file -/

/-- A stream of chunks that name one device and path is an upload of their blobs. -/
theorem upload_file_stream_uniform (printers : List Printer) (upload_handler : UploadHandler)
    (stream : ChunkStream) (dev_id remote_path : String) (hb : stream.broken = none)
    (hne : stream.chunks ≠ []) (hu : Uniform stream.chunks dev_id remote_path) :
    upload_file_stream printers upload_handler stream =
      upload_file printers upload_handler ⟨dev_id, contentOf stream.chunks, remote_path⟩ := by
  unfold upload_file_stream upload_file
  rw [receive_all_uniform _ _ _ hne hu, hb]
  rfl

/-- Any other stream fails before the handler is called. -/
theorem upload_file_stream_fails (printers : List Printer) (upload_handler : UploadHandler)
    (stream : ChunkStream) (calls : List UploadCall)
    (h : stream.broken ≠ none ∨ stream.chunks = [] ∨
      ∀ dev_id remote_path, ¬ Uniform stream.chunks dev_id remote_path) :
    ∃ err, (upload_file_stream printers upload_handler stream).run calls = .error err calls := by
  unfold upload_file_stream
  rw [EStateM.run_bind]
  cases hr : receive_all {} stream.chunks with
  | error err => exact ⟨err, rfl⟩
  | ok a =>
    cases hb : stream.broken with
    | some err => exact ⟨err, rfl⟩
    | none =>
      rcases h with h | h | h
      · exact absurd hb h
      · rw [h] at hr
        simp only [receive_all, Except.ok.injEq] at hr
        subst hr
        exact ⟨_, rfl⟩
      · rw [receive_all_mixed _ h] at hr
        cases hr

theorem upload_temp_file_calls (upload_handler : UploadHandler) (call : UploadCall)
    (calls : List UploadCall) :
    finalState ((upload_temp_file upload_handler call).run calls) = calls ++ [call] := by
  unfold upload_temp_file
  rw [EStateM.run_bind, EStateM.run_modify]
  cases upload_handler call with
  | none => rfl
  | some r => cases r <;> rfl

/-- The call of the upload handler that a stream asks for: the stream came to its end, it
has a chunk, its chunks name one device and path, and the device is a configured printer. -/
def Complete (printers : List Printer) (stream : ChunkStream) (call : UploadCall) : Prop :=
  stream.broken = none ∧ stream.chunks ≠ [] ∧
    ∃ dev_id, Uniform stream.chunks dev_id call.remote_path ∧
      printers.find? (fun printer => printer.id = dev_id) = some call.printer ∧
      call.content = contentOf stream.chunks ∧ call.total_bytes = call.content.length

/-- The device and the path of a stream are those of its first chunk. -/
theorem uniform_unique {chunks : List UploadFileChunk} {d d' p p' : String} (hne : chunks ≠ [])
    (h : Uniform chunks d p) (h' : Uniform chunks d' p') : d = d' ∧ p = p' := by
  obtain ⟨chunk, hc⟩ := List.exists_mem_of_ne_nil _ hne
  exact ⟨(h chunk hc).1.symm.trans (h' chunk hc).1, (h chunk hc).2.symm.trans (h' chunk hc).2⟩

/-- How a stream ends: with the one call that it asks for, or with an error and no call. -/
theorem upload_file_stream_run (printers : List Printer) (upload_handler : UploadHandler)
    (stream : ChunkStream) :
    (∃ call, Complete printers stream call ∧
      (∀ call', Complete printers stream call' → call' = call) ∧
      finalState ((upload_file_stream printers upload_handler stream).run []) = [call]) ∨
    ((∀ call, ¬ Complete printers stream call) ∧
      ∃ err, (upload_file_stream printers upload_handler stream).run [] = .error err []) := by
  by_cases h : stream.broken ≠ none ∨ stream.chunks = [] ∨
      ∀ dev_id remote_path, ¬ Uniform stream.chunks dev_id remote_path
  · right
    refine ⟨fun call hc => ?_, upload_file_stream_fails printers upload_handler stream [] h⟩
    obtain ⟨hb, hne, dev_id, hu, -⟩ := hc
    rcases h with h | h | h
    · exact h hb
    · exact hne h
    · exact h dev_id call.remote_path hu
  · push Not at h
    obtain ⟨hb, hne, dev_id, remote_path, hu⟩ := h
    rw [upload_file_stream_uniform printers upload_handler stream dev_id remote_path hb hne hu]
    unfold upload_file lookup_printer
    rw [EStateM.run_bind]
    dsimp only
    cases hf : printers.find? (fun printer => printer.id = dev_id) with
    | none =>
      right
      refine ⟨fun call hc => ?_, _, rfl⟩
      obtain ⟨-, -, dev_id', hu', hf', -⟩ := hc
      rw [(uniform_unique hne hu hu').1] at hf
      rw [hf] at hf'
      cases hf'
    | some printer =>
      left
      refine ⟨⟨printer, remote_path, contentOf stream.chunks, (contentOf stream.chunks).length⟩,
        ⟨hb, hne, dev_id, hu, hf, rfl, rfl⟩, ?_, ?_⟩
      · rintro ⟨printer', remote_path', content', total'⟩ ⟨-, -, dev_id', hu', hf', hc, ht⟩
        obtain ⟨hd, hp⟩ := uniform_unique hne hu hu'
        subst hd
        rw [hf] at hf'
        cases hf'
        simp only at hp hc ht
        rw [hp, ht, hc]
      · rw [run_ofExcept_ok]
        exact upload_temp_file_calls _ _ []

/-- The stream upload is the upload of the whole file. The upload handler is called at most
once, and with a call exactly when the stream asks for it: with the printer, the path, the
blobs in order and their length. Every other stream ends with an error and no call. So any
way of cutting a file into one or more chunks has the outcome of the upload in one piece. -/
theorem a_stream_upload_is_the_upload_of_the_whole_file (printers : List Printer)
    (upload_handler : UploadHandler) (stream : ChunkStream) :
    (finalState ((upload_file_stream printers upload_handler stream).run [])).length ≤ 1 ∧
    (∀ call, finalState ((upload_file_stream printers upload_handler stream).run []) = [call] ↔
      Complete printers stream call) ∧
    ((∀ call, ¬ Complete printers stream call) →
      ∃ err, (upload_file_stream printers upload_handler stream).run [] = .error err []) ∧
    ∀ dev_id remote_path blob, stream.broken = none → stream.chunks ≠ [] →
      Uniform stream.chunks dev_id remote_path → contentOf stream.chunks = blob →
      (upload_file_stream printers upload_handler stream).run [] =
        (upload_file printers upload_handler ⟨dev_id, blob, remote_path⟩).run [] := by
  refine ⟨?_, ?_, ?_, ?_⟩
  · rcases upload_file_stream_run printers upload_handler stream with
      ⟨call, -, -, hr⟩ | ⟨-, err, hr⟩
    · simp [hr]
    · simp [hr, finalState]
  · intro call
    rcases upload_file_stream_run printers upload_handler stream with
      ⟨call', hc, huniq, hr⟩ | ⟨hn, err, hr⟩
    · rw [hr]
      constructor
      · intro h
        simp only [List.cons.injEq, and_true] at h
        exact h ▸ hc
      · intro h
        rw [huniq call h]
    · simp [hr, finalState, hn call]
  · intro hn
    rcases upload_file_stream_run printers upload_handler stream with ⟨call, hc, -⟩ | ⟨-, hr⟩
    · exact absurd hc (hn call)
    · exact hr
  · intro dev_id remote_path blob hb hne hu hblob
    rw [upload_file_stream_uniform printers upload_handler stream dev_id remote_path hb hne hu,
      hblob]

end bambu_farm_server.uploads
