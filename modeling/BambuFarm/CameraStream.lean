-- The camera stream of a printer: packets of a header and a JPEG picture over
-- a socket that gives its bytes in pieces. The worker reads the packets, and
-- offers the pictures to a short queue that the plugin reads from. What it
-- offers depends on the bytes alone, not on how they come in pieces.
import BambuFarm.Channels
import BambuFarm.Proto

open runs channels bambu_farm

namespace bambu_farm_client.camera

/-! ## The reader -/

/-- One turn of the read loop: the read gives some bytes, it is interrupted, it fails, or
the loop finds the stop flag set. -/
inductive Turn
  | bytes (first : UInt8) (rest : Bytes)
  | would_block
  | timed_out
  | failed (err : String)
  | stopped
  deriving DecidableEq

/-- What the turns of the read loops will find. At the end of the list the stream has
ended. -/
abbrev Script := List Turn

/-- `Ok(true)` with the bytes read, `Ok(false)`, or an error. `buf` is what the loop has
read so far of `len` bytes. -/
def read_exact_interruptible (len : Nat) (buf : Bytes) (script : Script) :
    Except String (Option Bytes) × Script :=
  if len ≤ buf.length then (.ok (some buf), script)
  else match script with
    | [] => (.ok none, [])
    | .stopped :: script => (.ok none, .stopped :: script)
    | .would_block :: script => read_exact_interruptible len buf script
    | .timed_out :: script => read_exact_interruptible len buf script
    | .failed err :: script => (.error ("camera read failed: " ++ err), script)
    | .bytes c cs :: script =>
      -- A read takes no more than the buffer has room for, the rest stays in the socket.
      match (c :: cs).drop (len - buf.length) with
      | [] => read_exact_interruptible len (buf ++ c :: cs) script
      | d :: ds => (.ok (some (buf ++ (c :: cs).take (len - buf.length))), .bytes d ds :: script)

/-- The bytes that the script holds, with one more for each of its turns. -/
def size : Script → Nat
  | [] => 0
  | .bytes _ cs :: script => cs.length + 2 + size script
  | _ :: script => size script + 1

/-- What is read is gone. -/
theorem size_read_exact {len : Nat} {buf b : Bytes} {script script' : Script}
    (h : read_exact_interruptible len buf script = (.ok (some b), script')) :
    size script' + (len - buf.length) ≤ size script := by
  induction script generalizing buf with
  | nil =>
    unfold read_exact_interruptible at h
    split at h
    · cases h
      omega
    · cases h
  | cons t script ih =>
    unfold read_exact_interruptible at h
    split at h
    · cases h
      omega
    · cases t with
      | stopped => cases h
      | failed err => cases h
      | would_block =>
        have := ih h
        simp only [size]
        omega
      | timed_out =>
        have := ih h
        simp only [size]
        omega
      | bytes c cs =>
        dsimp only at h
        split at h
        · rename_i hdrop
          have hlen := congrArg List.length hdrop
          have := ih h
          simp only [List.length_append, List.length_cons, List.length_drop, List.length_nil,
            size] at this hlen ⊢
          omega
        · rename_i d ds hdrop
          cases h
          have hlen := congrArg List.length hdrop
          simp only [List.length_cons, List.length_drop, size] at hlen ⊢
          omega

/-! ## The worker -/

def CAMERA_STREAM_ENDED : Int := 1
def CAMERA_STREAM_ERROR : Int := -1
def CAMERA_QUEUE_DEPTH : Nat := 8

def CAMERA_PACKET_MAGIC : Bytes := [0, 0, 0, 0, 1, 0, 0, 0, 0, 0, 0, 0]

/-- `u32::from_le_bytes` -/
def from_le_bytes (bytes : Bytes) : Nat := bytes.foldr (fun c n => c.toNat + 256 * n) 0

/-- The header and the payload are those of a picture. -/
def isPicture (header payload : Bytes) : Bool :=
  header.drop 4 = CAMERA_PACKET_MAGIC && 4 ≤ payload.length &&
    [0xFF, 0xD8].isPrefixOf payload && [0xFF, 0xD9].isSuffixOf payload

/-- The two reads of a turn of the loop: the header, and the payload that it announces. -/
def read_packet (script : Script) : Except String (Option (Bytes × Bytes)) × Script :=
  match read_exact_interruptible 16 [] script with
  | (.error err, script) => (.error err, script)
  | (.ok none, script) => (.ok none, script)
  | (.ok (some header), script) =>
    match read_exact_interruptible (from_le_bytes (header.take 4)) [] script with
    | (.error err, script) => (.error err, script)
    | (.ok none, script) => (.ok none, script)
    | (.ok (some payload), script) => (.ok (some (header, payload)), script)

theorem size_read_packet {script script' : Script} {packet : Bytes × Bytes}
    (h : read_packet script = (.ok (some packet), script')) : size script' < size script := by
  unfold read_packet at h
  split at h
  · cases h
  · cases h
  · rename_i header script₁ hheader
    have hsize₁ := size_read_exact hheader
    split at h
    · cases h
    · cases h
    · rename_i payload script₂ hpayload
      have hsize₂ := size_read_exact hpayload
      cases h
      simp only [List.length_nil] at hsize₁ hsize₂
      omega

/-- The loop of `camera_stream_worker`, with the payloads that it has offered so far.
`disconnected n` says that `try_send` finds the receiver gone at offer `n`. The result is all
that it offers, and the state that it leaves. -/
def camera_loop (disconnected : Nat → Bool) (script : Script) (offered : List Bytes) :
    List Bytes × Int :=
  if script.head? = some .stopped then (offered, CAMERA_STREAM_ENDED)
  else
    match _ : read_packet script with
    | (.error _, _) => (offered, CAMERA_STREAM_ERROR)
    | (.ok none, _) => (offered, CAMERA_STREAM_ENDED)
    | (.ok (some (header, payload)), script') =>
      if isPicture header payload then
        if disconnected offered.length then (offered ++ [payload], CAMERA_STREAM_ENDED)
        else camera_loop disconnected script' (offered ++ [payload])
      else camera_loop disconnected script' offered
termination_by size script
decreasing_by
  all_goals exact size_read_packet ‹_›

/-- `connected` is what the connect, the handshake and the authentication give. -/
def camera_stream_worker (connected : Except String Script) (disconnected : Nat → Bool) :
    List Bytes × Int :=
  match connected with
  | .error _ => ([], CAMERA_STREAM_ERROR)
  | .ok script => camera_loop disconnected script []

/-! ## The reference -/

/-- The packets of a stream: a header of 16 bytes, its first four the length of the payload,
and the payload. What is left at the end, if it is no whole packet, is dropped. -/
def packets (stream : Bytes) : List (Bytes × Bytes) :=
  let rest := stream.drop 16
  let length := from_le_bytes (stream.take 4)
  if 16 ≤ stream.length ∧ length ≤ rest.length then
    (stream.take 16, rest.take length) :: packets (rest.drop length)
  else []
termination_by stream.length
decreasing_by
  rename_i h
  simp only [List.length_drop]
  omega

/-- The pictures of a stream, in order. -/
def pictures (stream : Bytes) : List Bytes :=
  ((packets stream).filter fun packet => isPicture packet.1 packet.2).map Prod.snd

/-! ## Reads in pieces -/

namespace Turn

/-- The turn gives bytes, or is an interruption after which the loop reads on. -/
def delivers : Turn → Bool
  | bytes _ _ => true
  | would_block => true
  | timed_out => true
  | failed _ => false
  | stopped => false

/-- The bytes of a turn. -/
def content : Turn → Bytes
  | bytes c cs => c :: cs
  | _ => []

end Turn

/-- A stream of the printer, as the reads give it: in pieces, with interruptions. -/
structure Delivery where
  turns : Script
  delivers : turns.all Turn.delivers = true

/-- The bytes of a script, put together. -/
def streamOf (script : Script) : Bytes := script.flatMap Turn.content

section reads

variable {len : Nat} {buf : Bytes} {script : Script}

theorem read_exact_full (h : len ≤ buf.length) :
    read_exact_interruptible len buf script = (.ok (some buf), script) := by
  unfold read_exact_interruptible
  rw [if_pos h]

/-- A piece that fits into the buffer, after which the loop reads on. -/
theorem read_exact_fits {c : UInt8} {cs : Bytes} (hroom : ¬ len ≤ buf.length)
    (hfits : (c :: cs).length ≤ len - buf.length) :
    read_exact_interruptible len buf (.bytes c cs :: script) =
      read_exact_interruptible len (buf ++ c :: cs) script := by
  rw [read_exact_interruptible, if_neg hroom]
  simp only [List.drop_eq_nil_iff.mpr hfits]

/-- A piece that fills the buffer, and of which something stays in the socket. -/
theorem read_exact_fills {c d : UInt8} {cs ds : Bytes} (hroom : ¬ len ≤ buf.length)
    (hrest : (c :: cs).drop (len - buf.length) = d :: ds) :
    read_exact_interruptible len buf (.bytes c cs :: script) =
      (.ok (some (buf ++ (c :: cs).take (len - buf.length))), .bytes d ds :: script) := by
  rw [read_exact_interruptible, if_neg hroom]
  simp only [hrest]

theorem streamOf_bytes (c : UInt8) (cs : Bytes) (script : Script) :
    streamOf (.bytes c cs :: script) = (c :: cs) ++ streamOf script := by
  simp [streamOf, Turn.content]

/-- Whatever the pieces, a read of so many bytes gets the next ones of the stream. -/
theorem read_exact_enough (len : Nat) (buf : Bytes) (h : script.all Turn.delivers = true)
    (henough : len - buf.length ≤ (streamOf script).length) (hbuf : buf.length ≤ len) :
    ∃ script', script'.all Turn.delivers = true ∧
      read_exact_interruptible len buf script =
        (.ok (some (buf ++ (streamOf script).take (len - buf.length))), script') ∧
      streamOf script' = (streamOf script).drop (len - buf.length) := by
  induction script generalizing buf with
  | nil =>
    have hfull : len ≤ buf.length := by
      simp only [streamOf, List.flatMap_nil, List.length_nil] at henough
      omega
    have hzero : len - buf.length = 0 := by omega
    exact ⟨[], rfl, by simp [read_exact_full hfull, hzero], by simp [streamOf]⟩
  | cons t script ih =>
    have hall := h
    rw [List.all_cons, Bool.and_eq_true] at h
    by_cases hfull : len ≤ buf.length
    · have hzero : len - buf.length = 0 := by omega
      exact ⟨t :: script, hall, by simp [read_exact_full hfull, hzero], by simp [hzero]⟩
    cases t with
    | stopped => cases h.1
    | failed err => cases h.1
    | would_block =>
      rw [read_exact_interruptible, if_neg hfull]
      exact ih buf h.2 henough hbuf
    | timed_out =>
      rw [read_exact_interruptible, if_neg hfull]
      exact ih buf h.2 henough hbuf
    | bytes c cs =>
      rw [streamOf_bytes, List.length_append] at henough
      rw [streamOf_bytes]
      cases hdrop : (c :: cs).drop (len - buf.length) with
      | nil =>
        have hfits : (c :: cs).length ≤ len - buf.length := List.drop_eq_nil_iff.mp hdrop
        have hrest : len - (buf ++ c :: cs).length = len - buf.length - (c :: cs).length := by
          rw [List.length_append]
          omega
        obtain ⟨script', hscript', hread, hstream⟩ := ih (buf ++ c :: cs) h.2
          (by omega) (by rw [List.length_append]; omega)
        refine ⟨script', hscript', ?_, ?_⟩
        · rw [read_exact_fits hfull hfits, hread, hrest, List.take_append,
            List.take_of_length_le hfits, List.append_assoc]
        · rw [hstream, hrest, List.drop_append, hdrop, List.nil_append]
      | cons d ds =>
        have hlong : len - buf.length < (c :: cs).length := by
          have := congrArg List.length hdrop
          simp only [List.length_drop, List.length_cons] at this
          simp only [List.length_cons]
          omega
        refine ⟨.bytes d ds :: script, by simpa [Turn.delivers] using h.2, ?_, ?_⟩
        · rw [read_exact_fills hfull hdrop, List.take_append_of_le_length (by omega)]
        · rw [List.drop_append_of_le_length (by omega), hdrop, streamOf_bytes]

/-- A read of more bytes than the stream has left finds its end. -/
theorem read_exact_short (h : script.all Turn.delivers = true)
    (hshort : (streamOf script).length < len - buf.length) :
    read_exact_interruptible len buf script = (.ok none, []) := by
  have hfull : ¬ len ≤ buf.length := by omega
  induction script generalizing buf with
  | nil => rw [read_exact_interruptible, if_neg hfull]
  | cons t script ih =>
    rw [List.all_cons, Bool.and_eq_true] at h
    cases t with
    | stopped => cases h.1
    | failed err => cases h.1
    | would_block =>
      rw [read_exact_interruptible, if_neg hfull]
      exact ih h.2 hshort hfull
    | timed_out =>
      rw [read_exact_interruptible, if_neg hfull]
      exact ih h.2 hshort hfull
    | bytes c cs =>
      rw [streamOf_bytes, List.length_append] at hshort
      rw [read_exact_fits hfull (by omega)]
      have hrest : (streamOf script).length < len - (buf ++ c :: cs).length := by
        rw [List.length_append]
        omega
      exact ih h.2 hrest (by omega)

end reads

/-! ## The packets of a stream in pieces -/

/-- The next packet of the stream is there as a whole. -/
def HasPacket (stream : Bytes) : Prop :=
  16 ≤ stream.length ∧ from_le_bytes (stream.take 4) ≤ (stream.drop 16).length

theorem packets_of_hasPacket {stream : Bytes} (h : HasPacket stream) :
    packets stream = (stream.take 16, (stream.drop 16).take (from_le_bytes (stream.take 4))) ::
      packets ((stream.drop 16).drop (from_le_bytes (stream.take 4))) := by
  rw [packets]
  exact if_pos h

theorem packets_of_not_hasPacket {stream : Bytes} (h : ¬ HasPacket stream) :
    packets stream = [] := by
  rw [packets]
  exact if_neg h

theorem read_packet_some {script : Script} (h : script.all Turn.delivers = true)
    (hp : HasPacket (streamOf script)) : ∃ script', script'.all Turn.delivers = true ∧
      read_packet script = (.ok (some ((streamOf script).take 16,
        ((streamOf script).drop 16).take (from_le_bytes ((streamOf script).take 4)))), script') ∧
      streamOf script' =
        ((streamOf script).drop 16).drop (from_le_bytes ((streamOf script).take 4)) := by
  obtain ⟨script₁, h₁, hread₁, hstream₁⟩ :=
    read_exact_enough 16 [] h (by simpa using hp.1) (by simp)
  obtain ⟨script₂, h₂, hread₂, hstream₂⟩ :=
    read_exact_enough (from_le_bytes ((streamOf script).take 4)) [] h₁
      (by simpa [hstream₁] using hp.2) (by simp)
  simp only [List.length_nil, Nat.sub_zero, List.nil_append] at hread₁ hstream₁ hread₂ hstream₂
  refine ⟨script₂, h₂, ?_, ?_⟩
  · have htake : ((streamOf script).take 16).take 4 = (streamOf script).take 4 := by
      rw [List.take_take]
      rfl
    simp only [read_packet, hread₁, htake, hread₂, hstream₁]
  · rw [hstream₂, hstream₁]

theorem read_packet_none {script : Script} (h : script.all Turn.delivers = true)
    (hp : ¬ HasPacket (streamOf script)) : ∃ script', read_packet script = (.ok none, script') := by
  unfold read_packet
  rcases Nat.lt_or_ge (streamOf script).length 16 with hshort | henough
  · rw [read_exact_short h (by simpa using hshort)]
    exact ⟨[], rfl⟩
  · obtain ⟨script₁, h₁, hread₁, hstream₁⟩ :=
      read_exact_enough 16 [] h (by simpa using henough) (by simp)
    simp only [List.length_nil, Nat.sub_zero, List.nil_append] at hread₁ hstream₁
    have htake : ((streamOf script).take 16).take 4 = (streamOf script).take 4 := by
      rw [List.take_take]
      rfl
    have hshort : (streamOf script₁).length < from_le_bytes ((streamOf script).take 4) := by
      rw [hstream₁]
      exact Nat.lt_of_not_le fun hle => hp ⟨henough, hle⟩
    simp only [hread₁, htake]
    rw [read_exact_short h₁ (by simpa using hshort)]
    exact ⟨[], rfl⟩

theorem camera_loop_none {script script' : Script} {offered : List Bytes}
    (hhead : script.head? ≠ some .stopped) (hread : read_packet script = (.ok none, script')) :
    camera_loop (fun _ => false) script offered = (offered, CAMERA_STREAM_ENDED) := by
  rw [camera_loop, if_neg hhead]
  split
  · rename_i heq
    cases heq.symm.trans hread
  · rfl
  · rename_i heq
    cases heq.symm.trans hread

theorem camera_loop_some {script script' : Script} {offered : List Bytes} {packet : Bytes × Bytes}
    (hhead : script.head? ≠ some .stopped)
    (hread : read_packet script = (.ok (some packet), script')) :
    camera_loop (fun _ => false) script offered = camera_loop (fun _ => false) script'
      (offered ++ if isPicture packet.1 packet.2 then [packet.2] else []) := by
  rw [camera_loop, if_neg hhead]
  split
  · rename_i heq
    cases heq.symm.trans hread
  · rename_i heq
    cases heq.symm.trans hread
  · rename_i heq
    cases heq.symm.trans hread
    dsimp only
    split <;> simp

/-- The loop offers the pictures of the stream, and ends when the stream ends. -/
theorem camera_loop_eq {script : Script} (h : script.all Turn.delivers = true)
    (offered : List Bytes) :
    camera_loop (fun _ => false) script offered =
      (offered ++ pictures (streamOf script), CAMERA_STREAM_ENDED) := by
  induction hn : size script using Nat.strongRecOn generalizing script offered with
  | _ n ih =>
    have hhead : script.head? ≠ some .stopped := by
      intro hstop
      obtain ⟨rest, rfl⟩ := List.head?_eq_some_iff.mp hstop
      simp [Turn.delivers] at h
    by_cases hp : HasPacket (streamOf script)
    · obtain ⟨script', h', hread, hstream⟩ := read_packet_some h hp
      have hsize := size_read_packet hread
      rw [camera_loop_some hhead hread, ih _ (hn ▸ hsize) h' _ rfl, hstream]
      unfold pictures
      rw [packets_of_hasPacket hp, List.filter_cons]
      split <;> simp
    · obtain ⟨script', hread⟩ := read_packet_none h hp
      rw [camera_loop_none hhead hread, pictures, packets_of_not_hasPacket hp]
      simp

theorem nil_notMem_pictures (stream : Bytes) : [] ∉ pictures stream := by
  simp [pictures, isPicture]

/-! ## The queue to the plugin -/

/-- A stream that stays registered: the payloads that its worker has still to offer, and the
ones in its channel. None of them is empty. -/
structure CameraStream where
  todo : List Bytes
  queue : List Bytes := []
  fits : queue.length ≤ CAMERA_QUEUE_DEPTH := by exact Nat.zero_le _
  todo_whole : [] ∉ todo
  queue_whole : [] ∉ queue := by exact List.not_mem_nil

/-- The worker offers its next payload, or the plugin reads a frame. -/
inductive CameraEvent
  | offer
  | read
  deriving DecidableEq

namespace CameraStream

/-- `tx.try_send`, which drops the payload when the channel is full. -/
def try_send (c : CameraStream) {payload : Bytes} {todo : List Bytes}
    (h : c.todo = payload :: todo) : CameraStream :=
  have hwhole : payload ≠ [] ∧ [] ∉ todo := by
    have := c.todo_whole
    rw [h, List.mem_cons, not_or] at this
    exact ⟨Ne.symm this.1, this.2⟩
  if hroom : c.queue.length < CAMERA_QUEUE_DEPTH then
    { todo
      queue := c.queue ++ [payload]
      fits := by
        rw [List.length_append, List.length_singleton]
        omega
      todo_whole := hwhole.2
      queue_whole := by
        rw [List.mem_append, List.mem_singleton, not_or]
        exact ⟨c.queue_whole, Ne.symm hwhole.1⟩ }
  else { c with todo, todo_whole := hwhole.2 }

/-- The frame of `bambu_network_rs_read_camera_frame`, empty when there is none. -/
def read_camera_frame (c : CameraStream) : Bytes × CameraStream :=
  match h : c.queue with
  | [] => ([], c)
  | frame :: queue =>
    (frame, { c with
      queue := queue
      fits := by
        have := c.fits
        rw [h, List.length_cons] at this
        omega
      queue_whole := by
        have := c.queue_whole
        rw [h, List.mem_cons, not_or] at this
        exact this.2 })

def step (c : CameraStream) : CameraEvent → CameraStream
  | .offer =>
    match h : c.todo with
    | [] => c
    | _ :: _ => c.try_send h
  | .read => c.read_camera_frame.2

/-- The payload that an event offers, with the number of frames queued then. -/
def offers (c : CameraStream) : CameraEvent → List (Bytes × Nat)
  | .offer => (c.todo.take 1).map fun payload => (payload, c.queue.length)
  | .read => []

/-- The frame that a read returns. An empty one is none. -/
def reads (c : CameraStream) : CameraEvent → List Bytes
  | .offer => []
  | .read => [c.read_camera_frame.1].filter (· ≠ [])

/-- The offers that found the queue not full. -/
def taken (offers : List (Bytes × Nat)) : List Bytes :=
  (offers.filter fun offer => offer.2 ≠ CAMERA_QUEUE_DEPTH).map Prod.fst

/-- A read returns the first frame of the queue, and leaves the others. -/
theorem read_camera_frame_eq (c : CameraStream) :
    c.read_camera_frame.1 = c.queue.headD [] ∧ c.read_camera_frame.2.queue = c.queue.tail ∧
      c.read_camera_frame.2.todo = c.todo := by
  unfold read_camera_frame
  split
  · rename_i h
    simp [h]
  · rename_i h
    simp [h]

theorem offer_nil {c : CameraStream} (h : c.todo = []) : c.step .offer = c := by
  simp only [step]
  split
  · rfl
  · rename_i heq
    rw [h] at heq
    cases heq

theorem offer_cons {c : CameraStream} {payload : Bytes} {todo : List Bytes}
    (h : c.todo = payload :: todo) : (c.step .offer).todo = todo ∧ (c.step .offer).queue =
      if c.queue.length < CAMERA_QUEUE_DEPTH then c.queue ++ [payload] else c.queue := by
  simp only [step]
  split
  · rename_i heq
    rw [h] at heq
    cases heq
  · rename_i heq
    rw [h] at heq
    cases heq
    unfold try_send
    dsimp only
    split <;> exact ⟨rfl, rfl⟩

/-- A queue that is not full takes what it is offered, and a full one drops it. -/
theorem conserves_queue (c : CameraStream) (e : CameraEvent) :
    Conserves step queue (fun c e => taken (c.offers e)) reads c e := by
  unfold Conserves
  cases e with
  | offer =>
    cases htodo : c.todo with
    | nil => simp [offer_nil htodo, offers, reads, taken, htodo]
    | cons payload todo =>
      have hfits := c.fits
      simp only [(offer_cons htodo).2, offers, reads, taken, htodo]
      split
      · have hne : c.queue.length ≠ CAMERA_QUEUE_DEPTH := by omega
        simp [hne]
      · have heq : c.queue.length = CAMERA_QUEUE_DEPTH := by omega
        simp [heq]
  | read =>
    obtain ⟨hframe, hqueue, -⟩ := c.read_camera_frame_eq
    have hwhole := c.queue_whole
    simp only [step, offers, reads, taken, hframe, hqueue]
    cases hq : c.queue with
    | nil => simp
    | cons frame queue =>
      have hne : frame ≠ [] := by
        rintro rfl
        simp [hq] at hwhole
      simp [hne]

/-- What is offered is the next of what there is to offer. -/
theorem conserves_todo (c : CameraStream) (e : CameraEvent) :
    Conserves step todo (fun _ _ => []) (fun c e => (c.offers e).map Prod.fst) c e := by
  unfold Conserves
  cases e with
  | offer =>
    cases htodo : c.todo with
    | nil => simp [offer_nil htodo, offers, htodo]
    | cons payload todo => simp [(offer_cons htodo).1, offers, htodo]
  | read => simp [step, offers, c.read_camera_frame_eq.2.2]

/-- The stream of a delivery as it is registered: its worker has all to offer. -/
def registered (delivery : Delivery) : CameraStream where
  todo := (camera_stream_worker (.ok delivery.turns) fun _ => false).1
  todo_whole := by
    rw [camera_stream_worker, camera_loop_eq delivery.delivers [], List.nil_append]
    exact nil_notMem_pictures _

end CameraStream

open CameraStream

/-- However the bytes of the stream come in pieces, the worker offers its pictures. However
its offers and the reads of the plugin come after each other, they are offered in order, and
the frames that the reads return and then the ones queued are the offers in order without those
that found the queue full. -/
theorem the_pictures_come_in_order (delivery : Delivery) (es : List CameraEvent) :
    let worker := camera_stream_worker (.ok delivery.turns) fun _ => false
    let start := registered delivery
    let offered := flow step offers start es
    worker = (pictures (streamOf delivery.turns), CAMERA_STREAM_ENDED) ∧
      offered.map Prod.fst ++ (after step start es).todo = worker.1 ∧
      flow step reads start es ++ (after step start es).queue =
        (offered.filter fun offer => offer.2 ≠ CAMERA_QUEUE_DEPTH).map Prod.fst ∧
      (flow step reads start es ++ (after step start es).queue).Sublist
        (offered.map Prod.fst) := by
  extract_lets worker start offered
  have hworker : worker = (pictures (streamOf delivery.turns), CAMERA_STREAM_ENDED) :=
    camera_loop_eq delivery.delivers []
  have htodo := conservation start es fun c e _ => conserves_todo c e
  have hqueue := conservation start es fun c e _ => conserves_queue c e
  rw [flow_hom (List.map Prod.fst) rfl (by simp),
    flow_hom (fun _ => []) rfl (by simp) offers, List.append_nil] at htodo
  rw [flow_hom taken rfl (by simp [taken])] at hqueue
  refine ⟨hworker, htodo, hqueue, ?_⟩
  rw [hqueue]
  exact List.Sublist.map _ List.filter_sublist

end bambu_farm_client.camera
