-- The camera streams of the plugin (`api.rs`): a table of the streams that were started, and a
-- worker thread behind each of them. A stop, a new start, a read and the steps of the workers
-- interleave at the lock of the table and at the loads of the stop flags.
import BambuFarm.CameraStream
import BambuFarm.TunnelBridge

open runs bambu_farm
open bambu_farm_client.tunnel_bridge (StreamId)

namespace bambu_farm_client.camera

/-! ## One worker -/

def CAMERA_STREAM_ACTIVE : Int := 0

/-- Where a worker is: before its first read, at the check of its loop, at the check or in the
read of `read_exact_interruptible` for a header or for the payload of one, at its `try_send`,
or at its end, with the state that it leaves. -/
inductive Phase
  | connecting
  | top
  | checking (header : Option Bytes) (buf : Bytes)
  | reading (header : Option Bytes) (buf : Bytes)
  | offering (payload : Bytes)
  | done (state : Int)
  deriving DecidableEq

structure Worker where
  stream_id : StreamId
  stop : Bool := false
  /-- The handle has not been dropped, and the receiver with it. -/
  receiver : Bool := true
  queue : List Bytes := []
  phase : Phase := .connecting
  /-- The bytes that it has read. -/
  consumed : Bytes := []
  /-- The frames that were taken out of its queue. -/
  taken : List Bytes := []
  deriving DecidableEq

/-- What one `read` gives. -/
inductive ReadOutcome
  | bytes (first : UInt8) (rest : Bytes)
  | interrupted
  | eof
  | failed
  deriving DecidableEq

inductive WorkerStep
  | connect (ok : Bool)
  | check
  | read (r : ReadOutcome)
  | offer
  deriving DecidableEq

/-- The length of the buffer that is read into. -/
def buffer_len : Option Bytes → Nat
  | none => 16
  | some header => from_le_bytes (header.take 4)

/-- The loop of `read_exact_interruptible` for a payload, before its next check. -/
def after_payload (header buf : Bytes) : Phase :=
  if buffer_len (some header) ≤ buf.length then
    if isPicture header buf then .offering buf else .top
  else .checking (some header) buf

def after_read (header : Option Bytes) (buf : Bytes) : Phase :=
  match header with
  | some header => after_payload header buf
  | none => if 16 ≤ buf.length then after_payload buf [] else .checking none buf

namespace Worker

variable (w : Worker)

def state : Int :=
  match w.phase with
  | .done state => state
  | _ => CAMERA_STREAM_ACTIVE

def check : Worker :=
  match w.phase with
  | .top => if w.stop then { w with phase := .done CAMERA_STREAM_ENDED }
    else { w with phase := after_read none [] }
  | .checking header buf => if w.stop then { w with phase := .done CAMERA_STREAM_ENDED }
    else { w with phase := .reading header buf }
  | _ => w

def read (r : ReadOutcome) : Worker :=
  match w.phase with
  | .reading header buf =>
    match r with
    | .bytes c cs => { w with
        consumed := w.consumed ++ c :: cs
        phase := after_read header (buf ++ c :: cs) }
    | .interrupted => { w with phase := .checking header buf }
    | .eof => { w with phase := .done CAMERA_STREAM_ENDED }
    | .failed => { w with phase := .done CAMERA_STREAM_ERROR }
  | _ => w

/-- A picture that finds the queue full is dropped. -/
def offer : Worker :=
  match w.phase with
  | .offering payload =>
    if !w.receiver then { w with phase := .done CAMERA_STREAM_ENDED }
    else { w with
      phase := .top
      queue := if w.queue.length < CAMERA_QUEUE_DEPTH then w.queue ++ [payload] else w.queue }
  | _ => w

def step : WorkerStep → Worker
  | .connect ok => { w with phase := if ok then .top else .done CAMERA_STREAM_ERROR }
  | .check => w.check
  | .read r => w.read r
  | .offer => w.offer

/-- A read that the worker is in. It gives no more than the buffer has room for. -/
def reads (r : ReadOutcome) : Bool :=
  match w.phase, r with
  | .reading header buf, .bytes _ cs => cs.length + 1 ≤ buffer_len header - buf.length
  | .reading _ _, _ => true
  | _, _ => false

/-- A step that the worker can take next. -/
def Possible : WorkerStep → Prop
  | .connect _ => w.phase = .connecting
  | .check => w.phase = .top ∨ (w.phase matches .checking _ _)
  | .read r => w.reads r = true
  | .offer => (w.phase matches .offering _)

instance : DecidablePred w.Possible
  | .connect _ => inferInstanceAs (Decidable (_ = _))
  | .check => inferInstanceAs (Decidable (_ ∨ _))
  | .read _ => inferInstanceAs (Decidable (_ = _))
  | .offer => inferInstanceAs (Decidable (_ = _))

end Worker

/-! ## What a worker puts into its queue -/

/-- A front of the stream that ends with a packet. -/
def Closed (pre : Bytes) : Prop := ∀ rest, packets (pre ++ rest) = packets pre ++ packets rest

theorem packets_nil : packets [] = [] :=
  packets_of_not_hasPacket (by simp [HasPacket])

theorem closed_nil : Closed [] := by
  intro rest
  rw [packets_nil]
  rfl

/-- The stream goes on with a packet. -/
theorem packets_packet {header payload : Bytes} (hheader : header.length = 16)
    (hpayload : payload.length = from_le_bytes (header.take 4)) (rest : Bytes) :
    packets (header ++ payload ++ rest) = (header, payload) :: packets rest := by
  have htake : (header ++ payload ++ rest).take 16 = header := by
    rw [List.append_assoc, List.take_append_of_le_length (by omega),
      List.take_of_length_le (by omega)]
  have hdrop : (header ++ payload ++ rest).drop 16 = payload ++ rest := by
    rw [List.append_assoc, List.drop_append_of_le_length (by omega),
      List.drop_of_length_le (by omega), List.nil_append]
  have hlen : (header ++ payload ++ rest).take 4 = header.take 4 := by
    rw [List.append_assoc, List.take_append_of_le_length (by omega)]
  have hpacket : HasPacket (header ++ payload ++ rest) := by
    refine ⟨by simp; omega, ?_⟩
    rw [hlen, hdrop, List.length_append]
    omega
  rw [packets_of_hasPacket hpacket, htake, hlen, hdrop, ← hpayload, List.take_left, List.drop_left]

theorem Closed.packet {pre header payload : Bytes} (h : Closed pre) (hheader : header.length = 16)
    (hpayload : payload.length = from_le_bytes (header.take 4)) :
    Closed (pre ++ (header ++ payload)) ∧
      packets (pre ++ (header ++ payload)) = packets pre ++ [(header, payload)] := by
  have hone := packets_packet hheader hpayload []
  rw [List.append_nil, packets_nil] at hone
  refine ⟨fun rest => ?_, by rw [h, hone]⟩
  rw [List.append_assoc, h, packets_packet hheader hpayload, h, hone, List.append_assoc]
  rfl

/-- The bytes of the packet that is being read. -/
def Phase.part : Phase → Bytes
  | .checking header buf => header.getD [] ++ buf
  | .reading header buf => header.getD [] ++ buf
  | _ => []

/-- The buffer is not full, and a header is whole. -/
def Room (header : Option Bytes) (buf : Bytes) : Prop :=
  buf.length < buffer_len header ∧ ∀ h ∈ header, h.length = 16

theorem pictures_append {pre : Bytes} (h : Closed pre) (rest : Bytes) :
    pictures (pre ++ rest) = pictures pre ++ pictures rest := by
  unfold pictures
  rw [h, List.filter_append, List.map_append]

/-- What was put into the queue, beside what was read: pictures of the packets behind it, in
their order. The picture that is being offered is not among them. -/
inductive Sent (sent : List Bytes) (consumed : Bytes) : Phase → Prop
  | done {state : Int} (h : sent.Sublist (pictures consumed)) : Sent sent consumed (.done state)
  | offering {payload : Bytes} {xs : List Bytes} (hclosed : Closed consumed)
      (hlast : pictures consumed = xs ++ [payload]) (h : sent.Sublist xs) :
      Sent sent consumed (.offering payload)
  | checking {header : Option Bytes} {buf pre : Bytes} (hclosed : Closed pre)
      (hconsumed : consumed = pre ++ (header.getD [] ++ buf)) (hroom : Room header buf)
      (h : sent.Sublist (pictures pre)) : Sent sent consumed (.checking header buf)
  | reading {header : Option Bytes} {buf pre : Bytes} (hclosed : Closed pre)
      (hconsumed : consumed = pre ++ (header.getD [] ++ buf)) (hroom : Room header buf)
      (h : sent.Sublist (pictures pre)) : Sent sent consumed (.reading header buf)
  | top (hclosed : Closed consumed) (h : sent.Sublist (pictures consumed)) :
      Sent sent consumed .top
  | connecting (hconsumed : consumed = []) (h : sent = []) : Sent sent consumed .connecting

section sent

variable {sent : List Bytes} {consumed : Bytes}

theorem Sent.sublist {phase : Phase} (h : Sent sent consumed phase) :
    sent.Sublist (pictures consumed) := by
  cases h with
  | done h => exact h
  | offering hclosed hlast h =>
    rw [hlast]
    exact h.trans (List.sublist_append_left _ _)
  | checking hclosed hconsumed hroom h =>
    rw [hconsumed, pictures_append hclosed]
    exact h.trans (List.sublist_append_left _ _)
  | reading hclosed hconsumed hroom h =>
    rw [hconsumed, pictures_append hclosed]
    exact h.trans (List.sublist_append_left _ _)
  | top hclosed h => exact h
  | connecting hconsumed h => simp [h]

/-- A payload that has come so far. -/
theorem sent_after_payload {pre header : Bytes} (buf : Bytes) (hclosed : Closed pre)
    (hheader : header.length = 16) (hbuf : buf.length ≤ buffer_len (some header))
    (h : sent.Sublist (pictures pre)) :
    Sent sent (pre ++ (header ++ buf)) (after_payload header buf) := by
  unfold after_payload
  by_cases hfull : buffer_len (some header) ≤ buf.length
  · obtain ⟨hclosed', hpackets⟩ := hclosed.packet hheader (Nat.le_antisymm hbuf hfull)
    have hpictures : pictures (pre ++ (header ++ buf)) =
        pictures pre ++ if isPicture header buf then [buf] else [] := by
      simp only [pictures, hpackets, List.filter_append, List.map_append]
      split <;> simp [*]
    rw [if_pos hfull]
    split
    · rename_i hpicture
      rw [if_pos hpicture] at hpictures
      exact .offering hclosed' hpictures h
    · rename_i hpicture
      rw [if_neg hpicture, List.append_nil] at hpictures
      exact .top hclosed' (hpictures ▸ h)
  · rw [if_neg hfull]
    refine .checking hclosed rfl ⟨Nat.lt_of_not_le hfull, ?_⟩ h
    intro x hx
    cases hx
    exact hheader

theorem sent_after_read {pre : Bytes} (header : Option Bytes) (buf : Bytes) (hclosed : Closed pre)
    (hheader : ∀ x ∈ header, x.length = 16) (hbuf : buf.length ≤ buffer_len header)
    (h : sent.Sublist (pictures pre)) :
    Sent sent (pre ++ (header.getD [] ++ buf)) (after_read header buf) := by
  cases header with
  | some header => exact sent_after_payload buf hclosed (hheader header rfl) hbuf h
  | none =>
    unfold after_read
    dsimp only
    by_cases hfull : 16 ≤ buf.length
    · rw [if_pos hfull]
      have hpayload := sent_after_payload [] hclosed (Nat.le_antisymm hbuf hfull)
        (Nat.zero_le _) h
      simpa using hpayload
    · rw [if_neg hfull]
      exact .checking hclosed rfl ⟨Nat.lt_of_not_le hfull, by simp⟩ h

end sent

structure Worker.Sound (w : Worker) : Prop where
  sent : Sent (w.taken ++ w.queue) w.consumed w.phase
  few : w.queue.length ≤ CAMERA_QUEUE_DEPTH

theorem Worker.Sound.step {w : Worker} (h : w.Sound) {x : WorkerStep} (hx : w.Possible x) :
    (w.step x).Sound := by
  obtain ⟨hsent, hfew⟩ := h
  cases x with
  | connect ok =>
    have hphase : w.phase = .connecting := hx
    rw [hphase] at hsent
    have hsub := hsent.sublist
    cases hsent with
    | connecting hconsumed hnone =>
      cases ok with
      | true => exact ⟨.top (hconsumed ▸ closed_nil) hsub, hfew⟩
      | false => exact ⟨.done hsub, hfew⟩
  | check =>
    simp only [Worker.step, Worker.check]
    cases hphase : w.phase with
    | top =>
      rw [hphase] at hsent
      dsimp only
      split
      · exact ⟨.done hsent.sublist, hfew⟩
      · cases hsent with
        | top hclosed hsub =>
          have hread := sent_after_read none [] hclosed (by simp) (Nat.zero_le _) hsub
          exact ⟨by simpa using hread, hfew⟩
    | checking header buf =>
      rw [hphase] at hsent
      dsimp only
      split
      · exact ⟨.done hsent.sublist, hfew⟩
      · cases hsent with
        | checking hclosed hconsumed hroom hsub =>
          exact ⟨.reading hclosed hconsumed hroom hsub, hfew⟩
    | _ => exact ⟨hsent, hfew⟩
  | read r =>
    simp only [Worker.step, Worker.read]
    cases hphase : w.phase with
    | reading header buf =>
      rw [hphase] at hsent
      simp only [Worker.Possible, Worker.reads, hphase] at hx
      have hsub := hsent.sublist
      cases hsent with
      | reading hclosed hconsumed hroom hsub' =>
        cases r with
        | interrupted => exact ⟨.checking hclosed hconsumed hroom hsub', hfew⟩
        | eof => exact ⟨.done hsub, hfew⟩
        | failed => exact ⟨.done hsub, hfew⟩
        | bytes c cs =>
          have hlong : (buf ++ c :: cs).length ≤ buffer_len header := by
            have := hroom.1
            rw [decide_eq_true_eq] at hx
            rw [List.length_append, List.length_cons]
            omega
          have hread := sent_after_read header (buf ++ c :: cs) hclosed hroom.2 hlong hsub'
          refine ⟨?_, hfew⟩
          simpa [hconsumed] using hread
    | _ => simp [Worker.Possible, Worker.reads, hphase] at hx
  | offer =>
    simp only [Worker.step, Worker.offer]
    cases hphase : w.phase with
    | offering payload =>
      rw [hphase] at hsent
      have hsub := hsent.sublist
      dsimp only
      split
      · exact ⟨.done hsub, hfew⟩
      · cases hsent with
        | offering hclosed hlast hsub' =>
          split
          · rename_i hroom
            refine ⟨.top hclosed ?_, ?_⟩
            · rw [hlast, ← List.append_assoc]
              exact hsub'.append (List.Sublist.refl _)
            · rw [List.length_append, List.length_singleton]
              omega
          · exact ⟨.top hclosed hsub, hfew⟩
    | _ => exact ⟨hsent, hfew⟩

/-! ## The table of the streams -/

structure Cameras where
  /-- The handles by stream, each of them the number of its worker. -/
  CAMERA_STREAMS : StreamId → Option Nat := fun _ => none
  workers : List Worker := []
  /-- The handles that a stop has taken out of the table and not yet told. -/
  removed : List Nat := []
  /-- The handles that have been told and not yet dropped. -/
  told : List Nat := []
  /-- The frames that the plugin was given, with their streams. -/
  frames : List (StreamId × Bytes) := []

/-- The three steps of a stop, which is also the first part of a start, the rest of a start,
a read of the plugin, and a step of a worker. -/
inductive TableEvent
  | remove (id : StreamId)
  | store (n : Nat)
  | drop (n : Nat)
  | insert (id : StreamId)
  | read_frame (id : StreamId)
  | worker (n : Nat) (x : WorkerStep)
  deriving DecidableEq

namespace Cameras

variable (s : Cameras)

def setWorker (n : Nat) (f : Worker → Worker) : Cameras :=
  { s with workers := s.workers.modify n f }

def remove (id : StreamId) : Cameras :=
  match s.CAMERA_STREAMS id with
  | some n => { s with
      CAMERA_STREAMS := Function.update s.CAMERA_STREAMS id none
      removed := n :: s.removed }
  | none => s

/-- `handle.stop.store(true)`. -/
def store (n : Nat) : Cameras :=
  { s.setWorker n fun w => { w with stop := true } with
    removed := s.removed.erase n, told := n :: s.told }

def drop (n : Nat) : Cameras :=
  { s.setWorker n fun w => { w with receiver := false } with told := s.told.erase n }

/-- A handle that the table still has for a stream is dropped by an insert. -/
def displace (id : StreamId) : Cameras :=
  match s.CAMERA_STREAMS id with
  | some n => { s.setWorker n fun w => { w with receiver := false } with
      CAMERA_STREAMS := Function.update s.CAMERA_STREAMS id none }
  | none => s

def push (id : StreamId) : Cameras :=
  { s with
    CAMERA_STREAMS := Function.update s.CAMERA_STREAMS id (some s.workers.length)
    workers := s.workers ++ [{ stream_id := id }] }

def insert (id : StreamId) : Cameras := (s.displace id).push id

/-- The frame that `bambu_network_rs_read_camera_frame` gives, if there is one. -/
def next_frame (id : StreamId) : Option Bytes :=
  (s.CAMERA_STREAMS id).bind fun n => s.workers[n]?.bind fun w => w.queue.head?

def take (w : Worker) : Worker :=
  { w with queue := w.queue.tail, taken := w.taken ++ w.queue.head?.toList }

def read_frame (id : StreamId) : Cameras :=
  match s.CAMERA_STREAMS id with
  | some n => { s.setWorker n take with
      frames := s.frames ++ ((s.next_frame id).toList.map fun frame => (id, frame)) }
  | none => s

/-- `bambu_network_rs_camera_stream_state` -/
def camera_stream_state (id : StreamId) : Int :=
  match (s.CAMERA_STREAMS id).bind fun n => s.workers[n]? with
  | some w => w.state
  | none => CAMERA_STREAM_ENDED

def step : TableEvent → Cameras
  | .remove id => s.remove id
  | .store n => s.store n
  | .drop n => s.drop n
  | .insert id => s.insert id
  | .read_frame id => s.read_frame id
  | .worker n x => s.setWorker n (·.step x)

def Possible : TableEvent → Prop
  | .store n => n ∈ s.removed
  | .drop n => n ∈ s.told
  | .worker n x => ∃ w ∈ s.workers[n]?, w.Possible x
  | _ => True

instance : DecidablePred s.Possible
  | .store n => inferInstanceAs (Decidable (n ∈ s.removed))
  | .drop n => inferInstanceAs (Decidable (n ∈ s.told))
  | .worker n x => inferInstanceAs (Decidable (∃ w ∈ s.workers[n]?, w.Possible x))
  | .remove _ => isTrue trivial
  | .insert _ => isTrue trivial
  | .read_frame _ => isTrue trivial

end Cameras

def camerasAfter (es : List TableEvent) : Cameras := after Cameras.step {} es

@[simp] theorem camerasAfter_snoc (es : List TableEvent) (e : TableEvent) :
    camerasAfter (es ++ [e]) = (camerasAfter es).step e := by
  simp [camerasAfter]

/-- A run of the cameras: its events, each of which could happen when it did. -/
structure CameraRun where
  events : List TableEvent
  possible : Steps (fun es e => (camerasAfter es).Possible e) events

/-! ## The law -/

/-- The frames that the plugin was given for a stream. -/
def framesOf (id : StreamId) (frames : List (StreamId × Bytes)) : List Bytes :=
  (frames.filter fun x => x.1 = id).map Prod.snd

/-- The frames that were taken from the workers of a stream, in the order of their starts. -/
def takenOf (id : StreamId) (workers : List Worker) : List Bytes :=
  (workers.filter fun w => w.stream_id = id).flatMap Worker.taken

/-- Someone will tell the worker to end, or has done so, or nobody can read from it. -/
def Ending (s : Cameras) (n : Nat) (w : Worker) : Prop :=
  n ∈ s.removed ∨ w.stop = true ∨ w.receiver = false

structure CameraLaw (s : Cameras) : Prop where
  /-- The frames of a stream are those of its workers, one worker after the other. -/
  frames : ∀ id, framesOf id s.frames = takenOf id s.workers
  /-- What is taken from a worker are pictures of the bytes that it has read, in their order,
  none of them twice. -/
  pictures : ∀ w ∈ s.workers, (w.taken ++ w.queue).Sublist (pictures w.consumed)
  few : ∀ w ∈ s.workers, w.queue.length ≤ CAMERA_QUEUE_DEPTH
  /-- A worker can be stopped through the table, or is at its end. -/
  owned : ∀ n w, s.workers[n]? = some w → s.CAMERA_STREAMS w.stream_id = some n ∨ Ending s n w
  /-- A handle in the table is that of a worker that reads for its stream. -/
  live : ∀ id n, s.CAMERA_STREAMS id = some n →
    ∃ w, s.workers[n]? = some w ∧ w.stream_id = id ∧ ¬ Ending s n w

/-! ## What holds at each point -/

structure Cameras.Sound (s : Cameras) : Prop extends CameraLaw s where
  sound : ∀ w ∈ s.workers, w.Sound
  /-- The worker in the table is the last one of its stream. -/
  latest : ∀ id n, s.CAMERA_STREAMS id = some n →
    ∀ m w, n < m → s.workers[m]? = some w → w.stream_id ≠ id
  known : ∀ n, n ∈ s.removed ∨ n ∈ s.told → n < s.workers.length
  told : ∀ n ∈ s.told, ∀ w, s.workers[n]? = some w → w.stop = true

section lists

variable {n : Nat} {f : Worker → Worker} {workers : List Worker} {id : StreamId}

theorem mem_modify {w' : Worker} (h : w' ∈ workers.modify n f) :
    ∃ m w, workers[m]? = some w ∧ w' = if n = m then f w else w := by
  obtain ⟨m, hm⟩ := List.mem_iff_getElem?.mp h
  rw [List.getElem?_modify] at hm
  obtain ⟨w, hw, heq⟩ := Option.map_eq_some_iff.mp hm
  exact ⟨m, w, hw, heq.symm⟩

theorem takenOf_append (id : StreamId) (ws ws' : List Worker) :
    takenOf id (ws ++ ws') = takenOf id ws ++ takenOf id ws' := by
  simp [takenOf]

theorem takenOf_modify (hid : ∀ w, (f w).stream_id = w.stream_id)
    (htaken : ∀ w, (f w).taken = w.taken) : takenOf id (workers.modify n f) = takenOf id workers := by
  by_cases hn : n < workers.length
  · rw [List.modify_eq_take_cons_drop hn]
    conv_rhs => rw [← List.take_append_drop n workers, List.drop_eq_getElem_cons hn]
    rw [takenOf_append, takenOf_append]
    congr 1
    simp only [takenOf, List.filter_cons, hid]
    split
    · simp [htaken]
    · rfl
  · rw [List.modify_eq_self (by omega)]

/-- Behind the last worker of a stream nothing was taken for it. -/
theorem takenOf_take {w : Worker} (hw : workers[n]? = some w)
    (hlatest : ∀ m x, n < m → workers[m]? = some x → x.stream_id ≠ w.stream_id) (id : StreamId) :
    takenOf id (workers.modify n Cameras.take) = takenOf id workers ++
      if id = w.stream_id then w.queue.head?.toList else [] := by
  obtain ⟨hn, hget⟩ := List.getElem?_eq_some_iff.mp hw
  have hbehind : takenOf w.stream_id (workers.drop (n + 1)) = [] := by
    unfold takenOf
    rw [List.filter_eq_nil_iff.mpr, List.flatMap_nil]
    intro x hx
    obtain ⟨m, hm⟩ := List.mem_iff_getElem?.mp hx
    rw [List.getElem?_drop] at hm
    simpa using hlatest (n + 1 + m) x (by omega) hm
  rw [List.modify_eq_take_cons_drop hn, hget]
  conv_rhs => rw [← List.take_append_drop n workers, List.drop_eq_getElem_cons hn, hget]
  rw [takenOf_append, takenOf_append]
  by_cases hid : id = w.stream_id
  · subst hid
    have hone : ∀ x : Worker, x.stream_id = w.stream_id →
        takenOf w.stream_id (x :: workers.drop (n + 1)) = x.taken := by
      intro x hx
      rw [← List.singleton_append, takenOf_append, hbehind, List.append_nil]
      simp [takenOf, hx]
    rw [hone w rfl, hone (Cameras.take w) rfl, if_pos rfl, Cameras.take, List.append_assoc]
  · have hskip : ∀ x : Worker, x.stream_id = w.stream_id →
        takenOf id (x :: workers.drop (n + 1)) = takenOf id (workers.drop (n + 1)) := by
      intro x hx
      simp [takenOf, hx, Ne.symm hid]
    rw [hskip w rfl, hskip (Cameras.take w) rfl, if_neg hid, List.append_nil]

end lists

section steps

variable {s : Cameras}

theorem Cameras.Sound.start : ({} : Cameras).Sound where
  frames := fun _ => rfl
  pictures := by simp
  few := by simp
  owned := by simp
  live := by simp
  sound := by simp
  latest := by simp
  known := by simp
  told := by simp

theorem workers_setWorker (s : Cameras) (n : Nat) (f : Worker → Worker) (m : Nat) :
    (s.setWorker n f).workers[m]? = s.workers[m]?.map fun w => if n = m then f w else w :=
  List.getElem?_modify _ _ _ _

theorem Ending.of_modify {n m : Nat} {f : Worker → Worker} {w : Worker} (h : Ending s m w)
    (hstop : ∀ w, w.stop = true → (f w).stop = true)
    (hreceiver : ∀ w, w.receiver = false → (f w).receiver = false) :
    Ending (s.setWorker n f) m (if n = m then f w else w) := by
  rcases h with h | h | h
  · exact .inl h
  · refine .inr (.inl ?_)
    split
    · exact hstop w h
    · exact h
  · refine .inr (.inr ?_)
    split
    · exact hreceiver w h
    · exact h

/-- A change of one worker. Of a worker in the table it leaves the flags alone. -/
theorem Cameras.Sound.setWorker_frames (h : s.Sound) {n : Nat} {f : Worker → Worker}
    {frames : List (StreamId × Bytes)} (hid : ∀ w, (f w).stream_id = w.stream_id)
    (hframes : ∀ id, framesOf id frames = takenOf id (s.workers.modify n f))
    (hstop : ∀ w, w.stop = true → (f w).stop = true)
    (hreceiver : ∀ w, w.receiver = false → (f w).receiver = false)
    (hlive : (∀ id, s.CAMERA_STREAMS id ≠ some n) ∨
      ∀ w, (f w).stop = w.stop ∧ (f w).receiver = w.receiver)
    (hsound : ∀ w, s.workers[n]? = some w → w.Sound → (f w).Sound) :
    { s.setWorker n f with frames }.Sound := by
  have hget := workers_setWorker s n f
  have hall : ∀ w ∈ (s.setWorker n f).workers, w.Sound := by
    intro w' hw'
    obtain ⟨m, w, hw, rfl⟩ := mem_modify hw'
    have hold := h.sound w (List.mem_iff_getElem?.mpr ⟨m, hw⟩)
    split
    · rename_i hnm
      subst hnm
      exact hsound w hw hold
    · exact hold
  refine {
    frames := hframes
    pictures := fun w hw => (hall w hw).sent.sublist
    few := fun w hw => (hall w hw).few
    owned := ?_
    live := ?_
    sound := hall
    latest := ?_
    known := ?_
    told := ?_ }
  · intro m w' hw'
    rw [hget] at hw'
    obtain ⟨w, hw, rfl⟩ := Option.map_eq_some_iff.mp hw'
    have hsame : (if n = m then f w else w).stream_id = w.stream_id := by
      split
      · exact hid w
      · rfl
    rw [hsame]
    exact (h.owned m w hw).imp id fun hending => hending.of_modify hstop hreceiver
  · intro id m hm
    obtain ⟨w, hw, hwid, hnot⟩ := h.live id m hm
    refine ⟨if n = m then f w else w, by rw [hget, hw]; rfl, ?_, ?_⟩
    · split
      · rw [hid, hwid]
      · exact hwid
    · by_cases hnm : n = m
      · subst hnm
        rcases hlive with hlive | hlive
        · exact absurd hm (hlive id)
        · rw [if_pos rfl]
          unfold Ending at hnot ⊢
          rw [(hlive w).1, (hlive w).2]
          exact hnot
      · rw [if_neg hnm]
        exact hnot
  · intro id m hm k w' hk hw'
    rw [hget] at hw'
    obtain ⟨w, hw, rfl⟩ := Option.map_eq_some_iff.mp hw'
    have hold := h.latest id m hm k w hk hw
    split
    · rwa [hid]
    · exact hold
  · intro m hm
    have hlt := h.known m hm
    exact Nat.lt_of_lt_of_eq hlt (List.length_modify f s.workers n).symm
  · intro m hm w' hw'
    rw [hget] at hw'
    obtain ⟨w, hw, rfl⟩ := Option.map_eq_some_iff.mp hw'
    have hold := h.told m hm w hw
    split
    · exact hstop w hold
    · exact hold

theorem Cameras.Sound.setWorker (h : s.Sound) {n : Nat} {f : Worker → Worker}
    (hid : ∀ w, (f w).stream_id = w.stream_id) (htaken : ∀ w, (f w).taken = w.taken)
    (hstop : ∀ w, w.stop = true → (f w).stop = true)
    (hreceiver : ∀ w, w.receiver = false → (f w).receiver = false)
    (hlive : (∀ id, s.CAMERA_STREAMS id ≠ some n) ∨
      ∀ w, (f w).stop = w.stop ∧ (f w).receiver = w.receiver)
    (hsound : ∀ w, s.workers[n]? = some w → w.Sound → (f w).Sound) :
    (s.setWorker n f).Sound :=
  h.setWorker_frames hid (fun id => (h.frames id).trans (takenOf_modify hid htaken).symm) hstop
    hreceiver hlive hsound

/-- A step of a worker touches neither its flags nor what was taken from it. -/
theorem Worker.step_frame (w : Worker) (x : WorkerStep) : (w.step x).stream_id = w.stream_id ∧
    (w.step x).taken = w.taken ∧ (w.step x).stop = w.stop ∧ (w.step x).receiver = w.receiver := by
  cases x with
  | connect ok => exact ⟨rfl, rfl, rfl, rfl⟩
  | check =>
    simp only [Worker.step, Worker.check]
    repeat' split
    all_goals exact ⟨rfl, rfl, rfl, rfl⟩
  | read r =>
    simp only [Worker.step, Worker.read]
    repeat' split
    all_goals exact ⟨rfl, rfl, rfl, rfl⟩
  | offer =>
    simp only [Worker.step, Worker.offer]
    repeat' split
    all_goals exact ⟨rfl, rfl, rfl, rfl⟩

theorem Cameras.Sound.worker (h : s.Sound) {n : Nat} {x : WorkerStep}
    (hx : s.Possible (.worker n x)) : (s.step (.worker n x)).Sound := by
  obtain ⟨w, hw, hpossible⟩ := hx
  refine h.setWorker (fun w => (w.step_frame x).1) (fun w => (w.step_frame x).2.1) (fun w hstop => ?_)
    (fun w hreceiver => ?_) (.inr fun w => (w.step_frame x).2.2) fun w' hw' hsound => ?_
  · rw [(w.step_frame x).2.2.1, hstop]
  · rw [(w.step_frame x).2.2.2, hreceiver]
  · rw [hw] at hw'
    cases hw'
    exact hsound.step hpossible

theorem Cameras.Sound.remove (h : s.Sound) (id : StreamId) : (s.remove id).Sound := by
  unfold Cameras.remove
  split
  · rename_i n hn
    obtain ⟨x, hx, hxid, -⟩ := h.live id n hn
    have hother : ∀ id' m, Function.update s.CAMERA_STREAMS id none id' = some m →
        id' ≠ id ∧ s.CAMERA_STREAMS id' = some m := by
      intro id' m hm
      by_cases hid : id' = id
      · simp [hid] at hm
      · rw [Function.update_of_ne hid] at hm
        exact ⟨hid, hm⟩
    refine { h with owned := ?_, live := ?_, latest := ?_, known := ?_ }
    · intro m w hw
      rcases h.owned m w hw with hm | hm
      · by_cases hid : w.stream_id = id
        · rw [hid, hn] at hm
          cases hm
          exact .inr (.inl List.mem_cons_self)
        · exact .inl (by simpa [Function.update_of_ne hid] using hm)
      · exact .inr (hm.imp (List.mem_cons_of_mem _) fun h => h)
    · intro id' m hm
      obtain ⟨hid, hm⟩ := hother id' m hm
      obtain ⟨w, hw, hwid, hnot⟩ := h.live id' m hm
      refine ⟨w, hw, hwid, fun hending => hnot (hending.imp (fun hmem => ?_) fun h => h)⟩
      rcases List.mem_cons.mp hmem with rfl | hmem
      · rw [hx] at hw
        cases hw
        exact absurd (hwid.symm.trans hxid) hid
      · exact hmem
    · exact fun id' m hm => h.latest id' m (hother id' m hm).2
    · intro m hm
      rcases hm with hm | hm
      · rcases List.mem_cons.mp hm with rfl | hm
        · exact (List.getElem?_eq_some_iff.mp hx).1
        · exact h.known m (.inl hm)
      · exact h.known m (.inr hm)
  · exact h

/-- A handle that a stop has taken out is not in the table. -/
theorem Cameras.Sound.removed_not_live (h : s.Sound) {n : Nat} (hn : n ∈ s.removed)
    (id : StreamId) : s.CAMERA_STREAMS id ≠ some n := by
  intro hid
  obtain ⟨w, -, -, hnot⟩ := h.live id n hid
  exact hnot (.inl hn)

theorem Cameras.Sound.told_not_live (h : s.Sound) {n : Nat} (hn : n ∈ s.told) (id : StreamId) :
    s.CAMERA_STREAMS id ≠ some n := by
  intro hid
  obtain ⟨w, hw, -, hnot⟩ := h.live id n hid
  exact hnot (.inr (.inl (h.told n hn w hw)))

theorem Cameras.Sound.store (h : s.Sound) {n : Nat} (hn : n ∈ s.removed) : (s.store n).Sound := by
  have hset := h.setWorker (n := n) (f := fun w => { w with stop := true }) (fun _ => rfl)
    (fun _ => rfl) (fun _ _ => rfl) (fun _ hw => hw) (.inl (h.removed_not_live hn))
    fun _ _ hw => ⟨hw.sent, hw.few⟩
  have htold : ∀ w, (s.setWorker n fun w => { w with stop := true }).workers[n]? = some w →
      w.stop = true := by
    intro w hw
    rw [workers_setWorker] at hw
    obtain ⟨x, -, rfl⟩ := Option.map_eq_some_iff.mp hw
    rw [if_pos rfl]
  refine { hset with owned := ?_, live := ?_, known := ?_, told := ?_ }
  · intro m w hw
    rcases hset.owned m w hw with hm | hm | hm
    · exact .inl hm
    · by_cases hmn : m = n
      · subst hmn
        exact .inr (.inr (.inl (htold w hw)))
      · exact .inr (.inl ((List.mem_erase_of_ne hmn).mpr hm))
    · exact .inr (.inr hm)
  · intro id m hm
    obtain ⟨w, hw, hwid, hnot⟩ := hset.live id m hm
    exact ⟨w, hw, hwid, fun hending => hnot (hending.imp List.mem_of_mem_erase fun h => h)⟩
  · intro m hm
    rcases hm with hm | hm
    · exact hset.known m (.inl (List.mem_of_mem_erase hm))
    · rcases List.mem_cons.mp hm with rfl | hm
      · exact hset.known m (.inl hn)
      · exact hset.known m (.inr hm)
  · intro m hm w hw
    rcases List.mem_cons.mp hm with rfl | hm
    · exact htold w hw
    · exact hset.told m hm w hw

theorem Cameras.Sound.drop (h : s.Sound) {n : Nat} (hn : n ∈ s.told) : (s.drop n).Sound := by
  have hset := h.setWorker (n := n) (f := fun w => { w with receiver := false }) (fun _ => rfl)
    (fun _ => rfl) (fun _ hw => hw) (fun _ _ => rfl) (.inl (h.told_not_live hn))
    fun _ _ hw => ⟨hw.sent, hw.few⟩
  exact { hset with
    known := fun m hm => hset.known m (hm.imp (fun h => h) List.mem_of_mem_erase)
    told := fun m hm => hset.told m (List.mem_of_mem_erase hm) }

/-- A worker whose handle is displaced can be read from no more. -/
theorem Cameras.Sound.displace (h : s.Sound) (id : StreamId) :
    (s.displace id).Sound ∧ (s.displace id).CAMERA_STREAMS id = none := by
  unfold Cameras.displace
  cases hn : s.CAMERA_STREAMS id with
  | none => exact ⟨h, hn⟩
  | some n =>
    -- as a stop, whose handle is dropped right away
    have hremove := h.remove id
    have heq : s.remove id = { s with
        CAMERA_STREAMS := Function.update s.CAMERA_STREAMS id none
        removed := n :: s.removed } := by
      simp only [Cameras.remove, hn]
    rw [heq] at hremove
    have hset := hremove.setWorker (n := n) (f := fun w => { w with receiver := false })
      (fun _ => rfl) (fun _ => rfl) (fun _ hw => hw) (fun _ _ => rfl)
      (.inl (hremove.removed_not_live List.mem_cons_self)) fun _ _ hw => ⟨hw.sent, hw.few⟩
    refine ⟨{ hset with owned := ?_, live := ?_, known := ?_ }, by simp⟩
    · intro m w hw
      rcases hset.owned m w hw with hm | hm | hm
      · exact .inl hm
      · rcases List.mem_cons.mp hm with rfl | hm
        · have hget := workers_setWorker s m (fun w => { w with receiver := false }) m
          obtain ⟨x, -, rfl⟩ := Option.map_eq_some_iff.mp (hget.symm.trans hw)
          rw [if_pos rfl]
          exact .inr (.inr (.inr rfl))
        · exact .inr (.inl hm)
      · exact .inr (.inr hm)
    · intro id' m hm
      obtain ⟨w, hw, hwid, hnot⟩ := hset.live id' m hm
      exact ⟨w, hw, hwid, fun hending => hnot (hending.imp (List.mem_cons_of_mem _) fun h => h)⟩
    · exact fun m hm => hset.known m (hm.imp (List.mem_cons_of_mem _) fun h => h)

/-- A new worker is the last one of its stream. -/
theorem Cameras.Sound.push (h : s.Sound) {id : StreamId} (hfree : s.CAMERA_STREAMS id = none) :
    (s.push id).Sound := by
  have hother : ∀ id' m, (s.push id).CAMERA_STREAMS id' = some m →
      (id' = id ∧ m = s.workers.length) ∨ id' ≠ id ∧ s.CAMERA_STREAMS id' = some m := by
    intro id' m hm
    by_cases hid : id' = id
    · subst hid
      simp only [Cameras.push, Function.update_self, Option.some.injEq] at hm
      exact .inl ⟨rfl, hm.symm⟩
    · simp only [Cameras.push, Function.update_of_ne hid] at hm
      exact .inr ⟨hid, hm⟩
  have hget : ∀ (m : Nat) (w : Worker), (s.push id).workers[m]? = some w →
      s.workers[m]? = some w ∨ m = s.workers.length ∧ w = { stream_id := id } := by
    intro m w hw
    simp only [Cameras.push, List.getElem?_append] at hw
    split at hw
    · exact .inl hw
    · rename_i hm
      obtain ⟨hlt, heq⟩ := List.getElem?_eq_some_iff.mp hw
      simp only [List.length_singleton] at hlt
      refine .inr ⟨by omega, ?_⟩
      simpa using heq.symm
  have hold : ∀ (m : Nat) (w : Worker), s.workers[m]? = some w → (s.push id).workers[m]? = some w := by
    intro m w hw
    have hlt := (List.getElem?_eq_some_iff.mp hw).1
    simp only [Cameras.push]
    rwa [List.getElem?_append_left hlt]
  have hall : ∀ w ∈ (s.push id).workers, w.Sound := by
    intro w hw
    rcases List.mem_append.mp hw with hw | hw
    · exact h.sound w hw
    · cases List.mem_singleton.mp hw
      exact ⟨.connecting rfl rfl, Nat.zero_le _⟩
  refine {
    frames := ?_
    pictures := fun w hw => (hall w hw).sent.sublist
    few := fun w hw => (hall w hw).few
    owned := ?_
    live := ?_
    sound := hall
    latest := ?_
    known := ?_
    told := ?_ }
  · intro id'
    have hnew : takenOf id' [({ stream_id := id } : Worker)] = [] := by
      by_cases hid : id = id'
      · simp [takenOf, hid]
      · simp [takenOf, hid]
    refine (h.frames id').trans ?_
    simp only [Cameras.push]
    rw [takenOf_append, hnew, List.append_nil]
  · intro m w hw
    rcases hget m w hw with hw | ⟨rfl, rfl⟩
    · rcases h.owned m w hw with hm | hm
      · have hid : w.stream_id ≠ id := by
          rintro rfl
          rw [hfree] at hm
          cases hm
        refine .inl ?_
        simp only [Cameras.push, Function.update_of_ne hid]
        exact hm
      · exact .inr hm
    · exact .inl (by simp [Cameras.push])
  · intro id' m hm
    rcases hother id' m hm with ⟨rfl, rfl⟩ | ⟨-, hm⟩
    · refine ⟨{ stream_id := id' }, by simp [Cameras.push], rfl, ?_⟩
      rintro (hmem | hstop | hreceiver)
      · exact absurd (h.known _ (.inl hmem)) (Nat.lt_irrefl _)
      · cases hstop
      · cases hreceiver
    · obtain ⟨w, hw, hwid, hnot⟩ := h.live id' m hm
      exact ⟨w, hold m w hw, hwid, hnot⟩
  · intro id' m hm k w hk hw
    rcases hget k w hw with hw' | ⟨rfl, rfl⟩
    · rcases hother id' m hm with ⟨rfl, rfl⟩ | ⟨-, hm⟩
      · have := (List.getElem?_eq_some_iff.mp hw').1
        omega
      · exact h.latest id' m hm k w hk hw'
    · rcases hother id' m hm with ⟨rfl, rfl⟩ | ⟨hid, hm⟩
      · omega
      · exact Ne.symm hid
  · intro m hm
    have := h.known m hm
    simp only [Cameras.push, List.length_append, List.length_singleton]
    omega
  · intro m hm w hw
    rcases hget m w hw with hw | ⟨rfl, rfl⟩
    · exact h.told m hm w hw
    · exact absurd (h.known _ (.inr hm)) (Nat.lt_irrefl _)

/-- A frame is taken from the worker in the table, behind which no worker of its stream has
been read from. -/
theorem Cameras.Sound.read_frame (h : s.Sound) (id : StreamId) : (s.read_frame id).Sound := by
  unfold Cameras.read_frame
  cases hn : s.CAMERA_STREAMS id with
  | none => exact h
  | some n =>
    obtain ⟨w, hw, hwid, -⟩ := h.live id n hn
    have hlatest := h.latest id n hn
    rw [← hwid] at hlatest
    refine h.setWorker_frames (fun _ => rfl) (fun id' => ?_) (fun _ hw => hw) (fun _ hw => hw)
      (.inr fun _ => ⟨rfl, rfl⟩) fun w' _ hsound => ?_
    · have hnext : s.next_frame id = w.queue.head? := by
        simp [Cameras.next_frame, hn, hw]
      rw [takenOf_take hw hlatest, ← h.frames, hwid, hnext]
      unfold framesOf
      rw [List.filter_append, List.map_append]
      congr 1
      cases w.queue.head? with
      | none => simp
      | some frame =>
        by_cases hid : id' = id
        · simp [hid]
        · simp [hid, Ne.symm hid]
    · obtain ⟨hsent, hfew⟩ := hsound
      have hsame : (Cameras.take w').taken ++ (Cameras.take w').queue = w'.taken ++ w'.queue := by
        unfold Cameras.take
        cases w'.queue <;> simp
      refine ⟨?_, ?_⟩
      · rw [hsame]
        exact hsent
      · have htail : w'.queue.tail.length ≤ w'.queue.length := by simp
        exact Nat.le_trans htail hfew

theorem Cameras.Sound.step (h : s.Sound) {e : TableEvent} (he : s.Possible e) :
    (s.step e).Sound := by
  cases e with
  | remove id => exact h.remove id
  | store n => exact h.store he
  | drop n => exact h.drop he
  | insert id => exact (h.displace id).1.push (h.displace id).2
  | read_frame id => exact h.read_frame id
  | worker n x => exact h.worker he

end steps

/-- Whatever the interleaving, the plugin gets the pictures of a stream in their order, and no
worker is left behind that nobody can stop. -/
theorem camera_frames_are_pictures_in_order (r : CameraRun) :
    Always (fun es => CameraLaw (camerasAfter es)) r.events :=
  (always_of_steps Cameras.Sound.start (fun es e _ hes he => by
    rw [camerasAfter_snoc]
    exact hes.step he) r.possible : Always (fun es => (camerasAfter es).Sound) r.events).mono
      fun _ h => h.toCameraLaw

/-! ## The end of a worker -/

/-- The steps that a worker takes at most once it is told to stop. -/
def Phase.rank : Phase → Nat
  | .done _ => 0
  | .top => 1
  | .checking _ _ => 1
  | .connecting => 2
  | .offering _ => 2
  | .reading _ _ => 3

theorem Phase.rank_le (phase : Phase) : phase.rank ≤ 3 := by
  cases phase <;> simp [Phase.rank]

theorem rank_after_read (header : Option Bytes) (buf : Bytes) :
    (after_read header buf).rank ≤ 2 := by
  unfold after_read after_payload
  repeat' split
  all_goals simp [Phase.rank]

theorem Worker.rank_step {w : Worker} (hstop : w.stop = true) {x : WorkerStep}
    (hx : w.Possible x) : (w.step x).phase.rank + 1 ≤ w.phase.rank := by
  cases x with
  | connect ok =>
    have hphase : w.phase = .connecting := hx
    rw [hphase]
    cases ok with
    | true => exact Nat.le_refl 2
    | false => exact Nat.le_succ 1
  | check =>
    simp only [Worker.step, Worker.check]
    cases hphase : w.phase with
    | top => simp [hstop, Phase.rank]
    | checking header buf => simp [hstop, Phase.rank]
    | _ => simp [Worker.Possible, hphase] at hx
  | read r =>
    simp only [Worker.step, Worker.read]
    cases hphase : w.phase with
    | reading header buf =>
      cases r with
      | bytes c cs =>
        have := rank_after_read header (buf ++ c :: cs)
        change (after_read header (buf ++ c :: cs)).rank + 1 ≤ 3
        omega
      | _ => simp [Phase.rank]
    | _ => simp [Worker.Possible, Worker.reads, hphase] at hx
  | offer =>
    simp only [Worker.step, Worker.offer]
    cases hphase : w.phase with
    | offering payload =>
      dsimp only
      split <;> simp [Phase.rank]
    | _ => simp [Worker.Possible, hphase] at hx

/-- A worker that is not at its end can take a step. -/
theorem Worker.not_stuck {w : Worker} (h : w.phase.rank ≠ 0) : ∃ x, w.Possible x := by
  cases hphase : w.phase with
  | connecting => exact ⟨.connect true, hphase⟩
  | top => exact ⟨.check, .inl hphase⟩
  | checking header buf => exact ⟨.check, .inr (by rw [hphase])⟩
  | reading header buf => exact ⟨.read .eof, by simp [Worker.Possible, Worker.reads, hphase]⟩
  | offering payload => exact ⟨.offer, by simp [Worker.Possible, hphase]⟩
  | done state => exact absurd (by rw [hphase]; rfl) h

def isStepOf (n : Nat) : TableEvent → Bool
  | .worker m _ => m = n
  | _ => false

/-- Worker `n` has been told to stop, and has `k` steps to take at most. -/
def Stopping (n k : Nat) (s : Cameras) : Prop :=
  ∃ w, s.workers[n]? = some w ∧ w.stop = true ∧ w.phase.rank ≤ k

/-- A change of a worker that keeps the stop flag and the phase of worker `n`. -/
theorem Stopping.modify {n k : Nat} {s : Cameras} (h : Stopping n k s) {m : Nat}
    {f : Worker → Worker} (hf : ∀ w, w.stop = true → (f w).stop = true)
    (hphase : ∀ w, (f w).phase = w.phase) : Stopping n k (s.setWorker m f) := by
  obtain ⟨w, hw, hstop, hrank⟩ := h
  refine ⟨if m = n then f w else w, by rw [workers_setWorker, hw]; rfl, ?_, ?_⟩
  · split
    · exact hf w hstop
    · exact hstop
  · split
    · rwa [hphase]
    · exact hrank

theorem Stopping.congr {n k : Nat} {s s' : Cameras} (h : Stopping n k s)
    (heq : s'.workers = s.workers) : Stopping n k s' := by
  obtain ⟨w, hw, hrest⟩ := h
  exact ⟨w, heq ▸ hw, hrest⟩

theorem Stopping.step {n k : Nat} {s : Cameras} (h : Stopping n k s) {e : TableEvent}
    (he : s.Possible e) : ∃ k', Stopping n k' (s.step e) ∧ k' + (if isStepOf n e then 1 else 0) ≤ k := by
  cases e with
  | remove id =>
    refine ⟨k, ?_, Nat.le_refl _⟩
    simp only [Cameras.step, Cameras.remove]
    split
    · exact h.congr rfl
    · exact h
  | store m =>
    exact ⟨k, (h.modify (f := fun w => { w with stop := true }) (m := m) (fun _ _ => rfl)
      fun _ => rfl).congr rfl, Nat.le_refl _⟩
  | drop m =>
    exact ⟨k, (h.modify (f := fun w => { w with receiver := false }) (m := m) (fun _ hw => hw)
      fun _ => rfl).congr rfl, Nat.le_refl _⟩
  | insert id =>
    have hdisplace : Stopping n k (s.displace id) := by
      unfold Cameras.displace
      split
      · rename_i m _
        exact (h.modify (f := fun w => { w with receiver := false }) (m := m) (fun _ hw => hw)
          fun _ => rfl).congr rfl
      · exact h
    obtain ⟨w, hw, hrest⟩ := hdisplace
    refine ⟨k, ⟨w, ?_, hrest⟩, Nat.le_refl _⟩
    have hlt := (List.getElem?_eq_some_iff.mp hw).1
    simp only [Cameras.step, Cameras.insert, Cameras.push]
    rwa [List.getElem?_append_left hlt]
  | read_frame id =>
    refine ⟨k, ?_, Nat.le_refl _⟩
    simp only [Cameras.step, Cameras.read_frame]
    split
    · exact (h.modify (f := Cameras.take) (fun _ hw => hw) fun _ => rfl).congr rfl
    · exact h
  | worker m x =>
    obtain ⟨w, hw, hstop, hrank⟩ := h
    obtain ⟨w', hw', hpossible⟩ := he
    by_cases hmn : m = n
    · subst hmn
      rw [hw] at hw'
      cases hw'
      have hless := Worker.rank_step hstop hpossible
      refine ⟨(w.step x).phase.rank, ⟨w.step x, ?_, ?_, Nat.le_refl _⟩, ?_⟩
      · simp only [Cameras.step]
        rw [workers_setWorker, hw, Option.map_some, if_pos rfl]
      · rw [(w.step_frame x).2.2.1, hstop]
      · simp only [isStepOf, decide_true, if_true]
        omega
    · refine ⟨k, ⟨w, ?_, hstop, hrank⟩, by simp [isStepOf, hmn]⟩
      simp only [Cameras.step]
      rw [workers_setWorker, hw, Option.map_some, if_neg hmn]

/-- A worker that has been told to stop takes three more steps at most, whatever the others do,
and it is stuck only at its end. -/
theorem a_stopped_worker_ends (r : CameraRun) (more : List TableEvent)
    (hmore : Steps (fun pre e => (camerasAfter (r.events ++ pre)).Possible e) more) (n : Nat)
    (w : Worker) (hw : (camerasAfter r.events).workers[n]? = some w) (hstop : w.stop = true) :
    ∃ w', (camerasAfter (r.events ++ more)).workers[n]? = some w' ∧
      more.countP (isStepOf n) + w'.phase.rank ≤ 3 ∧
      ((∀ x, ¬ w'.Possible x) → ∃ state, w'.phase = .done state) := by
  suffices hends : ∃ k, Stopping n k (camerasAfter (r.events ++ more)) ∧
      more.countP (isStepOf n) + k ≤ 3 by
    obtain ⟨k, ⟨w', hw', -, hrank⟩, hcount⟩ := hends
    refine ⟨w', hw', by omega, fun hstuck => ?_⟩
    by_contra hnot
    have hrank : w'.phase.rank ≠ 0 := by
      cases hphase : w'.phase with
      | done state => exact absurd ⟨state, hphase⟩ hnot
      | _ => simp [Phase.rank]
    obtain ⟨x, hx⟩ := Worker.not_stuck hrank
    exact hstuck x hx
  induction more using List.reverseRecOn with
  | nil => exact ⟨3, ⟨w, by simpa using hw, hstop, w.phase.rank_le⟩, by simp⟩
  | append_singleton more e ih =>
    rw [steps_snoc] at hmore
    obtain ⟨k, hk, hcount⟩ := ih hmore.1
    obtain ⟨k', hk', hle⟩ := hk.step hmore.2
    refine ⟨k', ?_, ?_⟩
    · rw [← List.append_assoc, camerasAfter_snoc]
      exact hk'
    · rw [List.countP_append, List.countP_singleton]
      omega

/-- A stream is started and stopped while its worker is in a read. -/
def stoppedInRead : CameraRun where
  events := [.insert 7, .worker 0 (.connect true), .worker 0 .check, .worker 0 .check, .remove 7,
    .store 0]
  possible := by decide +kernel

theorem a_worker_stopped_in_a_read_ends : ∃ w',
    (camerasAfter (stoppedInRead.events ++ [.worker 0 (.read .interrupted), .drop 0,
      .worker 0 .check])).workers[0]? = some w' ∧
      [TableEvent.worker 0 (.read .interrupted), .drop 0, .worker 0 .check].countP (isStepOf 0) +
        w'.phase.rank ≤ 3 ∧
      ((∀ x, ¬ w'.Possible x) → ∃ state, w'.phase = .done state) :=
  a_stopped_worker_ends stoppedInRead _ (by decide +kernel) 0
    { stream_id := 7, stop := true, phase := .reading none [] } (by decide +kernel) rfl

end bambu_farm_client.camera
