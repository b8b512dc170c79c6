-- The reply queue of a tunnel. Whatever the order of the calls, the frames that
-- come out, followed by the ones still queued, are the frames that went in
-- since the last close, and a call that gives no frame takes none.
import BambuFarm.Channels
import BambuFarm.TunnelBridge

open runs channels json search
open bambu_farm_client.tunnel_protocol

namespace bambu_farm_client.tunnel_bridge

/-! ## What goes through the queue -/

/-- The queue of a tunnel. -/
def queueOf (t : TunnelId) (s : Bridge) : List Text :=
  ((s.tunnels t).map (·.queued_responses)).getD []

/-- The event makes the tunnel, closes it or ends it. -/
def empties (t : TunnelId) : Event → Bool
  | .create_tunnel u _ => u = t
  | .close_tunnel u => u = t
  | .destroy_tunnel _ u => u = t
  | .delete _ u => u = t
  | _ => false

/-- The frames that an event puts into the queue of the tunnel. -/
def queued (t : TunnelId) (s : Bridge) : Event → List Text
  | .enqueue c =>
    match s.calls c with
    | some (.answered u is_file_download response) =>
      if u = t ∧ (s.tunnels t).isSome then reply_frames is_file_download response else []
    | _ => []
  | _ => []

namespace CompatTunnel

/-- The frame of a sample that does not come from the camera. -/
def sampled (x : CompatTunnel) (frame : Text) (state : Int) : List Text :=
  if x.shows_video then [] else ((x.read_sample frame state).2.1.map (·.buffer)).toList

/-- The frame that a call copies to its buffer. -/
def received (x : CompatTunnel) (data : Bool) (len : Int) : List Text :=
  (x.recv_message data len).1.data.toList

end CompatTunnel

/-- The frames that an event returns to the caller from the queue of the tunnel. -/
def returned (t : TunnelId) (s : Bridge) : Event → List Text
  | .read_tunnel_sample u sample frame state =>
    if u = t ∧ sample = true then ((s.tunnels t).map (·.sampled frame state)).getD [] else []
  | .recv_tunnel_message u data (some len) =>
    if u = t then ((s.tunnels t).map (·.received data len)).getD [] else []
  | _ => []

/-- What the call returns that an event ends. -/
def codeOf (s : Bridge) : Event → Option Int
  | .create_tunnel _ none => some (-1)
  | .create_tunnel _ (some url) =>
    some (if bambu_query_param url (ascii "device") = [] then -1 else Bambu_success)
  | .open_tunnel _ => some Bambu_success
  | .start_tunnel_stream _ t video =>
    (s.tunnels t).bind fun x =>
      if video && !x.video_stream_started then none else some Bambu_success
  | .start_tunnel_stream_ex _ type => some (if type ≠ 0x3001 then -1 else Bambu_success)
  | .start_camera_stream _ ok => if ok then some Bambu_success else none
  | .retract _ => some (-1)
  | .send_tunnel_message _ _ ctrl data len =>
    if data.isNone ∨ len < 0 ∨ ctrl ≠ 0x3001 then some (-1) else none
  | .tunnel_request _ response => if response = [] then some (-1) else none
  | .enqueue _ => some Bambu_success
  | .read_tunnel_sample t sample frame state =>
    if sample = false then some (-1) else (s.tunnels t).map fun x => (x.read_sample frame state).1
  | .recv_tunnel_message _ _ none => some (-1)
  | .recv_tunnel_message t data (some len) =>
    (s.tunnels t).map fun x => (x.recv_message data len).1.code
  | .close_tunnel _ => none
  | .destroy_tunnel _ _ => none
  | .delete _ _ => none

/-! ## One tunnel -/

namespace CompatTunnel

theorem sampled_append (x : CompatTunnel) (frame : Text) (state : Int) :
    x.sampled frame state ++ (x.read_sample frame state).2.2.queued_responses =
      x.queued_responses := by
  unfold sampled read_sample
  split
  · split_ifs <;> rfl
  · split
    · rename_i h
      simp [h]
    · rename_i h
      simp [h]

theorem received_append (x : CompatTunnel) (data : Bool) (len : Int) :
    x.received data len ++ (x.recv_message data len).2.queued_responses =
      x.queued_responses := by
  unfold received recv_message
  split
  · rename_i h
    simp [h]
  · rename_i h
    split
    · simp [h]
    · simp [h]

/-- Only a sample that is given takes a frame. -/
theorem read_sample_refused {x : CompatTunnel} {frame : Text} {state : Int}
    (h : (x.read_sample frame state).1 ≠ Bambu_success) : (x.read_sample frame state).2.2 = x := by
  unfold read_sample at h ⊢
  split_ifs at h ⊢ with hv hf h0 h1
  · exact absurd rfl h
  · rfl
  · rfl
  · rfl
  · split at h
    · rfl
    · exact absurd rfl h

theorem recv_message_refused {x : CompatTunnel} {data : Bool} {len : Int}
    (h : (x.recv_message data len).1.code ≠ Bambu_success) : (x.recv_message data len).2 = x := by
  unfold recv_message at h ⊢
  split
  · rfl
  · rename_i hq
    simp only [hq] at h
    split
    · rfl
    · rename_i hfits
      rw [if_neg hfits] at h
      exact absurd rfl h

/-- A buffer that was too small tells the size of the frame. -/
theorem recv_message_small {x : CompatTunnel} {data : Bool} {len : Int}
    (h : (x.recv_message data len).1.code = Bambu_buffer_limit) :
    ∃ front, x.queued_responses.head? = some front ∧
      (x.recv_message data len).1.len = to_int front.length := by
  cases hq : x.queued_responses with
  | nil =>
    simp only [recv_message, hq] at h
    cases h
  | cons front rest =>
    refine ⟨front, rfl, ?_⟩
    unfold recv_message
    rw [hq]
    dsimp only
    split
    · dsimp only
    · dsimp only

/-- A buffer of that size gets it. -/
theorem recv_message_large {x : CompatTunnel} {front : Text} {len : Int}
    (h : x.queued_responses.head? = some front) (hlen : to_int front.length ≤ len) :
    (x.recv_message true len).1.code = Bambu_success ∧
      (x.recv_message true len).1.data = some front := by
  obtain ⟨rest, hq⟩ := List.head?_eq_some_iff.mp h
  have hfits : ¬ (true = false ∨ len < to_int front.length) := by
    rintro (htrue | hlt)
    · cases htrue
    · omega
  unfold recv_message
  rw [hq]
  dsimp only
  rw [if_neg hfits]
  exact ⟨rfl, rfl⟩

end CompatTunnel

/-! ## One event -/

section

variable {t : TunnelId} {s : Bridge}

theorem queueOf_congr {s' : Bridge} (h : s'.tunnels t = s.tunnels t) :
    queueOf t s' = queueOf t s := by
  unfold queueOf
  rw [h]

theorem queueOf_some {x : CompatTunnel} (h : s.tunnels t = some x) :
    queueOf t s = x.queued_responses := by
  simp [queueOf, h]

theorem queueOf_setTunnel (u : TunnelId) (x : CompatTunnel) :
    queueOf t (s.setTunnel u x) = if u = t then x.queued_responses else queueOf t s := by
  unfold queueOf Bridge.setTunnel
  by_cases h : u = t
  · simp [h]
  · simp [h, Function.update_of_ne (Ne.symm h)]

/-- A change of a tunnel that does not touch its queue. -/
theorem queueOf_setTunnel_same {u : TunnelId} {x x' : CompatTunnel} (h : s.tunnels u = some x)
    (hq : x'.queued_responses = x.queued_responses) :
    queueOf t (s.setTunnel u x') = queueOf t s := by
  rw [queueOf_setTunnel]
  split
  · rename_i hu
    subst hu
    rw [hq, queueOf_some h]
  · rfl

theorem queueOf_create_other {u : TunnelId} (hu : u ≠ t) (path : Option Text) :
    queueOf t (s.create u path) = queueOf t s := by
  unfold Bridge.create
  split
  · rfl
  · dsimp only
    split
    · rfl
    · rw [queueOf_setTunnel, if_neg hu]

theorem queueOf_close (u : TunnelId) (x : CompatTunnel) :
    queueOf t (s.close u x) = if u = t then [] else queueOf t s := by
  have hset := queueOf_setTunnel (t := t) (s := s) u x.closed
  unfold Bridge.close
  dsimp only
  split
  · exact hset
  · exact hset

theorem queueOf_start_stream {u : TunnelId} {x : CompatTunnel} (h : s.tunnels u = some x)
    (c : CallId) (video : Bool) : queueOf t (s.start_stream c u x video) = queueOf t s := by
  unfold Bridge.start_stream
  split
  · split
    · rfl
    · exact queueOf_setTunnel_same (s := { s with
        next_video_stream_id := s.next_video_stream_id + 1 }) h rfl
  · exact queueOf_setTunnel_same h rfl

theorem queueOf_start_camera_stream (c : CallId) (u : TunnelId) (id : StreamId) (ok : Bool) :
    queueOf t (s.start_camera_stream c u id ok) = queueOf t s := by
  unfold Bridge.start_camera_stream
  dsimp only
  split <;> rfl

theorem queueOf_retract (c : CallId) (u : TunnelId) : queueOf t (s.retract c u) = queueOf t s := by
  unfold Bridge.retract
  dsimp only
  split
  · rename_i x h
    have hx : s.tunnels u = some x := h
    exact queueOf_setTunnel_same (s := (s.setCall c none).fail _) hx rfl
  · rfl

theorem queueOf_send_message (c : CallId) (u : TunnelId) (ctrl : Int) (data : Option Text)
    (len : Int) : queueOf t (s.send_message c u ctrl data len) = queueOf t s := by
  unfold Bridge.send_message
  split
  · rfl
  · split_ifs <;> rfl

theorem queueOf_answer (c : CallId) (u : TunnelId) (is_file_download : Bool) (response : Text) :
    queueOf t (s.answer c u is_file_download response) = queueOf t s := by
  unfold Bridge.answer
  split <;> rfl

theorem queueOf_enqueue (c : CallId) (u : TunnelId) (is_file_download : Bool) (response : Text) :
    queueOf t (s.enqueue c u is_file_download response) = queueOf t s ++
      if u = t ∧ (s.tunnels t).isSome then reply_frames is_file_download response else [] := by
  unfold Bridge.enqueue
  dsimp only
  split
  · rename_i x h
    have hx : s.tunnels u = some x := h
    rw [queueOf_setTunnel]
    by_cases hu : u = t
    · subst hu
      simp [hx, CompatTunnel.enqueue, queueOf_some hx]
    · simp only [hu, if_false, false_and, List.append_nil]
      rfl
  · rename_i h
    have hx : s.tunnels u = none := h
    by_cases hu : u = t
    · subst hu
      simp only [hx, Option.isSome_none, Bool.false_eq_true, and_false, if_false, List.append_nil]
      rfl
    · simp only [hu, false_and, if_false, List.append_nil]
      rfl

theorem queueOf_read_sample (u : TunnelId) (x : CompatTunnel) (frame : Text) (state : Int) :
    queueOf t (s.read_sample u x true frame state) =
      if u = t then (x.read_sample frame state).2.2.queued_responses else queueOf t s := by
  rw [← queueOf_setTunnel]
  unfold Bridge.read_sample
  rw [if_neg (by simp)]
  dsimp only
  split <;> rfl

/-- An event that does not empty the queue takes frames from its front, or puts the frames
of one reply at its end. -/
theorem conserves_queueOf {e : Event} (h : empties t e = false) :
    Conserves Bridge.step (queueOf t) (queued t) (returned t) s e := by
  unfold Conserves
  cases e with
  | create_tunnel u path =>
    have hu : u ≠ t := by simpa [empties] using h
    simp [returned, queued, Bridge.step, queueOf_create_other hu]
  | close_tunnel u =>
    have hu : u ≠ t := by simpa [empties] using h
    simp only [returned, queued, Bridge.step, Bridge.onTunnel, List.nil_append, List.append_nil]
    split
    · exact (queueOf_close u _).trans (if_neg hu)
    · rfl
  | destroy_tunnel c u =>
    have hu : u ≠ t := by simpa [empties] using h
    simp only [returned, queued, Bridge.step, Bridge.onTunnel, List.nil_append, List.append_nil]
    split
    · exact (queueOf_close u _).trans (if_neg hu)
    · rfl
  | delete c u =>
    have hu : u ≠ t := by simpa [empties] using h
    simp only [returned, queued, Bridge.step, List.nil_append, List.append_nil]
    split
    · exact queueOf_congr (Function.update_of_ne (Ne.symm hu) _ _)
    · rfl
  | open_tunnel u =>
    simp only [returned, queued, Bridge.step, Bridge.onTunnel, List.nil_append, List.append_nil]
    split
    · rename_i x hx
      exact queueOf_setTunnel_same hx rfl
    · rfl
  | start_tunnel_stream c u video =>
    simp only [returned, queued, Bridge.step, Bridge.onTunnel, List.nil_append, List.append_nil]
    split
    · rename_i x hx
      exact queueOf_start_stream hx c video
    · rfl
  | start_tunnel_stream_ex u type =>
    simp only [returned, queued, Bridge.step, Bridge.onTunnel, Bridge.start_stream_ex,
      List.nil_append, List.append_nil]
    split
    · rename_i x hx
      split
      · rfl
      · exact queueOf_setTunnel_same hx rfl
    · rfl
  | start_camera_stream c ok =>
    simp only [returned, queued, Bridge.step, List.nil_append, List.append_nil]
    split
    · exact queueOf_start_camera_stream c _ _ ok
    · rfl
  | retract c =>
    simp only [returned, queued, Bridge.step, List.nil_append, List.append_nil]
    split
    · exact queueOf_retract c _
    · rfl
  | send_tunnel_message c u ctrl data len =>
    simp only [returned, queued, Bridge.step, Bridge.onTunnel, List.nil_append, List.append_nil]
    split
    · exact queueOf_send_message c u ctrl data len
    · rfl
  | tunnel_request c response =>
    simp only [returned, queued, Bridge.step, List.nil_append, List.append_nil]
    split
    · exact queueOf_answer c _ _ response
    · rfl
  | enqueue c =>
    cases hc : s.calls c with
    | none => simp [returned, queued, Bridge.step, hc]
    | some p =>
      cases p with
      | answered u is_file_download response =>
        simp only [returned, queued, Bridge.step, hc, List.nil_append]
        exact queueOf_enqueue c u is_file_download response
      | _ => simp [returned, queued, Bridge.step, hc]
  | read_tunnel_sample u sample frame state =>
    simp only [returned, queued, Bridge.step, Bridge.onTunnel, List.append_nil]
    cases sample with
    | false =>
      simp only [Bool.false_eq_true, and_false, if_false, List.nil_append, Bridge.read_sample]
      split <;> rfl
    | true =>
      by_cases hu : u = t
      · subst hu
        cases hx : s.tunnels u with
        | none => simp
        | some x =>
          simp only [true_and, if_true, Option.map_some, Option.getD_some, queueOf_read_sample,
            queueOf_some hx]
          exact x.sampled_append frame state
      · simp only [hu, false_and, if_false, List.nil_append]
        split
        · rw [queueOf_read_sample, if_neg hu]
        · rfl
  | recv_tunnel_message u data len =>
    simp only [queued, Bridge.step, Bridge.onTunnel, List.append_nil]
    cases len with
    | none =>
      simp only [returned, Bridge.recv_message, List.nil_append]
      split <;> rfl
    | some len =>
      simp only [returned, Bridge.recv_message]
      by_cases hu : u = t
      · subst hu
        cases hx : s.tunnels u with
        | none => simp
        | some x =>
          simp only [if_true, Option.map_some, Option.getD_some, queueOf_setTunnel,
            queueOf_some hx]
          exact x.received_append data len
      · simp only [hu, if_false, List.nil_append]
        split
        · rw [queueOf_setTunnel, if_neg hu]
        · rfl

/-- So over a run that does not empty the queue what comes out, followed by what is still
queued, is what was queued, followed by what goes in. -/
theorem queueOf_run {es : List Event} (h : ∀ e ∈ es, empties t e = false) :
    flow Bridge.step (returned t) s es ++ queueOf t (after Bridge.step s es) =
      queueOf t s ++ flow Bridge.step (queued t) s es :=
  conservation s es fun _ e he => conserves_queueOf (h e he)

/-- An event that moves no frame of the tunnel. -/
theorem queueOf_still {e : Event} (h : empties t e = false) (hputs : queued t s e = [])
    (htakes : returned t s e = []) : queueOf t (s.step e) = queueOf t s := by
  have hkeep := conserves_queueOf (s := s) h
  rw [Conserves, hputs, htakes] at hkeep
  simpa using hkeep

/-- What is queued at once is nothing, or all of a reply to a request on the tunnel. -/
theorem queued_whole (e : Event) :
    queued t s e = [] ∨ ∃ c is_file_download response, e = .enqueue c ∧
      s.calls c = some (.answered t is_file_download response) ∧
      queued t s e = reply_frames is_file_download response := by
  cases e with
  | enqueue c =>
    simp only [queued]
    split
    · rename_i u is_file_download response hc
      split
      · rename_i hu
        exact .inr ⟨c, is_file_download, response, rfl, by rw [hc, hu.1], rfl⟩
      · exact .inl rfl
    · exact .inl rfl
  | _ => exact .inl rfl

end

/-! ## The law -/

/-- The frames are the reply itself. Or its payload is longer than a chunk, and each frame has a
header of its own and a part of the payload: the parts join to the whole payload, and each header
names the length of its part and the offset at which the parts before it end. -/
def CarriesReply (response : Text) (frames : List Text) : Prop :=
  frames = [response] ∨ ∃ (header payload : Text) (f : FrameFields) (parts : List (Text × Text)),
    response = header ++ ascii "\n\n" ++ payload ∧
    kTunnelDownloadChunkSize < payload.length ∧
    frames = parts.map (fun part => part.1 ++ ascii "\n\n" ++ part.2) ∧
    (parts.map Prod.snd).flatten = payload ∧
    ∀ before part rest, parts = before ++ part :: rest → ∃ result,
      part.1 = frame_header f result part.2.length (before.map Prod.snd).flatten.length

/-- The frames from an offset on carry what is behind it. -/
theorem frames_from_parts (f : FrameFields) (payload : Text) (offset : Nat) :
    ∃ parts : List (Text × Text),
      frames_from f payload offset = parts.map (fun part => part.1 ++ ascii "\n\n" ++ part.2) ∧
      (parts.map Prod.snd).flatten = payload.drop offset ∧
      ∀ before part rest, parts = before ++ part :: rest → ∃ result,
        part.1 = frame_header f result part.2.length
          (offset + (before.map Prod.snd).flatten.length) := by
  fun_induction frames_from f payload offset with
  | case1 offset h ih =>
    obtain ⟨parts, hframes, hflat, hheaders⟩ := ih
    let size := min kTunnelDownloadChunkSize (payload.length - offset)
    have hsize : ((payload.drop offset).take size).length = size := by
      rw [List.length_take, List.length_drop]
      omega
    refine ⟨(frame_header f (if offset + size < payload.length then 1 else 0) size offset,
      (payload.drop offset).take size) :: parts, ?_, ?_, ?_⟩
    · rw [hframes]
      rfl
    · rw [List.map_cons, List.flatten_cons, hflat, take_chunk, ← List.drop_drop, List.take_append_drop]
    · intro before part rest hparts
      cases before with
      | nil =>
        cases hparts
        exact ⟨_, by rw [hsize]; rfl⟩
      | cons first before =>
        cases hparts
        obtain ⟨result, hresult⟩ := hheaders before part rest rfl
        refine ⟨result, ?_⟩
        -- a frame that another one follows is full
        have hfull : size = kTunnelDownloadChunkSize := by
          by_contra hne
          have hlast : ¬ offset + kTunnelDownloadChunkSize < payload.length := by omega
          rw [frames_from, if_neg hlast] at hframes
          simp at hframes
        rw [hresult, List.map_cons, List.flatten_cons, List.length_append, hsize, hfull,
          Nat.add_assoc]
  | case2 offset h =>
    refine ⟨[], rfl, ?_, by simp⟩
    rw [List.drop_eq_nil_of_le (by omega)]
    rfl

theorem carriesReply_frames {response header payload : Text} (f : FrameFields)
    (hresponse : response = header ++ ascii "\n\n" ++ payload)
    (hlarge : kTunnelDownloadChunkSize < payload.length) :
    CarriesReply response (frames_from f payload 0) := by
  obtain ⟨parts, hframes, hflat, hheaders⟩ := frames_from_parts f payload 0
  refine .inr ⟨header, payload, f, parts, hresponse, hlarge, hframes, hflat, ?_⟩
  intro before part rest hparts
  simpa using hheaders before part rest hparts

theorem reply_frames_carry (is_file_download : Bool) (response : Text) :
    CarriesReply response (reply_frames is_file_download response) := by
  unfold reply_frames split_file_download_response_frames
  split
  · split
    · exact .inl rfl
    · rename_i separator hseparator
      dsimp only
      split
      · exact .inl rfl
      · rename_i hlarge
        split
        · exact .inl rfl
        · exact carriesReply_frames _ (find_split hseparator) (Nat.not_le.mp hlarge)
  · exact .inl rfl

/-- The events end where the queue of the tunnel was emptied, or are none. -/
def Emptied (t : TunnelId) (es : List Event) : Prop :=
  es = [] ∨ ∃ pre e, es = pre ++ [e] ∧ empties t e = true

/-- The law of the replies of a tunnel, after the events of a run. -/
structure Lossless (t : TunnelId) (es : List Event) : Prop where
  /-- What came out since the queue was emptied, followed by what is still there, is what
  went in since then. -/
  fifo : ∀ before since, es = before ++ since → Emptied t before →
    (∀ e ∈ since, empties t e = false) →
    flow Bridge.step (returned t) (bridgeAfter before) since ++ queueOf t (bridgeAfter es) =
      flow Bridge.step (queued t) (bridgeAfter before) since
  /-- What goes in at once is all of one reply, in the order of its offsets. -/
  whole : ∀ e, queued t (bridgeAfter es) e = [] ∨ ∃ c is_file_download response,
    e = .enqueue c ∧ (bridgeAfter es).calls c = some (.answered t is_file_download response) ∧
    queued t (bridgeAfter es) e = reply_frames is_file_download response ∧
    CarriesReply response (queued t (bridgeAfter es) e)
  /-- A call that returns anything but success leaves the queue as it was. -/
  refused : ∀ e code, codeOf (bridgeAfter es) e = some code → code ≠ Bambu_success →
    (bridgeAfter es).possible e = true →
    queueOf t ((bridgeAfter es).step e) = queueOf t (bridgeAfter es)
  /-- So does a call that goes on, unless it ends the tunnel. -/
  under_way : ∀ e, codeOf (bridgeAfter es) e = none → empties t e = false →
    queueOf t ((bridgeAfter es).step e) = queueOf t (bridgeAfter es)
  /-- A receive with a buffer that was too small can be made again with one of the size that
  it told, and gets the frame that was too large for it, whatever was sent in between. -/
  retry : ∀ data len x, (bridgeAfter es).tunnels t = some x →
    (x.recv_message data len).1.code = Bambu_buffer_limit →
    ∃ front, (queueOf t (bridgeAfter es)).head? = some front ∧
      ∀ more len' y, (∀ e ∈ more, empties t e = false) →
        let tried := es ++ [.recv_tunnel_message t data (some len)]
        flow Bridge.step (returned t) (bridgeAfter tried) more = [] →
        (bridgeAfter (tried ++ more)).tunnels t = some y →
        (x.recv_message data len).1.len ≤ len' →
        (y.recv_message true len').1.code = Bambu_success ∧
        (y.recv_message true len').1.data = some front

section

variable {t : TunnelId} {s : Bridge}

/-- The queue is empty where an event has emptied it. -/
theorem queueOf_emptied {e : Event} (h : empties t e = true) (hp : s.possible e = true) :
    queueOf t (s.step e) = [] := by
  cases e with
  | create_tunnel u path =>
    have hu : u = t := by simpa [empties] using h
    have hfree : s.tunnels u = none := by simpa [Bridge.possible] using hp
    subst hu
    simp only [Bridge.step, Bridge.create]
    split
    · simp [queueOf, Bridge.fail, hfree]
    · split
      · simp [queueOf, Bridge.fail, hfree]
      · rw [queueOf_setTunnel, if_pos rfl]
  | close_tunnel u =>
    have hu : u = t := by simpa [empties] using h
    subst hu
    obtain ⟨x, hx⟩ := Option.isSome_iff_exists.mp hp
    simp only [Bridge.step, Bridge.onTunnel, hx]
    exact (queueOf_close u x).trans (if_pos rfl)
  | destroy_tunnel c u =>
    have hu : u = t := by simpa [empties] using h
    subst hu
    have hp' : (s.tunnels u).isSome = true ∧ (s.calls c).isNone = true := by
      simpa [Bridge.possible] using hp
    obtain ⟨x, hx⟩ := Option.isSome_iff_exists.mp hp'.1
    simp only [Bridge.step, Bridge.onTunnel, hx]
    exact (queueOf_close u x).trans (if_pos rfl)
  | delete c u =>
    have hu : u = t := by simpa [empties] using h
    have hc : s.calls c = some (.destroying u) := by simpa [Bridge.possible] using hp
    subst hu
    simp [Bridge.step, hc, queueOf]
  | _ => cases h

/-- A frame moves only in a call that ends well. -/
theorem moves_nothing {e : Event} (h : codeOf s e ≠ some Bambu_success) :
    queued t s e = [] ∧ returned t s e = [] := by
  cases e with
  | enqueue c => exact absurd rfl h
  | read_tunnel_sample u sample frame state =>
    refine ⟨rfl, ?_⟩
    simp only [returned]
    split
    · rename_i hu
      obtain ⟨rfl, rfl⟩ := hu
      cases hx : s.tunnels u with
      | none => rfl
      | some x =>
        have hcode : (x.read_sample frame state).1 ≠ Bambu_success := by
          simpa [codeOf, hx] using h
        have hkeep := x.sampled_append frame state
        rw [CompatTunnel.read_sample_refused hcode] at hkeep
        simpa using hkeep
    · rfl
  | recv_tunnel_message u data len =>
    refine ⟨rfl, ?_⟩
    cases len with
    | none => rfl
    | some len =>
      simp only [returned]
      split
      · rename_i hu
        subst hu
        cases hx : s.tunnels u with
        | none => rfl
        | some x =>
          have hcode : (x.recv_message data len).1.code ≠ Bambu_success := by
            simpa [codeOf, hx] using h
          have hkeep := x.received_append data len
          rw [CompatTunnel.recv_message_refused hcode] at hkeep
          simpa using hkeep
      · rfl
  | _ => exact ⟨rfl, rfl⟩

theorem queueOf_under_way {e : Event} (h : codeOf s e = none) (he : empties t e = false) :
    queueOf t (s.step e) = queueOf t s := by
  have hnot : codeOf s e ≠ some Bambu_success := by simp [h]
  obtain ⟨hputs, htakes⟩ := moves_nothing hnot
  exact queueOf_still he hputs htakes

theorem queueOf_refused {e : Event} {code : Int} (h : codeOf s e = some code)
    (hcode : code ≠ Bambu_success) (hp : s.possible e = true) :
    queueOf t (s.step e) = queueOf t s := by
  have hnot : codeOf s e ≠ some Bambu_success := by simpa [h] using hcode
  obtain ⟨hputs, htakes⟩ := moves_nothing hnot
  cases he : empties t e with
  | false => exact queueOf_still he hputs htakes
  | true =>
    -- of the calls that empty a queue only the making of a tunnel can fail
    cases e with
    | create_tunnel u path =>
      have hu : u = t := by simpa [empties] using he
      have hfree : s.tunnels u = none := by simpa [Bridge.possible] using hp
      subst hu
      rw [queueOf_emptied he hp]
      simp [queueOf, hfree]
    | close_tunnel u => cases h
    | destroy_tunnel c u => cases h
    | delete c u => cases h
    | _ => cases he

/-- After a receive that found its buffer too small, the same frame is at the front until
one is taken. -/
theorem front_stays {es more : List Event} {front : Text}
    (hfront : (queueOf t (after Bridge.step s es)).head? = some front)
    (hmore : ∀ e ∈ more, empties t e = false)
    (htaken : flow Bridge.step (returned t) (after Bridge.step s es) more = []) :
    (queueOf t (after Bridge.step s (es ++ more))).head? = some front := by
  have hkeep := queueOf_run (s := after Bridge.step s es) hmore
  rw [htaken, List.nil_append, ← after_append] at hkeep
  rw [hkeep, List.head?_append, hfront, Option.some_or]

end

end bambu_farm_client.tunnel_bridge
