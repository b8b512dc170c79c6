-- The camera streams of the tunnels. A stream is registered on the Rust side
-- after its tunnel has let go of its lock, so a close can come in between and
-- stop a stream that is not there yet. The law here says which orders leave a
-- stream behind that no tunnel knows.
import BambuFarm.Leases
import BambuFarm.TunnelBridge

open runs leases json

namespace bambu_farm_client.tunnel_bridge

/-! ## The law -/

/-- No call that starts, closes or destroys is under way. -/
def Idle (s : Bridge) : Prop :=
  ∀ c t stream_id, s.calls c ≠ some (.starting t stream_id) ∧
    s.calls c ≠ some (.start_failed t stream_id) ∧ s.calls c ≠ some (.destroying t)

structure Owned (s : Bridge) : Prop where
  /-- A stream belongs to a tunnel that shows it. -/
  shown : ∀ stream_id, s.CAMERA_STREAMS stream_id = true → ∃ t x, s.tunnels t = some x ∧
    x.video_stream_id = stream_id ∧ x.video_stream_started = true
  unshared : ∀ t u x y, s.tunnels t = some x → s.tunnels u = some y →
    x.video_stream_id = y.video_stream_id → x.video_stream_id ≠ 0 → t = u

def NoOrphan (es : List Event) : Prop := Idle (bridgeAfter es) → Owned (bridgeAfter es)

/-- A stream gets a number that is not `0`: the counter has not come round. -/
def Unwrapped (s : Bridge) : Event → Prop
  | .start_tunnel_stream _ t true => ∀ x, s.tunnels t = some x →
      x.video_stream_started = false → s.next_video_stream_id ≠ 0
  | _ => True

/-- A stream starts while its tunnel still has its number. A start that failed clears the
number of the tunnel, and a tunnel is deleted, while no stream of that number runs. -/
def Orderly (s : Bridge) : Event → Prop
  | .start_camera_stream c true => ∀ t stream_id, s.calls c = some (.starting t stream_id) →
      ∃ x, s.tunnels t = some x ∧ x.video_stream_id = stream_id
  | .retract c => ∀ t stream_id x, s.calls c = some (.start_failed t stream_id) →
      s.tunnels t = some x → s.CAMERA_STREAMS x.video_stream_id = false
  | .delete _ t => ∀ x, s.tunnels t = some x → s.CAMERA_STREAMS x.video_stream_id = false
  | _ => True

/-! ## The tunnels as holders of leases -/

/-- The start that a call has still to make. -/
def startOf : Option Pending → Option (TunnelId × StreamId)
  | some (.starting t stream_id) => some (t, stream_id)
  | _ => none

namespace Bridge

variable (s : Bridge)

/-- What the bridge knows of its streams. -/
def streams : Leases TunnelId CallId where
  carried t := ((s.tunnels t).map (·.video_stream_id)).getD 0
  entered := s.CAMERA_STREAMS
  asked c := startOf (s.calls c)
  next := s.next_video_stream_id

/-- What an event does to the streams. -/
def change : Event → Change TunnelId CallId
  | .start_tunnel_stream c t true =>
    match s.tunnels t with
    | some x => if x.video_stream_started then .keep else .hand_out c t
    | none => .keep
  | .start_camera_stream c ok =>
    match s.calls c with
    | some (.starting t stream_id) => if ok then .enter c t stream_id else .refuse c t stream_id
    | _ => .keep
  | .retract c =>
    match s.calls c with
    | some (.start_failed t _) => .drop t
    | _ => .keep
  | .close_tunnel t => .give_back t
  | .destroy_tunnel _ t => .give_back t
  | .delete _ t => .drop t
  | _ => .keep

variable {s}

theorem streams_setTunnel (t : TunnelId) (x : CompatTunnel) :
    (s.setTunnel t x).streams =
      { s.streams with carried := Function.update s.streams.carried t x.video_stream_id } := by
  unfold streams setTunnel
  congr 1
  funext u
  by_cases hu : u = t
  · subst hu
    simp
  · simp [Function.update_of_ne hu]

theorem streams_setCall (c : CallId) (p : Option Pending) :
    (s.setCall c p).streams =
      { s.streams with asked := Function.update s.streams.asked c (startOf p) } := by
  unfold streams setCall
  congr 1
  funext d
  by_cases hd : d = c
  · subst hd
    simp
  · simp [Function.update_of_ne hd]

/-- A change of a tunnel that does not touch its stream. -/
theorem streams_setTunnel_same {t : TunnelId} {x x' : CompatTunnel} (h : s.tunnels t = some x)
    (hid : x'.video_stream_id = x.video_stream_id) : (s.setTunnel t x').streams = s.streams := by
  have hold : s.streams.carried t = x'.video_stream_id := by simp [streams, h, hid]
  rw [streams_setTunnel, ← hold, Function.update_eq_self]

/-- A change of a call that does not start a stream. -/
theorem streams_setCall_same {c : CallId} {p : Option Pending} (hc : startOf (s.calls c) = none)
    (hp : startOf p = none) : (s.setCall c p).streams = s.streams := by
  have hold : s.streams.asked c = startOf p := by
    rw [hp]
    exact hc
  rw [streams_setCall, ← hold, Function.update_eq_self]

theorem streams_stop (stream_id : StreamId) :
    (s.stop_camera_stream stream_id).streams =
      { s.streams with entered := Function.update s.streams.entered stream_id false } := rfl

theorem streams_fail (message : String) : (s.fail message).streams = s.streams := rfl

theorem streams_close {t : TunnelId} {x : CompatTunnel} (h : s.tunnels t = some x) :
    (s.close t x).streams = s.streams.apply (.give_back t) := by
  have hid : s.streams.carried t = x.video_stream_id := by simp [streams, h]
  unfold close
  dsimp only
  simp only [Leases.apply, hid]
  split
  · rw [streams_stop, streams_setTunnel]
    rfl
  · rw [streams_setTunnel]
    rfl

theorem streams_start_stream {c : CallId} {t : TunnelId} {x : CompatTunnel} {video : Bool}
    (h : s.tunnels t = some x) :
    (s.start_stream c t x video).streams =
      s.streams.apply (s.change (.start_tunnel_stream c t video)) := by
  unfold start_stream
  cases video with
  | false => exact streams_setTunnel_same h rfl
  | true =>
    simp only [if_true, change, h]
    split
    · rfl
    · rw [streams_setCall, streams_setTunnel]
      rfl

theorem streams_start_camera_stream {c : CallId} {t : TunnelId} {stream_id : StreamId}
    {ok : Bool} (h : s.calls c = some (.starting t stream_id)) :
    (s.start_camera_stream c t stream_id ok).streams =
      s.streams.apply (s.change (.start_camera_stream c ok)) := by
  unfold start_camera_stream
  simp only [change, h]
  cases ok with
  | true =>
    simp only [if_true]
    rw [streams_setCall]
    simp [Leases.apply, streams, stop_camera_stream, startOf]
  | false =>
    simp only [Bool.false_eq_true, if_false]
    rw [streams_setCall, streams_stop]
    rfl

theorem streams_retract {c : CallId} {t : TunnelId} {stream_id : StreamId}
    (h : s.calls c = some (.start_failed t stream_id)) :
    (s.retract c t).streams = s.streams.apply (.drop t) := by
  have hcall : ((s.setCall c none).fail
      "Bambu_StartStream: failed to start camera stream").streams = s.streams := by
    rw [streams_fail, streams_setCall_same (by rw [h]; rfl) rfl]
  unfold retract
  dsimp only
  split
  · rename_i x hx
    rw [streams_setTunnel, hcall]
    rfl
  · rename_i hx
    have hnone : s.streams.carried t = 0 := by
      have : s.tunnels t = none := hx
      simp [streams, this]
    simp only [Leases.apply]
    rw [hcall, ← hnone, Function.update_eq_self]

theorem streams_create {t : TunnelId} (h : s.tunnels t = none) (path : Option Text) :
    (s.create t path).streams = s.streams := by
  have hnone : s.streams.carried t = 0 := by simp [streams, h]
  unfold create
  split
  · rfl
  · dsimp only
    split
    · rfl
    · rw [streams_setTunnel, ← hnone, Function.update_eq_self]

theorem streams_send_message {c : CallId} (h : s.calls c = none) (t : TunnelId) (ctrl : Int)
    (data : Option Text) (len : Int) :
    (s.send_message c t ctrl data len).streams = s.streams := by
  unfold send_message
  split
  · rfl
  · split
    · rfl
    · split
      · rfl
      · exact streams_setCall_same (by rw [h]; rfl) rfl

theorem streams_answer {c : CallId} {t : TunnelId} {is_file_download : Bool}
    (h : s.calls c = some (.sending t is_file_download)) (response : Text) :
    (s.answer c t is_file_download response).streams = s.streams := by
  unfold answer
  split
  · rw [streams_fail, streams_setCall_same (by rw [h]; rfl) rfl]
  · rw [streams_setCall_same (by rw [h]; rfl) rfl]

theorem streams_enqueue {c : CallId} {t : TunnelId} {is_file_download : Bool} {response : Text}
    (h : s.calls c = some (.answered t is_file_download response)) :
    (s.enqueue c t is_file_download response).streams = s.streams := by
  have hcall : (s.setCall c none).streams = s.streams :=
    streams_setCall_same (by rw [h]; rfl) rfl
  unfold enqueue
  dsimp only
  split
  · rename_i x hx
    have hset : ((s.setCall c none).setTunnel t (x.enqueue is_file_download response)).streams =
        (s.setCall c none).streams := streams_setTunnel_same hx rfl
    rw [hset, hcall]
  · exact hcall

theorem video_stream_id_read_sample (x : CompatTunnel) (frame : Text) (state : Int) :
    (x.read_sample frame state).2.2.video_stream_id = x.video_stream_id ∧
      (x.read_sample frame state).2.2.video_stream_started = x.video_stream_started := by
  unfold CompatTunnel.read_sample
  split_ifs
  · exact ⟨rfl, rfl⟩
  · exact ⟨rfl, rfl⟩
  · exact ⟨rfl, rfl⟩
  · exact ⟨rfl, rfl⟩
  · split <;> exact ⟨rfl, rfl⟩

theorem video_stream_id_recv_message (x : CompatTunnel) (data : Bool) (len : Int) :
    (x.recv_message data len).2.video_stream_id = x.video_stream_id ∧
      (x.recv_message data len).2.video_stream_started = x.video_stream_started := by
  unfold CompatTunnel.recv_message
  split
  · exact ⟨rfl, rfl⟩
  · split <;> exact ⟨rfl, rfl⟩

theorem streams_read_sample {t : TunnelId} {x : CompatTunnel} (h : s.tunnels t = some x)
    (sample : Bool) (frame : Text) (state : Int) :
    (s.read_sample t x sample frame state).streams = s.streams := by
  unfold read_sample
  split
  · rfl
  · have hset := streams_setTunnel_same h (video_stream_id_read_sample x frame state).1
    dsimp only
    split
    · exact hset
    · exact hset

theorem streams_recv_message {t : TunnelId} {x : CompatTunnel} (h : s.tunnels t = some x)
    (data : Bool) (len : Option Int) : (s.recv_message t x data len).streams = s.streams := by
  unfold recv_message
  split
  · rfl
  · rename_i len
    exact streams_setTunnel_same h (video_stream_id_recv_message x data len).1

theorem streams_delete {c : CallId} {t : TunnelId} (h : s.calls c = some (.destroying t)) :
    (s.step (.delete c t)).streams = s.streams.apply (.drop t) := by
  have hcall : (s.setCall c none).streams = s.streams :=
    streams_setCall_same (by rw [h]; rfl) rfl
  have hcarried : (fun u => ((Function.update s.tunnels t none u).map (·.video_stream_id)).getD 0) =
      Function.update s.streams.carried t 0 := by
    funext u
    by_cases hu : u = t
    · subst hu
      simp
    · simp [Function.update_of_ne hu, streams]
  simp only [step, h, if_true, Leases.apply]
  rw [← hcarried, ← hcall]
  rfl

/-- Each event does to the streams what `change` says. -/
theorem streams_step {e : Event} (hp : s.possible e = true) :
    (s.step e).streams = s.streams.apply (s.change e) := by
  cases e with
  | create_tunnel t path =>
    have hfree : s.tunnels t = none := by simpa [possible] using hp
    exact streams_create hfree path
  | open_tunnel t =>
    obtain ⟨x, hx⟩ := Option.isSome_iff_exists.mp hp
    simp only [step, onTunnel, hx]
    exact streams_setTunnel_same hx rfl
  | start_tunnel_stream c t video =>
    simp only [possible, Bool.and_eq_true] at hp
    obtain ⟨x, hx⟩ := Option.isSome_iff_exists.mp hp.1
    simp only [step, onTunnel, hx]
    exact streams_start_stream hx
  | start_tunnel_stream_ex t type =>
    obtain ⟨x, hx⟩ := Option.isSome_iff_exists.mp hp
    simp only [step, onTunnel, hx, start_stream_ex]
    split
    · rfl
    · exact streams_setTunnel_same hx rfl
  | start_camera_stream c ok =>
    simp only [possible] at hp
    split at hp
    · rename_i t stream_id hc
      simp only [step, hc]
      exact streams_start_camera_stream hc
    · cases hp
  | retract c =>
    simp only [possible] at hp
    split at hp
    · rename_i t stream_id hc
      simp only [step, change, hc]
      exact streams_retract hc
    · cases hp
  | send_tunnel_message c t ctrl data len =>
    simp only [possible, Bool.and_eq_true, Option.isNone_iff_eq_none] at hp
    obtain ⟨x, hx⟩ := Option.isSome_iff_exists.mp hp.1
    simp only [step, onTunnel, hx]
    exact streams_send_message hp.2 t ctrl data len
  | tunnel_request c response =>
    simp only [possible] at hp
    split at hp
    · rename_i t is_file_download hc
      simp only [step, hc]
      exact streams_answer hc response
    · cases hp
  | enqueue c =>
    simp only [possible] at hp
    split at hp
    · rename_i t is_file_download response hc
      simp only [step, hc]
      exact streams_enqueue hc
    · cases hp
  | read_tunnel_sample t sample frame state =>
    obtain ⟨x, hx⟩ := Option.isSome_iff_exists.mp hp
    simp only [step, onTunnel, hx]
    exact streams_read_sample hx sample frame state
  | recv_tunnel_message t data len =>
    obtain ⟨x, hx⟩ := Option.isSome_iff_exists.mp hp
    simp only [step, onTunnel, hx]
    exact streams_recv_message hx data len
  | close_tunnel t =>
    obtain ⟨x, hx⟩ := Option.isSome_iff_exists.mp hp
    simp only [step, onTunnel, hx]
    exact streams_close hx
  | destroy_tunnel c t =>
    simp only [possible, Bool.and_eq_true, Option.isNone_iff_eq_none] at hp
    obtain ⟨x, hx⟩ := Option.isSome_iff_exists.mp hp.1
    have hc : (s.close t x).calls c = none := by
      unfold close
      dsimp only
      split <;> exact hp.2
    simp only [step, onTunnel, hx]
    rw [streams_setCall_same (by rw [hc]; rfl) rfl]
    exact streams_close hx
  | delete c t =>
    have hc : s.calls c = some (.destroying t) := by simpa [possible] using hp
    exact streams_delete hc

end Bridge

/-! ## The flag of a tunnel -/

/-- A tunnel shows a video just when it has the number of a stream. -/
def CompatTunnel.Flagged (x : CompatTunnel) : Prop :=
  x.video_stream_started = true ↔ x.video_stream_id ≠ 0

def Flagged (s : Bridge) : Prop := ∀ t x, s.tunnels t = some x → x.Flagged

section

variable {s : Bridge}

theorem Flagged.setTunnel (h : Flagged s) (t : TunnelId) {x : CompatTunnel} (hx : x.Flagged) :
    Flagged (s.setTunnel t x) := by
  intro u y hy
  by_cases hu : u = t
  · subst hu
    simp only [Bridge.setTunnel, Function.update_self, Option.some.injEq] at hy
    exact hy ▸ hx
  · simp only [Bridge.setTunnel, Function.update_of_ne hu] at hy
    exact h u y hy

theorem flagged_none {x : CompatTunnel} (hflag : x.video_stream_started = false)
    (hid : x.video_stream_id = 0) : x.Flagged := by
  simp [CompatTunnel.Flagged, hflag, hid]

theorem Flagged.close (h : Flagged s) (t : TunnelId) (x : CompatTunnel) :
    Flagged (s.close t x) := by
  have hset := h.setTunnel t (flagged_none (x := x.closed) rfl rfl)
  unfold Bridge.close
  dsimp only
  split
  · exact hset
  · exact hset

theorem Flagged.step (h : Flagged s) {e : Event} (hu : Unwrapped s e) : Flagged (s.step e) := by
  cases e with
  | create_tunnel t path =>
    simp only [Bridge.step, Bridge.create]
    split
    · exact h
    · split
      · exact h
      · exact h.setTunnel t (flagged_none rfl rfl)
  | open_tunnel t =>
    simp only [Bridge.step, Bridge.onTunnel]
    split
    · rename_i x hx
      exact h.setTunnel t (h t x hx)
    · exact h
  | start_tunnel_stream c t video =>
    simp only [Bridge.step, Bridge.onTunnel, Bridge.start_stream]
    split
    · rename_i x hx
      cases video with
      | false => exact h.setTunnel t (h t x hx)
      | true =>
        simp only [if_true]
        split
        · exact h
        · rename_i hoff
          have hne : s.next_video_stream_id ≠ 0 := hu x hx (by simpa using hoff)
          have hpublished : (x.publish_video s.next_video_stream_id).Flagged := by
            simp [CompatTunnel.Flagged, CompatTunnel.publish_video, hne]
          exact h.setTunnel t hpublished
    · exact h
  | start_tunnel_stream_ex t type =>
    simp only [Bridge.step, Bridge.onTunnel, Bridge.start_stream_ex]
    split
    · rename_i x hx
      split
      · exact h
      · exact h.setTunnel t (h t x hx)
    · exact h
  | start_camera_stream c ok =>
    simp only [Bridge.step, Bridge.start_camera_stream]
    split
    · split <;> exact h
    · exact h
  | retract c =>
    simp only [Bridge.step, Bridge.retract]
    split
    · split
      · exact h.setTunnel _ (flagged_none rfl rfl)
      · exact h
    · exact h
  | send_tunnel_message c t ctrl data len =>
    simp only [Bridge.step, Bridge.onTunnel, Bridge.send_message]
    split
    · split
      · exact h
      · split_ifs <;> exact h
    · exact h
  | tunnel_request c response =>
    simp only [Bridge.step, Bridge.answer]
    split
    · split <;> exact h
    · exact h
  | enqueue c =>
    simp only [Bridge.step, Bridge.enqueue]
    split
    · split
      · rename_i t _ _ _ _ x hx
        exact h.setTunnel t (h t x hx)
      · exact h
    · exact h
  | read_tunnel_sample t sample frame state =>
    simp only [Bridge.step, Bridge.onTunnel, Bridge.read_sample]
    split
    · rename_i x hx
      have hset : Flagged (s.setTunnel t (x.read_sample frame state).2.2) := by
        apply h.setTunnel t
        obtain ⟨hid, hflag⟩ := Bridge.video_stream_id_read_sample x frame state
        rw [CompatTunnel.Flagged, hid, hflag]
        exact h t x hx
      split_ifs
      · exact h
      · exact hset
      · exact hset
    · exact h
  | recv_tunnel_message t data len =>
    simp only [Bridge.step, Bridge.onTunnel, Bridge.recv_message]
    split
    · rename_i x hx
      split
      · exact h
      · rename_i len
        apply h.setTunnel t
        obtain ⟨hid, hflag⟩ := Bridge.video_stream_id_recv_message x data len
        rw [CompatTunnel.Flagged, hid, hflag]
        exact h t x hx
    · exact h
  | close_tunnel t =>
    simp only [Bridge.step, Bridge.onTunnel]
    split
    · exact h.close t _
    · exact h
  | destroy_tunnel c t =>
    simp only [Bridge.step, Bridge.onTunnel]
    split
    · exact h.close t _
    · exact h
  | delete c t =>
    simp only [Bridge.step]
    split
    · intro u y hy
      by_cases hut : u = t
      · subst hut
        simp at hy
      · simp only [Function.update_of_ne hut] at hy
        exact h u y hy
    · exact h

theorem streams_fits (hf : Flagged s) {e : Event} : s.streams.Fits (s.change e) := by
  cases e with
  | start_tunnel_stream c t video =>
    cases video with
    | false => trivial
    | true =>
      simp only [Bridge.change]
      split
      · rename_i x hx
        split
        · trivial
        · rename_i hoff
          have hzero : x.video_stream_id = 0 := by
            by_contra hne
            exact hoff ((hf t x hx).mpr hne)
          simp [Leases.Fits, Bridge.streams, hx, hzero]
      · trivial
  | start_camera_stream c ok =>
    simp only [Bridge.change]
    split
    · rename_i t stream_id hc
      have hasked : s.streams.asked c = some (t, stream_id) := by
        simp [Bridge.streams, hc, startOf]
      split <;> exact hasked
    · trivial
  | retract c =>
    simp only [Bridge.change]
    split <;> trivial
  | _ => trivial

theorem streams_unwrapped {e : Event} (hu : Unwrapped s e) : s.streams.Unwrapped (s.change e) := by
  cases e with
  | start_tunnel_stream c t video =>
    cases video with
    | false => trivial
    | true =>
      simp only [Bridge.change]
      split
      · rename_i x hx
        split
        · trivial
        · rename_i hoff
          exact hu x hx (by simpa using hoff)
      · trivial
  | start_camera_stream c ok =>
    simp only [Bridge.change]
    split
    · split <;> trivial
    · trivial
  | retract c =>
    simp only [Bridge.change]
    split <;> trivial
  | _ => trivial

theorem carried_some {t : TunnelId} {x : CompatTunnel} (h : s.tunnels t = some x) :
    s.streams.carried t = x.video_stream_id := by
  simp [Bridge.streams, h]

theorem carried_none {t : TunnelId} (h : s.tunnels t = none) : s.streams.carried t = 0 := by
  simp [Bridge.streams, h]

/-- A tunnel that is not there has no stream. -/
theorem drop_orderly_iff (hs : s.streams.Sound) (t : TunnelId) :
    s.streams.Orderly (.drop t) ↔
      ∀ x, s.tunnels t = some x → s.CAMERA_STREAMS x.video_stream_id = false := by
  cases hx : s.tunnels t with
  | some x =>
    simp only [Leases.Orderly, carried_some hx, Option.some.injEq, forall_eq']
    rfl
  | none =>
    have hzero : s.streams.entered 0 = false := by
      cases h : s.streams.entered 0 with
      | false => rfl
      | true => exact absurd rfl (hs.entered_used 0 h).1
    simp [Leases.Orderly, carried_none hx, hzero]

theorem orderly_iff (hs : s.streams.Sound) {e : Event} (hp : s.possible e = true) :
    s.streams.Orderly (s.change e) ↔ Orderly s e := by
  cases e with
  | start_tunnel_stream c t video =>
    cases video with
    | false => exact Iff.rfl
    | true =>
      simp only [Bridge.change, Orderly, iff_true]
      split
      · split <;> trivial
      · trivial
  | start_camera_stream c ok =>
    simp only [Bridge.possible] at hp
    split at hp
    · rename_i t stream_id hc
      simp only [Bridge.change, hc]
      cases ok with
      | false => simp [Leases.Orderly, Orderly]
      | true =>
        have hne : stream_id ≠ 0 := (hs.asked_used c t stream_id (by
          simp [Bridge.streams, hc, startOf])).1
        simp only [if_true, Leases.Orderly, Orderly, hc, Option.some.injEq, Pending.starting.injEq,
          and_imp]
        cases hx : s.tunnels t with
        | some x => simp [carried_some hx, hx]
        | none => simp [carried_none hx, hx, hne.symm]
    · cases hp
  | retract c =>
    simp only [Bridge.possible] at hp
    split at hp
    · rename_i t stream_id hc
      simp only [Bridge.change, hc]
      rw [drop_orderly_iff hs]
      constructor
      · intro h u i x hu hx
        rw [hc] at hu
        cases hu
        exact h x hx
      · intro h x hx
        exact h t stream_id x hc hx
    · cases hp
  | delete c t => exact drop_orderly_iff hs t
  | _ => exact Iff.rfl

theorem owned_iff (hf : Flagged s) (hs : s.streams.Sound) :
    Owned s ↔ ∀ stream_id, ¬ s.streams.Lost stream_id := by
  constructor
  · rintro h stream_id ⟨hin, hno⟩
    obtain ⟨t, x, hx, hid, -⟩ := h.shown stream_id hin
    exact hno t ((carried_some hx).trans hid)
  · intro h
    refine ⟨fun stream_id hin => ?_, fun t u x y hx hy hid hne => ?_⟩
    · by_contra hnone
      refine h stream_id ⟨hin, fun t ht => hnone ?_⟩
      have hne := (hs.entered_used stream_id hin).1
      cases hx : s.tunnels t with
      | none =>
        rw [carried_none hx] at ht
        exact absurd ht.symm hne
      | some x =>
        rw [carried_some hx] at ht
        exact ⟨t, x, hx, ht, (hf t x hx).mpr (ht ▸ hne)⟩
    · rw [← carried_some hx, ← carried_some hy] at hid
      rw [← carried_some hx] at hne
      exact hs.unshared t u hid hne

end

/-- What holds after any events that could each happen and that found the counter not come
round. -/
theorem sound_of_unwrapped {es : List Event}
    (h : Steps (fun pre e => (bridgeAfter pre).possible e = true ∧
      Unwrapped (bridgeAfter pre) e) es) :
    Flagged (bridgeAfter es) ∧ (bridgeAfter es).streams.Sound := by
  have hstart : Flagged ({} : Bridge) ∧ ({} : Bridge).streams.Sound := by
    refine ⟨fun t x hx => (by cases hx), ?_⟩
    constructor <;> simp [Bridge.streams, startOf]
  refine (always_of_steps (P := fun es => Flagged (bridgeAfter es) ∧
    (bridgeAfter es).streams.Sound) hstart (fun pre e _ hpre he => ?_) h).last
  rw [bridgeAfter_snoc, Bridge.streams_step he.1]
  exact ⟨hpre.1.step he.2,
    Leases.sound_apply hpre.2 (streams_fits hpre.1) (streams_unwrapped he.2)⟩

/-- A stream is lost exactly by an event that is not orderly. -/
theorem owned_iff_orderly {es : List Event}
    (h : Steps (fun pre e => (bridgeAfter pre).possible e = true ∧
      Unwrapped (bridgeAfter pre) e) es) :
    Owned (bridgeAfter es) ↔ Steps (fun pre e => Orderly (bridgeAfter pre) e) es := by
  obtain ⟨hf, hs⟩ := sound_of_unwrapped h
  rw [owned_iff hf hs]
  refine last_iff_steps (P := fun es => ∀ i, ¬ (bridgeAfter es).streams.Lost i)
    (fun i hi => by cases hi.1) (fun pre e hpre he => ?_) h
  obtain ⟨hfpre, hspre⟩ := sound_of_unwrapped hpre
  rw [bridgeAfter_snoc, Bridge.streams_step he.1, Leases.none_lost_apply hspre
    (streams_fits hfpre) (streams_unwrapped he.2), orderly_iff hspre he.1]

/-- In a run of orderly events each stream belongs to a tunnel that shows it, whenever no
call is under way. In a run that ends with no call under way, and in which the counter has
not come round, the events were orderly if it is so at the end. -/
theorem no_camera_stream_is_orphaned (r : Run) :
    (Steps (fun es e => Unwrapped (bridgeAfter es) e ∧ Orderly (bridgeAfter es) e) r.events →
      Always NoOrphan r.events) ∧
    (Steps (fun es e => Unwrapped (bridgeAfter es) e) r.events → Idle (bridgeAfter r.events) →
      NoOrphan r.events → Steps (fun es e => Orderly (bridgeAfter es) e) r.events) := by
  refine ⟨fun h i _ _ => ?_, fun hu hidle h => ?_⟩
  · have hsound := (r.possible.and (h.mono fun _ _ he => he.1)).take i
    exact (owned_iff_orderly hsound).mpr ((h.mono fun _ _ he => he.2).take i)
  · exact (owned_iff_orderly (r.possible.and hu)).mp (h hidle)

/-- A tunnel is closed after its stream got its number and before it started. -/
def closedEarly : Run where
  events := [.create_tunnel 1 (some (ascii "bambu:///local/?device=printer-1")),
    .start_tunnel_stream 0 1 true, .close_tunnel 1, .start_camera_stream 0 true]
  possible := by decide +kernel

theorem a_tunnel_closed_early_leaves_its_camera_running : ¬ Always NoOrphan closedEarly.events := by
  have hcalls : (bridgeAfter closedEarly.events).calls =
      Function.update (Function.update (fun _ => none) 0 (some (.starting 1 1))) 0 none := by
    rfl
  intro h
  have hidle : Idle (bridgeAfter closedEarly.events) := by
    intro c t stream_id
    rw [hcalls]
    by_cases hc : c = 0
    · simp [hc]
    · simp [hc]
  -- no tunnel but the closed one is there, and that one has no stream
  obtain ⟨made, started, closed, htunnels⟩ : ∃ made started closed,
      (bridgeAfter closedEarly.events).tunnels = Function.update (Function.update (Function.update
        (fun _ => none) 1 made) 1 started) 1 closed := ⟨_, _, _, rfl⟩
  obtain ⟨t, x, hx, hid, -⟩ := (h.last hidle).shown 1 (by decide +kernel)
  by_cases ht : t = 1
  · have hzero : ((bridgeAfter closedEarly.events).tunnels 1).map (·.video_stream_id) = some 0 := by
      decide +kernel
    rw [← ht, hx, Option.map_some, hid] at hzero
    cases hzero
  · rw [htunnels] at hx
    simp [Function.update_of_ne ht] at hx

end bambu_farm_client.tunnel_bridge
