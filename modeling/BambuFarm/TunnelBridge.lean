-- The tunnels of the plugin (`tunnel_bridge.cpp`): replies to requests in a
-- queue, and a camera stream. A call is cut at the lock of its tunnel and at
-- its calls into the Rust side, and calls of any number of threads interleave
-- there.
import BambuFarm.Runs
import BambuFarm.TunnelProtocol
import Mathlib.Logic.Function.Basic

open runs json search
open bambu_farm_client.tunnel_protocol

namespace bambu_farm_client.tunnel_bridge

/-! ## One tunnel -/

def Bambu_success : Int := 0
def Bambu_stream_end : Int := 1
def Bambu_would_block : Int := 2
def Bambu_buffer_limit : Int := 3

/-- The number of a camera stream, a `uint64_t`. -/
abbrev StreamId := UInt64

structure CompatTunnel where
  url : Text
  device_id : Text
  opened : Bool := false
  control_stream_started : Bool := false
  video_stream_started : Bool := false
  queued_responses : List Text := []
  active_response : Text := []
  video_stream_id : StreamId := 0
  active_decode_time : Nat := 0
  deriving DecidableEq

/-- `static_cast<int>` of a size -/
def to_int (n : Nat) : Int := (n : Int).bmod (2 ^ 32)

structure Bambu_Sample where
  itrack : Int
  size : Int
  flags : Int
  buffer : Text
  decode_time : Nat
  deriving DecidableEq

/-- What `recv_tunnel_message` returns, and what it leaves in `*len`, `*ctrl` and `data`. -/
structure Received where
  code : Int
  len : Int
  ctrl : Option Int := none
  data : Option Text := none
  deriving DecidableEq

/-- The value of `key` in the query of a URL. -/
def bambu_query_param (url key : Text) : Text :=
  let needle := key ++ ascii "="
  let pos := match find url (ascii "?") 0 with
    | none => 0
    | some query_pos => query_pos + 1
  match find url needle pos with
  | none => []
  | some pos =>
    let pos := pos + needle.length
    match find url (ascii "&") pos with
    | none => url.drop pos
    | some stop => (url.drop pos).take (stop - pos)

/-- The frames of a reply, as they are queued. -/
def reply_frames (is_file_download : Bool) (response : Text) : List Text :=
  if is_file_download then split_file_download_response_frames response else [response]

namespace CompatTunnel

/-- The section of `start_tunnel_stream` that publishes a stream. -/
def publish_video (x : CompatTunnel) (stream_id : StreamId) : CompatTunnel :=
  { x with
    video_stream_id := stream_id
    video_stream_started := true
    active_response := []
    active_decode_time := 0 }

/-- The section of `start_tunnel_stream` after a stream that did not start. -/
def retract_video (x : CompatTunnel) : CompatTunnel :=
  { x with video_stream_started := false, video_stream_id := 0 }

def enqueue (x : CompatTunnel) (is_file_download : Bool) (response : Text) : CompatTunnel :=
  { x with queued_responses := x.queued_responses ++ reply_frames is_file_download response }

/-- Samples of the tunnel come from its camera. -/
def shows_video (x : CompatTunnel) : Bool := x.video_stream_started && x.video_stream_id ≠ 0

/-- `frame` and `state` are what `bambu_network_rs_read_camera_frame` and
`bambu_network_rs_camera_stream_state` give for the stream of the tunnel. -/
def read_sample (x : CompatTunnel) (frame : Text) (state : Int) :
    Int × Option Bambu_Sample × CompatTunnel :=
  if x.shows_video then
    if frame ≠ [] then
      (Bambu_success, some ⟨0, to_int frame.length, 1, frame, 0⟩,
        { x with active_response := frame, active_decode_time := 0 })
    else if state = 0 then (Bambu_would_block, none, x)
    else if state = 1 then (Bambu_stream_end, none, x)
    else (-1, none, x)
  else match x.queued_responses with
    | [] => (Bambu_would_block, none, x)
    | front :: rest =>
      (Bambu_success, some ⟨0, to_int front.length, 1, front, 0⟩,
        { x with active_response := front, queued_responses := rest })

/-- `data` says that the pointer is not null, and `len` is the size of its buffer. -/
def recv_message (x : CompatTunnel) (data : Bool) (len : Int) : Received × CompatTunnel :=
  match x.queued_responses with
  | [] => ({ code := Bambu_would_block, len }, x)
  | front :: rest =>
    if data = false ∨ len < to_int front.length then
      ({ code := Bambu_buffer_limit, len := to_int front.length }, x)
    else
      ({ code := Bambu_success, len := to_int front.length, ctrl := some 0x3001,
         data := some front }, { x with queued_responses := rest })

/-- The section of `close_tunnel`, without the stop of its stream. -/
def closed (x : CompatTunnel) : CompatTunnel :=
  { x with
    opened := false
    control_stream_started := false
    video_stream_started := false
    video_stream_id := 0
    queued_responses := []
    active_response := []
    active_decode_time := 0 }

end CompatTunnel

/-! ## The bridge -/

/-- A tunnel is named by its address, and a call that is under way by its own number. -/
abbrev TunnelId := Nat
abbrev CallId := Nat

/-- A call that has left its first section: `start_tunnel_stream` before its call of
`bambu_network_rs_start_camera_stream` and after one that failed, `send_tunnel_message`
before and after the answer of `bambu_network_rs_tunnel_request`, and `destroy_tunnel`
before the delete. -/
inductive Pending
  | starting (t : TunnelId) (stream_id : StreamId)
  | start_failed (t : TunnelId) (stream_id : StreamId)
  | sending (t : TunnelId) (is_file_download : Bool)
  | answered (t : TunnelId) (is_file_download : Bool) (response : Text)
  | destroying (t : TunnelId)
  deriving DecidableEq

structure Bridge where
  tunnels : TunnelId → Option CompatTunnel := fun _ => none
  next_video_stream_id : StreamId := 1
  /-- The streams in the map of the Rust side. -/
  CAMERA_STREAMS : StreamId → Bool := fun _ => false
  calls : CallId → Option Pending := fun _ => none
  last_tunnel_error : String := ""

inductive Event
  | create_tunnel (t : TunnelId) (path : Option Text)
  | open_tunnel (t : TunnelId)
  | start_tunnel_stream (c : CallId) (t : TunnelId) (video : Bool)
  | start_tunnel_stream_ex (t : TunnelId) (type : Int)
  | start_camera_stream (c : CallId) (ok : Bool)
  | retract (c : CallId)
  | send_tunnel_message (c : CallId) (t : TunnelId) (ctrl : Int) (data : Option Text) (len : Int)
  | tunnel_request (c : CallId) (response : Text)
  | enqueue (c : CallId)
  | read_tunnel_sample (t : TunnelId) (sample : Bool) (frame : Text) (state : Int)
  | recv_tunnel_message (t : TunnelId) (data : Bool) (len : Option Int)
  | close_tunnel (t : TunnelId)
  | destroy_tunnel (c : CallId) (t : TunnelId)
  | delete (c : CallId) (t : TunnelId)
  deriving DecidableEq

namespace Bridge

variable (s : Bridge)

def setTunnel (t : TunnelId) (x : CompatTunnel) : Bridge :=
  { s with tunnels := Function.update s.tunnels t (some x) }

def setCall (c : CallId) (p : Option Pending) : Bridge :=
  { s with calls := Function.update s.calls c p }

def fail (message : String) : Bridge := { s with last_tunnel_error := message }

/-- `bambu_network_rs_stop_camera_stream` -/
def stop_camera_stream (stream_id : StreamId) : Bridge :=
  { s with CAMERA_STREAMS := Function.update s.CAMERA_STREAMS stream_id false }

def create (t : TunnelId) (path : Option Text) : Bridge :=
  match path with
  | none => s.fail "Bambu_Create: invalid arguments"
  | some url =>
    let device_id := bambu_query_param url (ascii "device")
    if device_id = [] then s.fail "Bambu_Create: missing device in URL"
    else s.setTunnel t { url, device_id }

/-- The first section of `start_tunnel_stream`. -/
def start_stream (c : CallId) (t : TunnelId) (x : CompatTunnel) (video : Bool) : Bridge :=
  if video then
    if x.video_stream_started then s
    else ({ s with next_video_stream_id := s.next_video_stream_id + 1 }.setTunnel t
      (x.publish_video s.next_video_stream_id)).setCall c (some (.starting t s.next_video_stream_id))
  else s.setTunnel t { x with control_stream_started := true }

def start_stream_ex (t : TunnelId) (x : CompatTunnel) (type : Int) : Bridge :=
  if type ≠ 0x3001 then s.fail "Bambu_StartStreamEx: unsupported stream type"
  else s.setTunnel t { x with control_stream_started := true }

/-- `bambu_network_rs_start_camera_stream`, which can fail for want of a host or of a
password. -/
def start_camera_stream (c : CallId) (t : TunnelId) (stream_id : StreamId) (ok : Bool) : Bridge :=
  let s := s.stop_camera_stream stream_id
  if ok then
    { s with CAMERA_STREAMS := Function.update s.CAMERA_STREAMS stream_id true }.setCall c none
  else s.setCall c (some (.start_failed t stream_id))

/-- The last section of `start_tunnel_stream`, after a stream that did not start. -/
def retract (c : CallId) (t : TunnelId) : Bridge :=
  let s := (s.setCall c none).fail "Bambu_StartStream: failed to start camera stream"
  match s.tunnels t with
  | some x => s.setTunnel t x.retract_video
  | none => s

/-- `send_tunnel_message` up to the request. -/
def send_message (c : CallId) (t : TunnelId) (ctrl : Int) (data : Option Text) (len : Int) :
    Bridge :=
  match data with
  | none => s.fail "Bambu_SendMessage: invalid arguments"
  | some bytes =>
    if len < 0 then s.fail "Bambu_SendMessage: invalid arguments"
    else if ctrl ≠ 0x3001 then s.fail "Bambu_SendMessage: unsupported control type"
    else
      let request := bytes.take len.toNat
      s.setCall c (some (.sending t (find request (ascii "\"cmdtype\":4") 0).isSome))

def answer (c : CallId) (t : TunnelId) (is_file_download : Bool) (response : Text) : Bridge :=
  if response = [] then (s.setCall c none).fail "Bambu_SendMessage: empty control response"
  else s.setCall c (some (.answered t is_file_download response))

def enqueue (c : CallId) (t : TunnelId) (is_file_download : Bool) (response : Text) : Bridge :=
  let s := s.setCall c none
  match s.tunnels t with
  | some x => s.setTunnel t (x.enqueue is_file_download response)
  | none => s

def read_sample (t : TunnelId) (x : CompatTunnel) (sample : Bool) (frame : Text) (state : Int) :
    Bridge :=
  if sample = false then s.fail "Bambu_ReadSample: invalid arguments"
  else
    let s := s.setTunnel t (x.read_sample frame state).2.2
    if (x.read_sample frame state).1 = -1 then s.fail "Bambu_ReadSample: camera stream failed"
    else s

def recv_message (t : TunnelId) (x : CompatTunnel) (data : Bool) (len : Option Int) : Bridge :=
  match len with
  | none => s.fail "Bambu_RecvMessage: invalid arguments"
  | some len => s.setTunnel t (x.recv_message data len).2

/-- The section of `close_tunnel`, in which the stream of the tunnel is stopped. -/
def close (t : TunnelId) (x : CompatTunnel) : Bridge :=
  let s := s.setTunnel t x.closed
  if x.video_stream_id ≠ 0 then s.stop_camera_stream x.video_stream_id else s

/-- A call on a tunnel that is there. -/
def onTunnel (t : TunnelId) (f : CompatTunnel → Bridge) : Bridge :=
  match s.tunnels t with
  | some x => f x
  | none => s

def step : Event → Bridge
  | .create_tunnel t path => s.create t path
  | .open_tunnel t => s.onTunnel t fun x => s.setTunnel t { x with opened := true }
  | .start_tunnel_stream c t video => s.onTunnel t fun x => s.start_stream c t x video
  | .start_tunnel_stream_ex t type => s.onTunnel t fun x => s.start_stream_ex t x type
  | .start_camera_stream c ok =>
    match s.calls c with
    | some (.starting t stream_id) => s.start_camera_stream c t stream_id ok
    | _ => s
  | .retract c =>
    match s.calls c with
    | some (.start_failed t _) => s.retract c t
    | _ => s
  | .send_tunnel_message c t ctrl data len => s.onTunnel t fun _ => s.send_message c t ctrl data len
  | .tunnel_request c response =>
    match s.calls c with
    | some (.sending t is_file_download) => s.answer c t is_file_download response
    | _ => s
  | .enqueue c =>
    match s.calls c with
    | some (.answered t is_file_download response) => s.enqueue c t is_file_download response
    | _ => s
  | .read_tunnel_sample t sample frame state =>
    s.onTunnel t fun x => s.read_sample t x sample frame state
  | .recv_tunnel_message t data len => s.onTunnel t fun x => s.recv_message t x data len
  | .close_tunnel t => s.onTunnel t fun x => s.close t x
  | .destroy_tunnel c t =>
    s.onTunnel t fun x => (s.close t x).setCall c (some (.destroying t))
  | .delete c t =>
    if s.calls c = some (.destroying t) then
      { s.setCall c none with tunnels := Function.update s.tunnels t none }
    else s

/-- An event that can happen next: a new tunnel has an address that is free, a call is made
on a tunnel that is there, and a call that is under way goes on where it stands. -/
def possible : Event → Bool
  | .create_tunnel t _ => (s.tunnels t).isNone
  | .open_tunnel t => (s.tunnels t).isSome
  | .start_tunnel_stream c t _ => (s.tunnels t).isSome && (s.calls c).isNone
  | .start_tunnel_stream_ex t _ => (s.tunnels t).isSome
  | .start_camera_stream c _ => (s.calls c matches some (.starting _ _))
  | .retract c => (s.calls c matches some (.start_failed _ _))
  | .send_tunnel_message c t _ _ _ => (s.tunnels t).isSome && (s.calls c).isNone
  | .tunnel_request c _ => (s.calls c matches some (.sending _ _))
  | .enqueue c => (s.calls c matches some (.answered _ _ _))
  | .read_tunnel_sample t _ _ _ => (s.tunnels t).isSome
  | .recv_tunnel_message t _ _ => (s.tunnels t).isSome
  | .close_tunnel t => (s.tunnels t).isSome
  | .destroy_tunnel c t => (s.tunnels t).isSome && (s.calls c).isNone
  | .delete c t => s.calls c = some (.destroying t)

end Bridge

/-- The bridge after the events, from the start of the plugin. -/
def bridgeAfter (es : List Event) : Bridge := after Bridge.step {} es

@[simp] theorem bridgeAfter_snoc (es : List Event) (e : Event) :
    bridgeAfter (es ++ [e]) = (bridgeAfter es).step e := by
  simp [bridgeAfter]

/-- A run of the bridge: its events, each of which could happen when it did. -/
structure Run where
  events : List Event
  possible : Steps (fun es e => (bridgeAfter es).possible e = true) events

end bambu_farm_client.tunnel_bridge
