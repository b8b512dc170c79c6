-- The sizes that `recv_tunnel_message` handles. A size is compared and told
-- as an `int`, and the copy takes the whole frame, so a frame of `2 ^ 31`
-- bytes or more passes for a short one.
import BambuFarm.TunnelBridge

open json

namespace bambu_farm_client.tunnel_bridge

/-! ## The cast -/

theorem to_int_of_lt {n : Nat} (h : n < 2 ^ 31) : to_int n = n := by
  unfold to_int
  apply Int.bmod_eq_of_le
  · omega
  · omega

theorem to_int_lt (n : Nat) : to_int n < 2 ^ 31 := by
  unfold to_int
  have h : (n : Int).bmod (2 ^ 32) < ((2 ^ 32 : Nat) + 1) / 2 := Int.bmod_lt (by decide)
  omega

/-- The cast keeps exactly the sizes that an `int` can hold. -/
theorem to_int_eq_iff (n : Nat) : to_int n = n ↔ n < 2 ^ 31 := by
  constructor
  · intro h
    have hlt := to_int_lt n
    omega
  · exact to_int_of_lt

/-! ## One receive -/

namespace CompatTunnel

/-- A tunnel with `front` at the head of its queue. -/
def withFront (x : CompatTunnel) (front : Text) (rest : List Text) : CompatTunnel :=
  { x with queued_responses := front :: rest }

/-- A frame that fits into the buffer is copied and leaves the queue. Any other stays, and
the caller learns the length to provide. -/
def ReceivesWithin (x : CompatTunnel) (front : Text) (rest : List Text) (len : Int) : Prop :=
  let received := (x.withFront front rest).recv_message true len
  if (front.length : Int) ≤ len then
    received.1.code = Bambu_success ∧ received.1.data = some front ∧
      received.1.len = front.length ∧ received.2 = { x with queued_responses := rest }
  else
    received.1.code = Bambu_buffer_limit ∧ received.1.data = none ∧
      received.1.len = front.length ∧ received.2 = x.withFront front rest

variable (x : CompatTunnel) (front : Text) (rest : List Text) (len : Int)

theorem recv_message_front :
    (x.withFront front rest).recv_message true len =
      if len < to_int front.length then
        ({ code := Bambu_buffer_limit, len := to_int front.length }, x.withFront front rest)
      else
        ({ code := Bambu_success, len := to_int front.length, ctrl := some 0x3001,
           data := some front }, { x with queued_responses := rest }) := by
  unfold recv_message withFront
  simp

/-- Whatever comes of a receive, the caller is told the size as an `int`. -/
theorem recv_message_len :
    ((x.withFront front rest).recv_message true len).1.len = to_int front.length := by
  rw [recv_message_front]
  split
  · dsimp only
  · dsimp only

/-- More is copied than the buffer holds exactly where the cast hides the size. -/
theorem recv_message_overruns_iff :
    ((x.withFront front rest).recv_message true len).1.data = some front ∧
        len < front.length ↔
      to_int front.length ≤ len ∧ len < front.length := by
  rw [recv_message_front]
  split
  · rename_i hsmall
    constructor
    · rintro ⟨hdata, -⟩
      cases hdata
    · rintro ⟨hle, -⟩
      omega
  · rename_i hlarge
    constructor
    · rintro ⟨-, hlt⟩
      exact ⟨by omega, hlt⟩
    · rintro ⟨-, hlt⟩
      exact ⟨rfl, hlt⟩

theorem receivesWithin_of_lt (h : front.length < 2 ^ 31) : x.ReceivesWithin front rest len := by
  unfold ReceivesWithin
  rw [recv_message_front, to_int_of_lt h]
  dsimp only
  by_cases hfits : (front.length : Int) ≤ len
  · rw [if_pos hfits, if_neg (by omega)]
    exact ⟨rfl, rfl, rfl, rfl⟩
  · rw [if_neg hfits, if_pos (by omega)]
    exact ⟨rfl, rfl, rfl, rfl⟩

theorem ReceivesWithin.told {x : CompatTunnel} {front : Text} {rest : List Text} {len : Int}
    (h : x.ReceivesWithin front rest len) : to_int front.length = front.length := by
  rw [← recv_message_len x front rest len]
  unfold ReceivesWithin at h
  split at h
  · exact h.2.2.1
  · exact h.2.2.1

end CompatTunnel

/-- A buffer has any size that an `int` can tell. -/
theorem a_reply_is_received_within_its_buffer_iff (x : CompatTunnel) (front : Text)
    (rest : List Text) (len : Fin (2 ^ 31)) :
    x.ReceivesWithin front rest len ↔ front.length < 2 ^ 31 := by
  constructor
  · intro h
    exact (to_int_eq_iff _).mp h.told
  · exact x.receivesWithin_of_lt front rest len

/-- A reply of 2 GiB to a plain request, and a buffer of no bytes. -/
@[irreducible] def hugeReply : Text := List.replicate (2 ^ 31) 0

theorem hugeReply_length : hugeReply.length = 2 ^ 31 := by
  unfold hugeReply
  exact List.length_replicate

theorem a_huge_reply_overruns_its_buffer :
    ∃ x : CompatTunnel, x.queued_responses = reply_frames false hugeReply ∧
      (x.recv_message true 0).1.code = Bambu_success ∧
      (x.recv_message true 0).1.data = some hugeReply ∧
      (0 : Int) < hugeReply.length ∧
      (x.recv_message true 0).1.len = -(2 ^ 31) ∧
      ¬ CompatTunnel.ReceivesWithin x hugeReply [] 0 := by
  have hlength := hugeReply_length
  have hcast : to_int hugeReply.length = -(2 ^ 31) := by
    rw [hlength]
    decide
  refine ⟨CompatTunnel.withFront { url := [], device_id := [] } hugeReply [], rfl, ?_⟩
  have hreceived := CompatTunnel.recv_message_front { url := [], device_id := [] } hugeReply [] 0
  rw [hcast, if_neg (by decide)] at hreceived
  rw [hreceived]
  refine ⟨rfl, rfl, by omega, rfl, ?_⟩
  intro h
  have htold := h.told
  omega

end bambu_farm_client.tunnel_bridge
