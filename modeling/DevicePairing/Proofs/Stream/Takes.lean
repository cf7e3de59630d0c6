import DevicePairing.Link.Pipe
import DevicePairing.Proofs.Cbor.Size
import DevicePairing.Stream.LengthPrefix

/-!
# Streams that take the frames of a handshake

What an honest handshake needs of a stream is that its short frames are taken. `MessageStream.Takes` says
so for the states in which a stream works. A length-prefixed stream takes them as long as its link accepts
frames and its limit leaves room for their envelope (`LengthStream.takes`), and a pipe accepts frames as
long as somebody is there to read them.
-/

namespace DevicePairing

/-- In a good state a stream takes every short frame, and stays in a good state. -/
def MessageStream.Takes {τ : Type} (stream : MessageStream τ) (good : τ → Prop) : Prop :=
  ∀ m s, m.payload.length ≤ frameLimit → good s →
    ∃ done s', stream.write m .handshake s = (.ok (), done, s') ∧ good s'

/-- In a good state a link accepts every frame, and stays in a good state. -/
def FrameSink.Accepts {κ : Type} (sink : FrameSink κ) (good : κ → Prop) : Prop :=
  ∀ frame k, good k → ∃ k', sink.send frame k = (.ok (), k') ∧ good k'

/-- The most bytes that the envelope of a short frame takes. -/
def envelopeLimit : Nat := 200 + 2 * frameLimit

/-- A message within the limit is framed, if its length fits the length field. -/
theorem LengthPrefix.write_of_le {limit : Nat} {item : Bytes} (h : item.length ≤ limit)
    (hwide : item.length < capacity lengthSize) : ∃ frame, write limit item = .ok frame :=
  ⟨_, write_eq_ok_iff.2 ⟨h, hwide, rfl⟩⟩

/-- A length-prefixed stream with room for the envelopes takes the frames. -/
theorem LengthStream.takes {κ : Type} {sink : FrameSink κ} {good : κ → Prop}
    (accepts : sink.Accepts good) :
    (messages sink).Takes fun s => envelopeLimit ≤ s.limit ∧ good s.link := by
  intro m s hm hs
  obtain ⟨hlimit, hlink⟩ := hs
  have hsize : (Envelope.encode m .handshake).length ≤ envelopeLimit :=
    Nat.le_trans (Envelope.length_encode_le m .handshake)
      (Nat.add_le_add_left (Nat.mul_le_mul_left 2 hm) 200)
  have hwide : envelopeLimit < capacity LengthPrefix.lengthSize := by decide
  obtain ⟨frame, hframe⟩ :=
    LengthPrefix.write_of_le (Nat.le_trans hsize hlimit) (Nat.lt_of_le_of_lt hsize hwide)
  obtain ⟨link, hsend, hlink'⟩ := accepts frame s.link hlink
  refine ⟨[.handed frame (.ok ())], { s with link }, ?_, hlimit, hlink'⟩
  simp [messages, write, hframe, hsend]

/-- A pipe accepts frames while the end they go to exists. -/
theorem Pipe.accepts (side : Side) : (sink side).Accepts fun p => (p.lane side).deaf = false := by
  intro frame p hp
  refine ⟨p.setLane side { p.lane side with queue := (p.lane side).queue ++ [frame] }, ?_, ?_⟩
  · show p.send side frame = _
    simp [send, hp]
  · cases side <;> exact hp

end DevicePairing
