import DevicePairing.Bench
import DevicePairing.Proofs.Cbor.Envelope
import DevicePairing.Proofs.Stream.LengthPrefix.Reading

/-!
# Length-prefixed streams deliver

Messages written to a length-prefixed stream arrive at another one with at least the same limit, however
the link cuts the bytes of their frames (`LengthStream.taken_arrive`). A write that fails, because the
message is too long or because the link refuses its frame, leaves nothing behind in what the link carries,
so the messages before it and after it arrive all the same.

The sender's side is `LengthStream.reads_accepted`: the accepted frames, put together, read as the messages
taken. The receiver's side is that a stream tells what the bytes read as.
-/

namespace DevicePairing

namespace LengthPrefix

variable {limit : Nat} {item frame : Bytes}

/-- A written frame is read as what was put in it. -/
theorem Reads.written {limit' : Nat} (h : write limit item = .ok frame) (room : limit ≤ limit')
    {rest : Bytes} {acts : List StreamAct} (more : Reads limit' rest acts) :
    Reads limit' (frame ++ rest) (.ofEnvelope item :: acts) := by
  obtain ⟨hfits, hnarrow, rfl⟩ := write_eq_ok_iff.1 h
  rw [List.append_assoc]
  refine .frame (length_littleEndian ..) ?_ (Nat.le_trans hfits room) more
  rw [ofLittleEndian_littleEndian, Nat.mod_eq_of_lt hnarrow]

end LengthPrefix

namespace LengthStream

open LengthPrefix

variable {κ κ' : Type} (sink : FrameSink κ) {s : LengthStream κ}

/-- Writes messages one after another. -/
def writeAll : List (DeviceMessage × Operation) → LengthStream κ →
    List (Except StreamError Unit) × List StreamAct × LengthStream κ
  | [], s => ([], [], s)
  | (m, op) :: ms, s =>
    let (answer, acts, s) := s.write sink m op
    let (answers, acts', s) := writeAll ms s
    (answer :: answers, acts ++ acts', s)

/-- The messages whose writes were answered with success. -/
def taken : List (DeviceMessage × Operation) → List (Except StreamError Unit) →
    List (DeviceMessage × Operation)
  | m :: ms, .ok _ :: answers => m :: taken ms answers
  | _ :: ms, .error _ :: answers => taken ms answers
  | _, _ => []

/-- What may come of writing a message. -/
inductive Written (s : LengthStream κ) (m : DeviceMessage) (op : Operation) :
    Except StreamError Unit → List StreamAct → LengthStream κ → Prop where
  /-- The message cannot be framed. -/
  | unframed {e : StreamError} (framing : LengthPrefix.write s.limit (Envelope.encode m op) = .error e) :
    Written s m op (.error e) [] s
  /-- The link accepts the frame. -/
  | accepted {frame : Bytes} {link : κ}
    (framing : LengthPrefix.write s.limit (Envelope.encode m op) = .ok frame)
    (answer : sink.send frame s.link = (.ok (), link)) :
    Written s m op (.ok ()) [.handed frame (.ok ())] { s with link }
  /-- The link refuses it. -/
  | refused {frame : Bytes} {link : κ} {e : LinkError}
    (framing : LengthPrefix.write s.limit (Envelope.encode m op) = .ok frame)
    (answer : sink.send frame s.link = (.error e, link)) :
    Written s m op (.error (.link e)) [.handed frame (.error e)] { s with link }

/-- Nothing else can come of writing a message. -/
theorem written_write (m : DeviceMessage) (op : Operation) (s : LengthStream κ) :
    Written sink s m op (s.write sink m op).1 (s.write sink m op).2.1 (s.write sink m op).2.2 := by
  unfold write
  rcases hframe : LengthPrefix.write s.limit (Envelope.encode m op) with e | frame
  · exact .unframed hframe
  rcases hsend : sink.send frame s.link with ⟨e | _, link⟩
  · simpa [hsend] using Written.refused hframe hsend
  · simpa [hsend] using Written.accepted hframe hsend

/-- What the link accepted reads as the messages taken. -/
theorem reads_accepted {limit : Nat} (ms : List (DeviceMessage × Operation)) (s : LengthStream κ)
    (room : s.limit ≤ limit) :
    Reads limit (StreamAct.accepted (s.writeAll sink ms).2.1).flatten
      ((taken ms (s.writeAll sink ms).1).map fun m => .delivered m.1 m.2) := by
  induction ms generalizing s with
  | nil => exact .headless (Nat.zero_lt_succ 3)
  | cons m ms ih =>
    obtain ⟨m, op⟩ := m
    have hwritten := written_write sink m op s
    simp only [writeAll, StreamAct.accepted_append, List.flatten_append]
    generalize (s.write sink m op).1 = answer, (s.write sink m op).2.1 = acts,
      (s.write sink m op).2.2 = s' at hwritten
    cases hwritten with
    | unframed _ => exact ih s room
    | @refused _ link _ _ _ => exact ih { s with link } room
    | @accepted frame link framing _ =>
      have hnarrow : (Envelope.encode m op).length < capacity 8 :=
        Nat.lt_trans (write_eq_ok_iff.1 framing).2.1 (by decide)
      have hreads := Reads.written framing room (ih { s with link } room)
      rw [StreamAct.ofEnvelope_encode hnarrow] at hreads
      simpa [StreamAct.accepted, taken] using hreads

/-- However the accepted frames are cut into pieces, a new stream with at least the sender's limit tells its
listener of exactly the messages taken, in order. A message whose envelope is longer than the limit is
refused and nothing is handed to the link; any other is taken exactly if four bytes can spell its length
and the link accepts its frame. -/
theorem taken_arrive (ms : List (DeviceMessage × Operation)) (s : LengthStream κ) (link : κ')
    {limit : Nat} (room : s.limit ≤ limit) {pieces : List Bytes}
    (same : pieces.flatten = (StreamAct.accepted (s.writeAll sink ms).2.1).flatten) :
    ((fresh link limit).feedAll pieces).1 =
      (taken ms (s.writeAll sink ms).1).map (fun m => .delivered m.1 m.2) ∧
    (∀ m op, s.limit < (Envelope.encode m op).length →
      s.write sink m op =
        (.error (.messageTooLarge (Envelope.encode m op).length s.limit), [], s)) ∧
    ∀ m op, (s.write sink m op).1 = .ok () ↔
      (Envelope.encode m op).length ≤ s.limit ∧
      (Envelope.encode m op).length < capacity lengthSize ∧
      (sink.send (littleEndian lengthSize (Envelope.encode m op).length ++ Envelope.encode m op)
        s.link).1 = .ok () := by
  refine ⟨?_, ?_, ?_⟩
  · have hreads := reads_feedAll_fresh link limit pieces
    rw [same] at hreads
    exact hreads.unique (reads_accepted sink ms s room)
  · intro m op long
    unfold write LengthPrefix.write
    rw [if_pos long]
  · intro m op
    have hwritten := written_write sink m op s
    generalize (s.write sink m op).1 = answer, (s.write sink m op).2.1 = acts,
      (s.write sink m op).2.2 = s' at hwritten
    cases hwritten with
    | unframed framing =>
      constructor
      · intro h
        cases h
      · rintro ⟨hfits, hnarrow, _⟩
        rw [write_eq_ok_iff.2 ⟨hfits, hnarrow, rfl⟩] at framing
        cases framing
    | accepted framing answer =>
      obtain ⟨hfits, hnarrow, rfl⟩ := write_eq_ok_iff.1 framing
      exact ⟨fun _ => ⟨hfits, hnarrow, by rw [answer]⟩, fun _ => rfl⟩
    | refused framing answer =>
      obtain ⟨_, _, rfl⟩ := write_eq_ok_iff.1 framing
      constructor
      · intro h
        cases h
      · rintro ⟨_, _, haccepts⟩
        rw [answer] at haccepts
        cases haccepts

/-! ## An envelope as long as the limit -/

/-- Three messages. The envelope of the first one has 76 bytes, that of the second one more. -/
def letters : List (DeviceMessage × Operation) :=
  [(⟨none, false, [1, 2, 3]⟩, .handshake), (⟨none, true, List.replicate 40 7⟩, .client),
   (⟨none, true, []⟩, .client)]

/-- The bytes that the link accepts when they are written with a limit of 76. -/
def posted : Bytes :=
  (StreamAct.accepted ((fresh (Bench.Sink.mk none) 76).writeAll Bench.Sink.frames letters).2.1).flatten

/-- Three messages are written with a limit that the second one exceeds, and they are read in pieces of three
bytes: the first and the last one arrive. -/
theorem taken_arrive_at_limit :
    (fresh (Bench.Sink.mk none) 76).limit ≤ 76 ∧ (chunksOf 3 posted).flatten = posted ∧
    ((fresh () 76).feedAll (chunksOf 3 posted)).1 =
      [.delivered ⟨none, false, [1, 2, 3]⟩ .handshake, .delivered ⟨none, true, []⟩ .client] := by
  have hsame : (chunksOf 3 posted).flatten = posted := flatten_chunksOf (by decide) posted
  have htaken : taken letters
      ((fresh (Bench.Sink.mk none) 76).writeAll Bench.Sink.frames letters).1 =
        [(⟨none, false, [1, 2, 3]⟩, .handshake), (⟨none, true, []⟩, .client)] := by
    decide +kernel
  refine ⟨Nat.le_refl 76, hsame, ?_⟩
  rw [(taken_arrive Bench.Sink.frames letters (fresh (Bench.Sink.mk none) 76) () (Nat.le_refl 76)
    hsame).1, htaken]
  rfl

end LengthStream

end DevicePairing
