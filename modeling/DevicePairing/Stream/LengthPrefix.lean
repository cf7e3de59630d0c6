import DevicePairing.Stream.Basic

/-!
# Length-prefixed frames

On a link that carries bytes without boundaries, every message follows its length, a number of four
bytes with the least significant first. A length above the limit is refused, and from then on the
boundaries are lost: everything that follows is dropped.
-/

namespace DevicePairing

namespace LengthPrefix

/-- The bytes of a length. -/
def lengthSize : Nat := 4

/-- A message behind its length. -/
def write (limit : Nat) (item : Bytes) : Except StreamError Bytes :=
  if limit < item.length then .error (.messageTooLarge item.length limit)
  else if capacity lengthSize ≤ item.length then
    .error (.messageTooLarge item.length (capacity lengthSize - 1))
  else .ok (littleEndian lengthSize item.length ++ item)

/-- A message is framed exactly if it is within the limit and its length has room in the length field, and then
it stands behind its length. -/
theorem write_eq_ok_iff {limit : Nat} {item frame : Bytes} :
    write limit item = .ok frame ↔ item.length ≤ limit ∧ item.length < capacity lengthSize ∧
      frame = littleEndian lengthSize item.length ++ item := by
  unfold write
  split
  · next long => exact ⟨fun h => (nomatch h), fun h => absurd h.1 (Nat.not_le.2 long)⟩
  · next fits =>
    split
    · next wide => exact ⟨fun h => (nomatch h), fun h => absurd h.2.1 (Nat.not_lt.2 wide)⟩
    · next narrow =>
      constructor
      · rintro ⟨⟩
        exact ⟨Nat.not_lt.1 fits, Nat.not_le.1 narrow, rfl⟩
      · rintro ⟨_, _, rfl⟩
        rfl

/-- The first message of a buffer and the buffer behind it; none while it is incomplete. -/
def takeFrame (limit : Nat) (buffer : Bytes) : Except StreamError (Option (Bytes × Bytes)) :=
  let header := buffer.take lengthSize
  if header.length < lengthSize then .ok none
  else
    let n := ofLittleEndian header
    if limit < n then .error (.messageTooLarge n limit)
    else
      let body := buffer.drop lengthSize
      let item := body.take n
      if item.length < n then .ok none else .ok (some (item, body.drop n))

/-- What a buffer yields: the complete messages at its front, and how it ends. -/
structure Cut where
  /-- The complete messages, in order. -/
  frames : List Bytes
  /-- What is left, or the length that was refused. -/
  rest : Except StreamError Bytes

/-- Takes messages off the front of a buffer, at most `fuel` of them, after those in `seen`, which is
in reverse. -/
def cutOnto (limit : Nat) : (fuel : Nat) → (seen : List Bytes) → Bytes → Cut
  | 0, seen, buffer => ⟨seen.reverse, .ok buffer⟩
  | fuel + 1, seen, buffer =>
    match takeFrame limit buffer with
    | .ok none => ⟨seen.reverse, .ok buffer⟩
    | .ok (some (frame, rest)) => cutOnto limit fuel (frame :: seen) rest
    | .error e => ⟨seen.reverse, .error e⟩

/-- Takes all complete messages off the front of a buffer. Each is at least as long as its length
field, so there are no more of them than bytes. -/
def cut (limit : Nat) (buffer : Bytes) : Cut := cutOnto limit (buffer.length + 1) [] buffer

end LengthPrefix

/-- A stream over a link that carries bytes. -/
structure LengthStream (κ : Type) where
  /-- The link frames are handed to. -/
  link : κ
  /-- The longest message. -/
  limit : Nat
  /-- Bytes received and not yet part of a complete message. -/
  buffer : Bytes
  /-- Whether the boundaries are lost. -/
  lost : Bool

namespace LengthStream

variable {κ : Type}

/-- A stream that has received nothing. -/
def fresh (link : κ) (limit : Nat) : LengthStream κ := ⟨link, limit, [], false⟩

/-- Takes in bytes from the link: every message that they complete is delivered, and a length above the
limit is reported after those before it. -/
def feed (data : Bytes) (s : LengthStream κ) : List StreamAct × LengthStream κ :=
  if s.lost then ([], s)
  else
    let c := LengthPrefix.cut s.limit (s.buffer ++ data)
    let told := c.frames.map StreamAct.ofEnvelope
    match c.rest with
    | .ok rest => (told, { s with buffer := rest })
    | .error e => (told ++ [.reported e], { s with buffer := [], lost := true })

/-- Writes a message as one frame. -/
def write (sink : FrameSink κ) (m : DeviceMessage) (op : Operation) (s : LengthStream κ) :
    Except StreamError Unit × List StreamAct × LengthStream κ :=
  match LengthPrefix.write s.limit (Envelope.encode m op) with
  | .error e => (.error e, [], s)
  | .ok frame =>
    let (answer, link) := sink.send frame s.link
    (match answer with
      | .ok _ => .ok ()
      | .error e => .error (.link e),
     [.handed frame answer], { s with link })

/-- Streams over a given link, as something to write messages to. -/
def messages (sink : FrameSink κ) : MessageStream (LengthStream κ) := ⟨write sink⟩

end LengthStream

end DevicePairing
