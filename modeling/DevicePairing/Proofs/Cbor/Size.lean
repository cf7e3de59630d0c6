import DevicePairing.KeyExchange.Agreement
import DevicePairing.Message

/-!
# The size of a written record

How many bytes a record may take at most. A stream with a limit takes every message whose envelope stays
below it, so a bound on the payload is enough for a message to be taken, and the frames of a handshake
have such a bound.
-/

namespace DevicePairing.Cbor

/-- A head takes at most nine bytes. -/
theorem length_writeHead_le (major n : Nat) : (writeHead major n).length ≤ 9 := by
  unfold writeHead
  split
  · simp
  split
  · simp
  split
  · simp
  split
  · simp
  · simp

/-- There is no head without a byte. -/
theorem writeHead_ne_nil (major n : Nat) : writeHead major n ≠ [] := by
  unfold writeHead
  repeat' split
  all_goals simp

/-- A byte takes at most two, since its head is followed by one byte or none. -/
theorem length_writeNumber_le (b : UInt8) : (writeNumber b.toNat).length ≤ 2 := by
  unfold writeNumber writeHead
  split
  · simp
  · rw [if_pos (show b.toNat < capacity 1 from b.toNat_lt)]
    simp

/-- A byte that is written as a number takes two bytes at most. -/
theorem length_bytes_le (bs : Bytes) :
    (bs.flatMap fun b => writeNumber b.toNat).length ≤ 2 * bs.length := by
  induction bs with
  | nil => exact Nat.le_refl 0
  | cons b bs ih =>
    have hb := length_writeNumber_le b
    rw [List.flatMap_cons, List.length_append, List.length_cons]
    omega

/-- A text takes its own bytes and at most nine for its head. -/
theorem length_writeText_le (s : String) : (writeText s).length ≤ 9 + (ascii s).length := by
  unfold writeText
  rw [List.length_append]
  exact Nat.add_le_add_right (length_writeHead_le ..) _

/-- Bytes take twice their number at most, and nine for the head. -/
theorem length_writeBytes_le (bs : Bytes) : (Kind.write .bytes bs).length ≤ 9 + 2 * bs.length := by
  show (writeHead 4 bs.length ++ bs.flatMap fun b => writeNumber b.toNat).length ≤ _
  rw [List.length_append]
  exact Nat.add_le_add (length_writeHead_le ..) (length_bytes_le bs)

/-- The most bytes a value may take. -/
def Kind.most : (k : Kind) → k.Value → Nat
  | .choice labels, (i : Fin labels.length) => 9 + (ascii (labels.get i)).length
  | .optionalBlock n, _ => 9 + n
  | .flag, _ => 1
  | .bytes, (bs : Bytes) => 9 + 2 * bs.length
  | .word, _ => 9

/-- No value takes more bytes than its kind lets it. -/
theorem Kind.length_write_le (k : Kind) (v : k.Value) : (k.write v).length ≤ k.most v := by
  cases k with
  | choice labels => exact length_writeText_le _
  | optionalBlock n =>
    cases v with
    | none => exact Nat.le_add_right_of_le (show 1 ≤ 9 by decide)
    | some b =>
      have hhead := length_writeHead_le 2 b.val.length
      have hb := b.property
      show (writeHead 2 b.val.length ++ b.val).length ≤ 9 + n
      rw [List.length_append]
      omega
  | flag => exact Nat.le_refl 1
  | bytes => exact length_writeBytes_le v
  | word => exact length_writeHead_le ..

/-- The most bytes the columns of a row may take. -/
def Row.most : (cs : Columns) → Row cs → Nat
  | [], _ => 0
  | (name, k) :: cs, (v, row) => 9 + (ascii name).length + k.most v + most cs row

/-- No columns take more bytes than their names and values may. -/
theorem Row.length_writeColumns_le (cs : Columns) (row : Row cs) :
    (row.writeColumns cs).length ≤ row.most cs := by
  induction cs with
  | nil => exact Nat.le_refl 0
  | cons c cs ih =>
    obtain ⟨name, k⟩ := c
    obtain ⟨v, row⟩ := row
    have hname := length_writeText_le name
    have hvalue := k.length_write_le v
    have hrest := ih row
    show (writeText name ++ k.write v ++ row.writeColumns cs).length ≤
      9 + (ascii name).length + k.most v + row.most cs
    rw [List.length_append, List.length_append]
    omega

/-- With the head of the row it is nine bytes more at most. -/
theorem Row.length_write_le (cs : Columns) (row : Row cs) :
    (row.write cs).length ≤ 9 + row.most cs := by
  unfold write
  rw [List.length_append]
  exact Nat.add_le_add (length_writeHead_le ..) (length_writeColumns_le cs row)

/-- No row is written with nothing at all. -/
theorem Row.write_ne_nil (cs : Columns) (row : Row cs) : row.write cs ≠ [] := by
  unfold write
  exact List.append_ne_nil_of_left_ne_nil (writeHead_ne_nil _ _) _

end DevicePairing.Cbor

namespace DevicePairing

/-- A length that no frame of the answering side exceeds. -/
def frameLimit : Nat := 256

/-- Keyed hashes are such frames. -/
theorem Block.length_le_frameLimit (b : Block 32) : b.val.length ≤ frameLimit := by
  rw [b.property]
  decide

/-- The share is the longest of these frames. -/
theorem KeyShare.length_encode_le {f : KeyShare} (hk : f.publicKey.length = 32)
    (hr : f.random.length = 32) : f.encode.length ≤ frameLimit := by
  have hlength := Cbor.Row.length_write_le columns f.toRow
  have hmost : f.toRow.most columns =
      9 + 10 + (9 + 2 * f.publicKey.length) + (9 + 6 + (9 + 2 * f.random.length) + 0) := rfl
  unfold encode frameLimit
  omega

/-- An envelope adds less than two hundred bytes to what the payload takes. -/
theorem Envelope.length_encode_le (m : DeviceMessage) (op : Operation) :
    (encode m op).length ≤ 200 + 2 * m.payload.length := by
  have hlength := Cbor.Row.length_write_le columns (toRow m op)
  have hlabel : (ascii op.name).length ≤ 19 := by
    cases op <;> decide
  have hmost : (toRow m op).most columns = 9 + 9 + (9 + (ascii op.name).length) +
      (9 + 9 + (9 + 16) + (9 + 20 + 1 + (9 + 7 + (9 + 2 * m.payload.length) + 0))) := rfl
  unfold encode
  omega

end DevicePairing
