import DevicePairing.Proofs.Cbor.RoundTrip
import DevicePairing.Stream.Basic

/-!
# Envelopes read back

A message put in an envelope is found there, with its operation, as long as its payload can be counted in
eight bytes. An envelope is never shorter than the payload in it, so a bound on envelopes, which is what
streams have, will do.
-/

namespace DevicePairing

namespace Cbor

/-- A record is no shorter than any value in it. -/
theorem Row.length_valueAt_le (cs : Columns) (row : Row cs) (place : Nat) :
    (row.valueAt cs place).length ≤ (row.write cs).length := by
  have hcolumns : ∀ (cs : Columns) (row : Row cs) (place : Nat),
      (row.valueAt cs place).length ≤ (row.writeColumns cs).length := by
    intro cs
    induction cs with
    | nil => exact fun _ _ => Nat.le_refl 0
    | cons c cs ih =>
      rintro ⟨v, row⟩ place
      obtain ⟨name, k⟩ := c
      have hwrite : Row.writeColumns ((name, k) :: cs) (v, row) =
          writeText name ++ k.write v ++ row.writeColumns cs := rfl
      rw [hwrite, List.length_append, List.length_append]
      cases place with
      | zero =>
        show (k.write v).length ≤ _
        omega
      | succ place =>
        have hrest := ih row place
        show (row.valueAt cs place).length ≤ _
        omega
  unfold write
  rw [List.length_append]
  exact Nat.le_add_left_of_le (hcolumns cs row place)

/-- No number is written with nothing at all. -/
theorem length_writeNumber_pos (n : Nat) : 0 < (writeNumber n).length := by
  obtain ⟨info, _, hhead⟩ := Reader.head?_writeHead 0 n
  rw [List.length_pos_iff]
  intro h
  rw [← writeNumber, h] at hhead
  cases hhead

/-- Every byte takes at least one. -/
theorem length_le_length_bytes (bs : Bytes) : bs.length ≤ (Kind.write .bytes bs).length := by
  have hnumbers : bs.length ≤ (bs.flatMap fun b => writeNumber b.toNat).length := by
    induction bs with
    | nil => exact Nat.le_refl 0
    | cons b bs ih =>
      have hb := length_writeNumber_pos b.toNat
      rw [List.flatMap_cons, List.length_append, List.length_cons]
      omega
  show bs.length ≤ (writeHead 4 bs.length ++ bs.flatMap fun b => writeNumber b.toNat).length
  rw [List.length_append]
  exact Nat.le_add_left_of_le hnumbers

end Cbor

namespace Envelope

/-- An envelope is no shorter than the payload in it. -/
theorem length_payload_le (m : DeviceMessage) (op : Operation) :
    m.payload.length ≤ (encode m op).length :=
  Nat.le_trans (Cbor.length_le_length_bytes m.payload)
    (Cbor.Row.length_valueAt_le columns (toRow m op) 3)

/-- What was put in an envelope is found there. -/
theorem decode?_encode {m : DeviceMessage} (op : Operation) (h : m.payload.length < capacity 8) :
    decode? (encode m op) = some (m, op) := by
  have names : Cbor.Reader.Legible (columns.map Prod.fst) :=
    ⟨by decide +kernel, by decide +kernel, by decide +kernel⟩
  have labels : Cbor.Reader.Legible Operation.labels :=
    ⟨by decide +kernel, by decide +kernel, by decide +kernel⟩
  have fits : Cbor.Row.Fits columns (toRow m op) :=
    ⟨labels, show 16 < capacity 8 by decide, trivial, h, trivial⟩
  unfold decode? encode
  rw [Cbor.Row.decode?_write names (by decide) fits]
  exact congrArg some (ofRow_toRow m op)

end Envelope

/-- A listener is told of the message in an envelope whose length can be counted in eight bytes. -/
theorem StreamAct.ofEnvelope_encode {m : DeviceMessage} {op : Operation}
    (h : (Envelope.encode m op).length < capacity 8) :
    ofEnvelope (Envelope.encode m op) = .delivered m op := by
  have hpayload := Nat.lt_of_le_of_lt (Envelope.length_payload_le m op) h
  rw [ofEnvelope, Envelope.decode?_encode op hpayload]

end DevicePairing
