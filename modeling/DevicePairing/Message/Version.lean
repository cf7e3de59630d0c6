import DevicePairing.Cbor.Record

/-!
# Protocol versions

Before any packet flows, each side says which versions of the messaging and of the security protocol it
speaks, as two ranges. This library speaks version 2 of both.
-/

namespace DevicePairing

/-- The messaging version spoken here. -/
def messagingVersion : UInt32 := 2

/-- The security version spoken here. -/
def securityVersion : UInt32 := 2

/-- The versions a device speaks. -/
structure VersionOffer where
  /-- The lowest messaging version. -/
  minMessaging : UInt32
  /-- The highest messaging version. -/
  maxMessaging : UInt32
  /-- The lowest security version. -/
  minSecurity : UInt32
  /-- The highest security version. -/
  maxSecurity : UInt32
  deriving DecidableEq

namespace VersionOffer

/-- What this library offers. -/
def supported : VersionOffer :=
  ⟨messagingVersion, messagingVersion, securityVersion, securityVersion⟩

/-- Whether the versions spoken here lie in the offered ranges. -/
def compatible (v : VersionOffer) : Bool :=
  v.minMessaging ≤ messagingVersion && messagingVersion ≤ v.maxMessaging &&
    v.minSecurity ≤ securityVersion && securityVersion ≤ v.maxSecurity

/-- What this side offers is compatible with itself, so two devices with it get along. -/
theorem compatible_supported : supported.compatible = true := by decide

/-- The columns of an offer. -/
def columns : Cbor.Columns :=
  [("min_messaging_version", .word), ("max_messaging_version", .word),
   ("min_security_version", .word), ("max_security_version", .word)]

/-- The row of an offer. -/
def toRow (v : VersionOffer) : Cbor.Row columns :=
  (v.minMessaging, v.maxMessaging, v.minSecurity, v.maxSecurity, ())

/-- The offer of a row. -/
def ofRow (row : Cbor.Row columns) : VersionOffer :=
  match row with
  | (minMessaging, maxMessaging, minSecurity, maxSecurity, _) =>
    ⟨minMessaging, maxMessaging, minSecurity, maxSecurity⟩

/-- An offer is known again from its row. -/
@[simp] theorem ofRow_toRow (v : VersionOffer) : ofRow v.toRow = v := rfl

/-- The bytes of an offer. -/
def encode (v : VersionOffer) : Bytes := Cbor.Row.write columns v.toRow

/-- The offer that a frame holds. -/
def decode? (bs : Bytes) : Option VersionOffer := (Cbor.Row.decode? columns bs).map ofRow

end VersionOffer

end DevicePairing
