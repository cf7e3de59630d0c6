import DevicePairing.Bytes

/-!
# Links

A link carries frames, byte strings that arrive whole or not at all, between two devices. What the
upper layers need of it is a place to hand frames to, which may refuse them.
-/

namespace DevicePairing

/-- The text of a span of time given in milliseconds: the largest unit that keeps a whole part, at most
three decimals and none that is superfluous. -/
def spanText (ms : Nat) : String :=
  if ms = 0 then "0ns"
  else if ms < 1000 then s!"{ms}ms"
  else
    let whole := toString (ms / 1000)
    let decimals := ((Nat.toDigits 10 (1000 + ms % 1000)).drop 1).reverse.dropWhile (· = '0')
    if decimals = [] then whole ++ "s" else whole ++ "." ++ String.ofList decimals.reverse ++ "s"

/-- Why a link did not carry a frame. -/
inductive LinkError where
  /-- The other end is gone. -/
  | closed
  /-- Nothing arrived within the given number of milliseconds. -/
  | timeout (ms : Nat)
  /-- The link failed for the given reason. -/
  | failed (reason : String)
  deriving DecidableEq

/-- The wording of a link error. -/
def LinkError.message : LinkError → String
  | .closed => "link closed"
  | .timeout ms => s!"recv timeout after {spanText ms}"
  | .failed reason => s!"io error: {reason}"

/-- A place to hand frames to. Its state may change with every frame, so it may refuse any pattern of
them. -/
structure FrameSink (κ : Type) where
  /-- Offers a frame. -/
  send : Bytes → κ → Except LinkError Unit × κ

end DevicePairing
