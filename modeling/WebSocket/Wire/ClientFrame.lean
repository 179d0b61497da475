import WebSocket.Wire.Masking
import WebSocket.Wire.ServerFrame

/-!
# Frames of a client

`encodeFrame` writes a frame the way a client does: the first octet as given, the length in its
shortest form with the mask bit beside it, the key if there is one, and the payload under the key.
-/

namespace WebSocket

inductive LengthForm where
  /-- In the seven bits of the second octet. -/
  | inline
  /-- In two octets of their own. -/
  | medium
  /-- In eight octets of their own. -/
  | long
  deriving DecidableEq, Repr

namespace LengthForm

/-- The shortest form in which a length can be written. -/
def shortest (length : Nat) : LengthForm :=
  if length ≤ 125 then inline else if length ≤ 65535 then medium else long

/-- The seven bits that announce the form of a length. -/
def marker (length : Nat) : LengthForm → UInt8
  | inline => UInt8.ofNat length
  | medium => 126
  | long => 127

/-- The octets that the form adds after the second octet. -/
def extension (length : Nat) : LengthForm → Bytes
  | inline => []
  | medium => BigEndian.encode 2 length
  | long => BigEndian.encode 8 length

end LengthForm

/-- A frame with a given first octet, masked if there is a key. -/
def encodeFrame (first : UInt8) (payload : Bytes) (key : Option MaskKey) : Bytes :=
  let length := payload.length
  let form := LengthForm.shortest length
  match key with
  | none => first :: form.marker length :: (form.extension length ++ payload)
  | some key =>
    first :: (0x80 ||| form.marker length) ::
      (form.extension length ++ key.toBytes ++ key.apply payload)

end WebSocket
