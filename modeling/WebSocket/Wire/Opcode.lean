/-!
# Opcodes

The low four bits of a frame's first octet say what the frame carries.  An opcode is read with
`Opcode.ofBits` and written with `Opcode.bits`:

    ofBits op.bits = op   unless `op` is `reserved n` with `n` outside its own range    (ofBits_bits)
-/

namespace WebSocket

/-- What a frame carries. -/
inductive Opcode where
  /-- A further fragment of a message. -/
  | continuation
  /-- A text message. -/
  | text
  /-- A binary message. -/
  | binary
  /-- The end of the session. -/
  | close
  /-- A question whether the peer is there. -/
  | ping
  /-- The answer to a ping. -/
  | pong
  /-- A value to which the protocol gives no meaning. -/
  | reserved (bits : UInt8)
  deriving DecidableEq, Repr

namespace Opcode

/-- The opcode in the low four bits of an octet. -/
def ofBits (octet : UInt8) : Opcode :=
  match octet &&& 0x0F with
  | 0x0 => continuation
  | 0x1 => text
  | 0x2 => binary
  | 0x8 => close
  | 0x9 => ping
  | 0xA => pong
  | other => reserved other

/-- The four bits that stand for an opcode on the wire. -/
def bits : Opcode → UInt8
  | continuation => 0x0
  | text => 0x1
  | binary => 0x2
  | close => 0x8
  | ping => 0x9
  | pong => 0xA
  | reserved n => n &&& 0x0F

/-- Control frames stand between messages and carry little. -/
def isControl : Opcode → Bool
  | close | ping | pong => true
  | _ => false

/-- The opcodes that a receiver has a use for: whole messages and control frames. -/
def isSupported : Opcode → Bool
  | continuation | reserved _ => false
  | _ => true

/-- The opcode's name. -/
def name : Opcode → String
  | continuation => "Continuation"
  | text => "Text"
  | binary => "Binary"
  | close => "Close"
  | ping => "Ping"
  | pong => "Pong"
  | reserved n => "Reserved(" ++ toString n.toNat ++ ")"

/-! ## Lemmas -/

theorem ofBits_bits {op : Opcode} (h : op.isSupported = true) : ofBits op.bits = op := by
  cases op <;> first | rfl | simp [isSupported] at h

end Opcode

end WebSocket
