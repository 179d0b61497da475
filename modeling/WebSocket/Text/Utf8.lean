import WebSocket.Wire.Bytes

/-!
# Faults in UTF-8

`Utf8.fault?` finds the first place where octets stop being UTF-8 and tells two cases apart: an
octet that cannot stand where it stands, and an end in the middle of a character.  `Utf8.repair`
puts U+FFFD in the place of every ill-formed piece.

A character is a lead octet and up to three octets that follow it.  The lead fixes their number
and the range of the first of them; the others are in `0x80 .. 0xBF`.
-/

namespace WebSocket

/-- Where octets stop being UTF-8.  `length` counts the octets of the longest start of a character
that stands there; it is absent if the input ends within one. -/
structure Utf8Fault where
  validUpTo : Nat
  length : Option Nat
  deriving DecidableEq, Repr

namespace Utf8

/-- The octets that may follow one another: how many, and the range of the first of them. -/
structure Followers where
  count : Nat
  low : UInt8
  high : UInt8

/-- What has to follow a lead octet, or nothing if the octet leads no character. -/
def followers? (lead : UInt8) : Option Followers :=
  if lead < 0x80 then some ⟨0, 0x80, 0xBF⟩
  else if lead < 0xC2 then none
  else if lead < 0xE0 then some ⟨1, 0x80, 0xBF⟩
  else if lead = 0xE0 then some ⟨2, 0xA0, 0xBF⟩
  else if lead = 0xED then some ⟨2, 0x80, 0x9F⟩
  else if lead < 0xF0 then some ⟨2, 0x80, 0xBF⟩
  else if lead = 0xF0 then some ⟨3, 0x90, 0xBF⟩
  else if lead < 0xF4 then some ⟨3, 0x80, 0xBF⟩
  else if lead = 0xF4 then some ⟨3, 0x80, 0x8F⟩
  else none

/-- What stands at the front of octets.  Each case counts the octets after the lead. -/
inductive Front where
  /-- A whole character. -/
  | whole (followers : Nat)
  /-- The start of a character and then an octet that does not continue it. -/
  | broken (followers : Nat)
  /-- The start of a character and then the end. -/
  | cut
  deriving DecidableEq, Repr

/-- Match `count` further octets, the first of them in `low .. high`, after `seen` ones. -/
def matchFollowers : (count : Nat) → (low high : UInt8) → (seen : Nat) → Bytes → Front
  | 0, _, _, seen, _ => .whole seen
  | _ + 1, _, _, _, [] => .cut
  | count + 1, low, high, seen, b :: rest =>
    if low ≤ b ∧ b ≤ high then matchFollowers count 0x80 0xBF (seen + 1) rest else .broken seen

/-- What stands at the front of octets that start with `lead`. -/
def front (lead : UInt8) (rest : Bytes) : Front :=
  match followers? lead with
  | some f => matchFollowers f.count f.low f.high 0 rest
  | none => .broken 0

/-- The first fault in octets of which the first stands at `position`. -/
def faultFrom? (position : Nat) (octets : Bytes) : Option Utf8Fault :=
  match octets with
  | [] => none
  | lead :: rest =>
    match front lead rest with
    | .whole n => faultFrom? (position + n + 1) (rest.drop n)
    | .broken n => some ⟨position, some (n + 1)⟩
    | .cut => some ⟨position, none⟩
termination_by octets.length
decreasing_by simp only [List.length_drop, List.length_cons]; omega

/-- The first fault in octets, if they are not UTF-8. -/
def fault? (octets : Bytes) : Option Utf8Fault := faultFrom? 0 octets

/-- The octets of U+FFFD, which stands for what cannot be read. -/
def replacement : Bytes := [0xEF, 0xBF, 0xBD]

/-- The octets with U+FFFD in the place of every ill-formed piece. -/
def repair (octets : Bytes) : Bytes :=
  match octets with
  | [] => []
  | lead :: rest =>
    match front lead rest with
    | .whole n => lead :: rest.take n ++ repair (rest.drop n)
    | .broken n => replacement ++ repair (rest.drop n)
    | .cut => replacement
termination_by octets.length
decreasing_by all_goals simp only [List.length_drop, List.length_cons]; omega

end Utf8

def Utf8Fault.message (fault : Utf8Fault) : String :=
  match fault.length with
  | some n =>
    "invalid utf-8 sequence of " ++ toString n ++ " bytes from index "
      ++ toString fault.validUpTo
  | none => "incomplete utf-8 byte sequence from index " ++ toString fault.validUpTo

/-- The text of octets, with U+FFFD for what is not UTF-8. -/
def Bytes.toStringRepaired (octets : Bytes) : String :=
  ((Utf8.repair octets).toString?).getD ""

/-! ## ASCII -/

/-- Octets that each stand for a character. -/
def Bytes.IsAscii (octets : Bytes) : Prop := ∀ octet ∈ octets, octet < 0x80

instance (octets : Bytes) : Decidable octets.IsAscii :=
  List.decidableBAll (p := fun octet : UInt8 => octet < 0x80) octets

theorem Bytes.IsAscii.append {octets more : Bytes} (h : octets.IsAscii) (hmore : more.IsAscii) :
    Bytes.IsAscii (octets ++ more) := by
  intro octet hmem
  rcases List.mem_append.mp hmem with hmem | hmem
  · exact h octet hmem
  · exact hmore octet hmem

/-- Nothing in ASCII is in need of repair. -/
theorem Utf8.repair_of_isAscii {octets : Bytes} (h : octets.IsAscii) : repair octets = octets := by
  induction octets with
  | nil => rw [repair]
  | cons lead rest ih =>
    obtain ⟨hlead, hrest⟩ := List.forall_mem_cons.mp h
    have hfront : front lead rest = .whole 0 := by
      rw [front, followers?, if_pos hlead]
      rfl
    rw [repair, hfront]
    show lead :: [] ++ repair rest = lead :: rest
    rw [ih hrest]
    rfl

theorem Bytes.toStringRepaired_ofString {s : String} (h : (Bytes.ofString s).IsAscii) :
    (Bytes.ofString s).toStringRepaired = s := by
  rw [toStringRepaired, Utf8.repair_of_isAscii h, toString?_ofString]
  rfl

end WebSocket
