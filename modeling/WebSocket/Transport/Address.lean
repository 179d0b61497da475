import WebSocket.Text.Quoted

/-!
# Socket addresses

An IP address with a port, read from text and written in the one form that stands for it: IPv4 as
four decimal numbers, IPv6 in brackets with its longest run of zero groups left out and a mapped
IPv4 address shown as one.

Readers take characters from the front of a text and give what they read with the rest, or nothing
if the text does not start with it.
-/

namespace WebSocket

/-- An IP address: four octets, or eight groups of sixteen bits. -/
inductive IpAddress where
  | v4 (a b c d : Nat)
  | v6 (groups : List Nat)
  deriving DecidableEq, Repr

/-- An IP address, the number of the interface on which an IPv6 address holds (zero for any), and
a port. -/
structure SocketAddress where
  ip : IpAddress
  scope : Nat
  port : Nat
  deriving DecidableEq, Repr

namespace SocketAddress

/-! ## Reading -/

/-- A reader: what it reads and the rest of the text. -/
abbrev Reader (α : Type) := List Char → Option (α × List Char)

/-- The value of a digit in a base of up to sixteen. -/
def digitValue? (base : Nat) (c : Char) : Option Nat :=
  let n := c.toNat
  let v :=
    if 48 ≤ n ∧ n ≤ 57 then n - 48
    else if 97 ≤ n ∧ n ≤ 102 then n - 87
    else if 65 ≤ n ∧ n ≤ 70 then n - 55
    else 16
  if v < base then some v else none

/-- The digits at the front of a text, as values, and the rest. -/
def digits (base : Nat) : List Char → List Nat × List Char
  | [] => ([], [])
  | c :: rest =>
    match digitValue? base c with
    | some v => let (vs, rest) := digits base rest; (v :: vs, rest)
    | none => ([], c :: rest)

/-- A number of one to `maxDigits` digits that is at most `most`.  Only if `zeros` holds may a
number of several digits start with a zero. -/
def number (base : Nat) (maxDigits : Option Nat) (zeros : Bool) (most : Nat) : Reader Nat :=
  fun text =>
    let (vs, rest) := digits base text
    let n := vs.foldl (fun n v => n * base + v) 0
    if vs.isEmpty then none
    else if maxDigits.any fun m => decide (m < vs.length) then none
    else if !zeros && vs.head? == some 0 && decide (1 < vs.length) then none
    else if most < n then none
    else some (n, rest)

/-- One given character. -/
def character (c : Char) : Reader Unit
  | d :: rest => if d = c then some ((), rest) else none
  | [] => none

/-- An IPv4 address. -/
def ipv4 : Reader (Nat × Nat × Nat × Nat) := fun text => do
  let octet := number 10 (some 3) false 255
  let (a, text) ← octet text
  let (_, text) ← character '.' text
  let (b, text) ← octet text
  let (_, text) ← character '.' text
  let (c, text) ← octet text
  let (_, text) ← character '.' text
  let (d, text) ← octet text
  some ((a, b, c, d), text)

/-- The mark `:` before a group that is not the first. -/
def separator (first : Bool) : Reader Unit :=
  fun text => if first then some ((), text) else character ':' text

/-- Up to `room` groups of an IPv6 address.  An IPv4 address stands for two groups and ends the
list, which the second result tells. -/
def groups (room : Nat) (first : Bool) (text : List Char) : List Nat × Bool × List Char :=
  match room with
  | 0 => ([], false, text)
  | room + 1 =>
    let embedded := do
      let (_, rest) ← separator first text
      if room = 0 then none else ipv4 rest
    match embedded with
    | some ((a, b, c, d), rest) => ([a * 256 + b, c * 256 + d], true, rest)
    | none =>
      let group := do
        let (_, rest) ← separator first text
        number 16 (some 4) true 65535 rest
      match group with
      | some (n, rest) =>
        let (ns, embedded, rest) := groups room false rest
        (n :: ns, embedded, rest)
      | none => ([], false, text)

/-- An IPv6 address: eight groups, or fewer with `::` for the zero groups left out. -/
def ipv6 : Reader (List Nat) := fun text =>
  let (head, embedded, rest) := groups 8 true text
  if head.length = 8 then some (head, rest)
  else if embedded then none
  else do
    let (_, rest) ← character ':' rest
    let (_, rest) ← character ':' rest
    let (tail, _, rest) := groups (8 - (head.length + 1)) true rest
    some (head ++ List.replicate (8 - head.length - tail.length) 0 ++ tail, rest)

/-- The number of an interface, after a percent sign. -/
def interface : Reader Nat := fun text => do
  let (_, text) ← character '%' text
  number 10 none true 4294967295 text

/-- A port, after a colon. -/
def portNumber : Reader Nat := fun text => do
  let (_, text) ← character ':' text
  number 10 none true 65535 text

/-- An IPv4 address and a port. -/
def socketV4 : Reader SocketAddress := fun text => do
  let ((a, b, c, d), text) ← ipv4 text
  let (port, text) ← portNumber text
  some (⟨.v4 a b c d, 0, port⟩, text)

/-- An IPv6 address in brackets and a port. -/
def socketV6 : Reader SocketAddress := fun text => do
  let (_, text) ← character '[' text
  let (ip, text) ← ipv6 text
  let (scope, text) := (interface text).getD (0, text)
  let (_, text) ← character ']' text
  let (port, text) ← portNumber text
  some (⟨.v6 ip, scope, port⟩, text)

/-- The socket address that a whole text writes. -/
def ofText? (text : String) : Option SocketAddress :=
  match socketV4 text.toList <|> socketV6 text.toList with
  | some (address, []) => some address
  | _ => none

/-! ## Writing -/

def textV4 (a b c d : Nat) : String :=
  ".".intercalate ([a, b, c, d].map toString)

/-- The first of the longest runs of zeros, as its start and its length.  `position` is where the
list starts. -/
def longestZeros (position : Nat) : List Nat → Nat × Nat
  | [] => (position, 0)
  | n :: rest =>
    let run := ((n :: rest).takeWhile (· == 0)).length
    let later := longestZeros (position + 1) rest
    if later.2 ≤ run then (position, run) else later

/-- Groups in hexadecimal with colons between them. -/
def textGroups (groups : List Nat) : String := ":".intercalate (groups.map Text.hex)

def textV6 (groups : List Nat) : String :=
  match groups with
  | [0, 0, 0, 0, 0, 0xFFFF, x, y] => "::ffff:" ++ textV4 (x / 256) (x % 256) (y / 256) (y % 256)
  | _ =>
    let (start, length) := longestZeros 0 groups
    if 1 < length then
      textGroups (groups.take start) ++ "::" ++ textGroups (groups.drop (start + length))
    else textGroups groups

/-- The address in its one written form. -/
def toText (address : SocketAddress) : String :=
  match address.ip with
  | .v4 a b c d => textV4 a b c d ++ ":" ++ toString address.port
  | .v6 groups =>
    let scope := if address.scope = 0 then "" else "%" ++ toString address.scope
    "[" ++ textV6 groups ++ scope ++ "]:" ++ toString address.port

end SocketAddress

end WebSocket
