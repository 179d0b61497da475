import WebSocket.Text.Unprintable
import WebSocket.Wire.Bytes

/-!
# Quotations

A quotation shows a text between double quotes so that no character of it can be mistaken: quotes
and backslashes are escaped, the usual controls have letters (`\t`, `\r`, `\n`, `\0`), and other
characters without a glyph of their own are written by number.  `hex` writes numbers in lower-case
hexadecimal.
-/

namespace WebSocket.Text

/-- A number in lower-case hexadecimal, without leading zeros. -/
def hex (n : Nat) : String := String.ofList (Nat.toDigits 16 n)

/-- A number in lower-case hexadecimal, with at least two digits. -/
def hex2 (n : Nat) : String := if n < 16 then "0" ++ hex n else hex n

/-- How a character of a text is written in a quotation. -/
def escapeChar (c : Char) : String :=
  if c = '\x00' then "\\0"
  else if c = '\t' then "\\t"
  else if c = '\r' then "\\r"
  else if c = '\n' then "\\n"
  else if c = '\\' then "\\\\"
  else if c = '"' then "\\\""
  else if isUnprintable c then "\\u\x7b" ++ hex c.toNat ++ "\x7d"
  else String.singleton c

def quote (s : String) : String := "\"" ++ String.join (s.toList.map escapeChar) ++ "\""

/-- How an octet is written in a quotation of octets. -/
def escapeOctet (b : UInt8) : String :=
  if b = 0x00 then "\\0"
  else if b = 0x09 then "\\t"
  else if b = 0x0D then "\\r"
  else if b = 0x0A then "\\n"
  else if b = 0x5C then "\\\\"
  else if b = 0x22 then "\\\""
  else if 0x20 ≤ b ∧ b < 0x7F then String.singleton (Char.ofNat b.toNat)
  else "\\x" ++ hex2 b.toNat

def quoteOctets (octets : Bytes) : String :=
  "b\"" ++ String.join (octets.map escapeOctet) ++ "\""

end WebSocket.Text
