import WebSocket.Text.Blank

/-!
# Lines and headers of a request

A request is cut into lines at every CR LF.  A header line is a name, a colon and a value; blanks
around either do not count, nor does the case of the letters A to Z in a name.  The values of
equal names are joined by `, ` in the order of their lines, and a list such as
`keep-alive, Upgrade` is searched for a token item by item.
-/

namespace WebSocket.Opening

/-! ## Cutting texts -/

def attach (c : Char) : List (List Char) → List (List Char)
  | [] => [[c]]
  | piece :: later => (c :: piece) :: later

def lines : List Char → List (List Char)
  | [] => [[]]
  | '\r' :: '\n' :: rest => [] :: lines rest
  | c :: rest => attach c (lines rest)

def pieces (mark : Char) : List Char → List (List Char)
  | [] => [[]]
  | c :: rest => if c = mark then [] :: pieces mark rest else attach c (pieces mark rest)

def lower (text : List Char) : List Char := text.map Char.toLower

/-! ## Headers -/

/-- The headers of a request: names in lower case, each once, with its values, the latest first. -/
abbrev Headers := List (List Char × List (List Char))

/-- The joined values under a name in lower case. -/
def Headers.get? (headers : Headers) (name : String) : Option (List Char) :=
  (headers.lookup name.toList).map fun values => ", ".toList.intercalate values.reverse

/-- Add a value under a name, after the values that are there. -/
def Headers.insert (name value : List Char) : Headers → Headers
  | [] => [(name, [value])]
  | (n, values) :: later =>
    if n = name then (n, value :: values) :: later
    else (n, values) :: Headers.insert name value later

/-- The name and the value of a header line; nothing if there is no colon or no name before it. -/
def headerLine? (line : List Char) : Option (List Char × List Char) :=
  match line.dropWhile (· != ':') with
  | [] => none
  | _ :: value =>
    let name := Text.trim (line.takeWhile (· != ':'))
    if name.isEmpty then none else some (name, Text.trim value)

/-- Whether a list of items, with commas between them, holds a token, whatever the case of the
letters A to Z. -/
def hasToken (value : List Char) (token : String) : Bool :=
  (pieces ',' value).any fun item => lower (Text.trim item) == lower token.toList

end WebSocket.Opening
