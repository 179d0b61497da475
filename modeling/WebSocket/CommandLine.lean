import WebSocket.Transport.Address
import WebSocket.Wire.Decoder

/-!
# The command line

Options take a value, in the next argument or after an equals sign, and may be given once; flags
take none and end the reading.  A value that stands in an argument of its own is read when the next
option or flag is found, or at the end: until then `Reading.pending` holds it, so an argument that
nobody knows is reported before a value that does not do.
-/

namespace WebSocket

structure CommandLine where
  /-- The address to listen on. -/
  bind : SocketAddress
  /-- The longest payload of a client's frame. -/
  payloadLimit : Nat
  /-- How many seconds a client may take to open a session. -/
  openingTimeout : Option Nat
  /-- The address to serve metrics on. -/
  metricsAddress : Option SocketAddress
  deriving DecidableEq, Repr

namespace CommandLine

inductive OptionName where
  | bind
  | payloadLimit
  | openingTimeout
  | metricsAddress
  deriving DecidableEq, Repr

inductive Flag where
  | help
  | version
  deriving DecidableEq, Repr

/-- What an argument can name. -/
inductive Key where
  | option (name : OptionName)
  | flag (flag : Flag)
  deriving DecidableEq, Repr

/-- What a long name stands for. -/
def Key.ofLong? : String → Option Key
  | "bind" => some (.option .bind)
  | "max-payload" => some (.option .payloadLimit)
  | "handshake-timeout" => some (.option .openingTimeout)
  | "metrics-addr" => some (.option .metricsAddress)
  | "help" => some (.flag .help)
  | "version" => some (.flag .version)
  | _ => none

/-- What a letter stands for. -/
def Key.ofShort? : Char → Option Key
  | 'b' => some (.option .bind)
  | 'h' => some (.flag .help)
  | 'V' => some (.flag .version)
  | _ => none

def OptionName.shown : OptionName → String
  | bind => "--bind <BIND>"
  | payloadLimit => "--max-payload <MAX_PAYLOAD>"
  | openingTimeout => "--handshake-timeout <HANDSHAKE_TIMEOUT>"
  | metricsAddress => "--metrics-addr <METRICS_ADDR>"

def Flag.shown : Flag → String
  | help => "--help"
  | version => "--version"

/-- Why no settings come of a command line. -/
inductive Refusal where
  /-- The user wants a text instead. -/
  | asked (flag : Flag)
  /-- An argument that nobody knows. -/
  | unknown (argument : String)
  /-- An option without its value. -/
  | missingValue (name : OptionName)
  /-- A value that does not do. -/
  | invalidValue (name : OptionName) (value : String)
  /-- An option that was given before. -/
  | repeated (name : OptionName)
  /-- A flag with a value. -/
  | needlessValue (flag : Flag) (value : String)
  deriving DecidableEq, Repr

/-! ## Values -/

def maxNumber : Nat := 0xFFFFFFFFFFFFFFFF

/-- A number in decimal digits, with a plus sign before it if one likes. -/
def readNumber? (text : String) : Option Nat :=
  let digits :=
    match text.toList with
    | '+' :: rest => rest
    | all => all
  if digits.isEmpty || ! digits.all fun c => '0' ≤ c && c ≤ '9' then none
  else
    let n := digits.foldl (fun n c => n * 10 + (c.toNat - 48)) 0
    if n ≤ maxNumber then some n else none

def standard : CommandLine where
  bind := ⟨.v4 127 0 0 1, 0, 9001⟩
  payloadLimit := maxPayload
  openingTimeout := none
  metricsAddress := none

/-- The settings with the value of one option, if the value does. -/
def assign (settings : CommandLine) (name : OptionName) (value : String) : Option CommandLine :=
  match name with
  | .bind => (SocketAddress.ofText? value).map fun a => { settings with bind := a }
  | .payloadLimit => (readNumber? value).map fun n => { settings with payloadLimit := n }
  | .openingTimeout => (readNumber? value).map fun n => { settings with openingTimeout := some n }
  | .metricsAddress =>
    (SocketAddress.ofText? value).map fun a => { settings with metricsAddress := some a }

/-! ## Reading -/

/-- How far the reading of a command line has come. -/
structure Reading where
  settings : CommandLine
  /-- The options whose values have been read. -/
  given : List OptionName
  /-- An option whose value is not read yet, with the value if it has come. -/
  pending : Option (OptionName × Option String)
  deriving DecidableEq, Repr

namespace Reading

def start : Reading := ⟨standard, [], none⟩

def give (r : Reading) (name : OptionName) (value : String) : Except Refusal Reading :=
  if name ∈ r.given then .error (.repeated name)
  else
    match r.settings.assign name value with
    | none => .error (.invalidValue name value)
    | some settings => .ok { r with settings := settings, given := name :: r.given }

def resolve (r : Reading) : Except Refusal Reading :=
  match r.pending with
  | none => .ok r
  | some (name, none) => .error (.missingValue name)
  | some (name, some value) => { r with pending := none }.give name value

/-- An option is named, with its value if that is attached. -/
def option (r : Reading) (name : OptionName) (attached : Option String) :
    Except Refusal Reading := do
  let r ← r.resolve
  match attached with
  | some value => r.give name value
  | none => .ok { r with pending := some (name, none) }

def flag {α : Type} (r : Reading) (flag : Flag) : Except Refusal α := do
  let _ ← r.resolve
  .error (.asked flag)

/-- The value attached to a letter, without an equals sign in front. -/
def attachedValue? : List Char → Option String
  | [] => none
  | '=' :: rest => some (String.ofList rest)
  | rest => some (String.ofList rest)

def letters (r : Reading) : List Char → Except Refusal Reading
  | [] => .ok r
  | c :: rest =>
    match Key.ofShort? c with
    | none => .error (.unknown ("-" ++ String.singleton c))
    | some (.flag f) => r.flag f
    | some (.option name) => r.option name (attachedValue? rest)

/-- The text before the first equals sign, and the text after it if there is one. -/
def splitEquals : List Char → List Char × Option (List Char)
  | [] => ([], none)
  | '=' :: rest => ([], some rest)
  | c :: rest => let (name, value) := splitEquals rest; (c :: name, value)

def long (r : Reading) (text : List Char) : Except Refusal Reading :=
  let (name, value) := splitEquals text
  let name := String.ofList name
  match Key.ofLong? name, value.map String.ofList with
  | none, _ => .error (.unknown ("--" ++ name))
  | some (.option name), value => r.option name value
  | some (.flag f), none => r.flag f
  | some (.flag f), some value => .error (.needlessValue f value)

/-- An argument that names nothing, which may be the value of the option before it. -/
def plain (r : Reading) (text : String) : Except Refusal Reading :=
  match r.pending with
  | some (name, none) => .ok { r with pending := some (name, some text) }
  | _ => .error (.unknown text)

/-- Read arguments.  After two dashes alone nothing may follow. -/
def arguments (r : Reading) : List String → Except Refusal Reading
  | [] => r.resolve
  | argument :: later =>
    match argument.toList with
    | ['-', '-'] =>
      match later with
      | [] => r.resolve
      | extra :: _ => .error (.unknown extra)
    | '-' :: '-' :: text => do (← r.long text).arguments later
    | '-' :: c :: text => do (← r.letters (c :: text)).arguments later
    | _ => do (← r.plain argument).arguments later

end Reading

def ofArguments (arguments : List String) : Except Refusal CommandLine :=
  (Reading.start.arguments arguments).map (·.settings)

/-! ## Texts -/

def versionText : String := "wsengine 0.1.0\n"

def helpText : String :=
  "WebSocket echo server built on wsengine\n\nUsage: wsengine [OPTIONS]\n\nOptions:\n"
    ++ "  -b, --bind <BIND>\n"
    ++ "          Address to listen on [default: " ++ standard.bind.toText ++ "]\n"
    ++ "      --max-payload <MAX_PAYLOAD>\n"
    ++ "          Largest inbound frame payload accepted, in bytes [default: "
    ++ toString standard.payloadLimit ++ "]\n"
    ++ "      --handshake-timeout <HANDSHAKE_TIMEOUT>\n"
    ++ "          Seconds a client may take to complete the opening handshake\n"
    ++ "      --metrics-addr <METRICS_ADDR>\n"
    ++ "          Serve Prometheus metrics on this address\n"
    ++ "  -h, --help\n          Print help\n"
    ++ "  -V, --version\n          Print version\n"

def Flag.text : Flag → String
  | help => helpText
  | version => versionText

def Refusal.message : Refusal → String
  | asked flag => flag.text
  | unknown argument => "error: unexpected argument '" ++ argument ++ "' found\n"
  | missingValue name =>
    "error: a value is required for '" ++ name.shown ++ "' but none was supplied\n"
  | invalidValue name value =>
    "error: invalid value '" ++ value ++ "' for '" ++ name.shown ++ "'\n"
  | repeated name =>
    "error: the argument '" ++ name.shown ++ "' cannot be used multiple times\n"
  | needlessValue flag value =>
    "error: unexpected value '" ++ value ++ "' for '" ++ flag.shown ++ "' found\n"

end CommandLine

end WebSocket
