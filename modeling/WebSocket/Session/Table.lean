import WebSocket.Session.Connection

/-!
# The table of connections

Connections stand in the table under their numbers, in ascending order.  A number is given out by
`Table.add` and never again.  A connection leaves the table only when it is removable.
-/

namespace WebSocket

structure Table where
  /-- The number given out last, zero before the first. -/
  lastId : Nat
  /-- The limit on payloads of the table's connections. -/
  limit : Nat
  entries : List (ConnectionId × Connection)
  deriving DecidableEq

namespace Table

def new (limit : Nat) : Table := ⟨0, limit, []⟩

def find? (table : Table) (id : ConnectionId) : Option Connection := table.entries.lookup id

/-- Put a connection in the place of the one under a number that is in use. -/
def set (table : Table) (id : ConnectionId) (c : Connection) : Table :=
  { table with entries := table.entries.map fun e => if e.1 = id then (id, c) else e }

/-- Take in a stream under the next number. -/
def add (table : Table) (transport : Transport) (peer : Option SocketAddress)
    (leftover : ReceiveBuffer) : Table × ConnectionId :=
  let id : ConnectionId := ⟨table.lastId + 1⟩
  let c := Connection.new id transport peer leftover table.limit
  ({ table with lastId := table.lastId + 1, entries := table.entries ++ [(id, c)] }, id)

/-- Remove the connection under a number if it is removable, and give it back. -/
def erase? (table : Table) (id : ConnectionId) : Option (Table × Connection) :=
  match table.find? id with
  | none => none
  | some c =>
    if c.isRemovable then
      some ({ table with entries := table.entries.filter fun e => e.1 ≠ id }, c)
    else none

/-- How many connections there are, with those that are closing. -/
def size (table : Table) : Nat := table.entries.length

def isEmpty (table : Table) : Bool := table.entries.isEmpty

/-- Whether a frame in a queue bears a mark. -/
def carries (table : Table) (loan : Loan) : Bool := table.entries.any (·.2.carries loan)

/-- The numbers in use, in ascending order. -/
def ids (table : Table) : List ConnectionId := table.entries.map (·.1)

/-- Close every connection, and give the numbers of those that were not closed before. -/
def closeAll (table : Table) : Table × List ConnectionId :=
  ({ table with entries := table.entries.map fun e => (e.1, e.2.close.1) },
    (table.entries.filter fun e => e.2.close.2).map (·.1))

end Table

end WebSocket
