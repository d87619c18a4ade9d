import BusWindow.Fifo
import BusWindow.Message.Matching
import BusWindow.Tally

/-!
# The buffer — the newest messages, and what can be asked about them

    The buffer gives every record the next sequence number and keeps the
    newest messages, as many as fit. Emptying it does not start the
    numbering again. What it is asked it answers in one reply: the messages
    that were asked for and the counters at that moment.
-/

namespace BusWindow

/-- The newest messages, oldest first. -/
structure Buffer where
  capacity : Nat
  /-- How many records have ever been numbered. -/
  received : Nat
  messages : Fifo Message
  deriving Repr

/-- What can be asked of the buffer. -/
inductive Demand where
  | query (q : Query)
  | clear
  | dump
  | stats
  deriving DecidableEq, Repr

/-- The messages asked for, and the counters. -/
structure Reply where
  messages : List Message
  totalReceived : Int
  buffered : Nat
  capacity : Nat
  deriving Repr, Inhabited, BEq

/-- The tally of the messages of a reply. -/
def Reply.frequencies (r : Reply) : Tally := Tally.ofKeys (r.messages.map Message.routingKey)

namespace Buffer

/-- The buffer that has seen nothing. -/
def empty (capacity : Nat) : Buffer := ⟨capacity, 0, Fifo.empty⟩

/-- The messages, oldest first. -/
def toList (b : Buffer) : List Message := b.messages.toList

/-- How many messages are kept. -/
def size (b : Buffer) : Nat := b.messages.size

/-- The message that a record becomes. -/
def message (b : Buffer) (arrival : Timestamp) (r : Record) : Message :=
  ⟨b.received, arrival, r⟩

/-- Takes in a record; the oldest message leaves when there is no room. -/
def add (b : Buffer) (arrival : Timestamp) (r : Record) : Buffer :=
  let messages := b.messages.push (b.message arrival r)
  { b with
    received := b.received + 1
    messages := if b.capacity < messages.size then messages.dropFirst else messages }

/-- Drops every message and keeps the count. -/
def clear (b : Buffer) : Buffer := { b with messages := Fifo.empty }

/-- The messages that a query finds: the newest ones in the order of their
    arrival, or those that answer a clause, newest first. -/
def find (b : Buffer) (limit : Nat) : Query → List Message
  | .all => b.toList.drop (b.size - min b.size limit)
  | .filter clauses => (b.toList.reverse.filter (anyAccepts clauses)).take limit

/-- The messages that a demand asks for. -/
def asked (b : Buffer) (limit : Nat) : Demand → List Message
  | .query q => b.find limit q
  | .dump => b.toList
  | .clear => []
  | .stats => []

/-- What a demand leaves of the buffer. -/
def after (b : Buffer) : Demand → Buffer
  | .clear => b.clear
  | _ => b

/-- The answer to a demand. -/
def reply (b : Buffer) (limit : Nat) (d : Demand) : Reply :=
  ⟨b.asked limit d, b.received, b.size, b.capacity⟩

end Buffer

end BusWindow
