import BusWindow.Json.Value
import BusWindow.Text.Utf8
import BusWindow.Timestamp

/-!
# Records and messages

    A record is what a publisher hands over. A message is a record that has
    been taken in: it has a sequence number, which no other message has, and
    the time at which it arrived.
-/

namespace BusWindow

/-- One event of the bus. -/
structure Record where
  body : Bytes
  routingKey : String
  headers : Json.Members
  sender : String
  deriving Repr, Inhabited, BEq

/-- A record that has been taken in. -/
structure Message where
  seq : Int
  receivedAt : Timestamp
  record : Record
  deriving Repr, Inhabited, BEq

namespace Message

def body (m : Message) : Bytes := m.record.body

def routingKey (m : Message) : String := m.record.routingKey

def headers (m : Message) : Json.Members := m.record.headers

def sender (m : Message) : String := m.record.sender

/-- The text of a header, if it is there and a string. -/
def headerText? (m : Message) (name : String) : Option String :=
  (SortedMap.get? name m.headers).bind Json.Value.string?

end Message

end BusWindow
