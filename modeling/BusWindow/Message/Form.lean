import BusWindow.Json.Reader
import BusWindow.Message
import BusWindow.Tally

/-!
# Records and messages as JSON

    The members come in a fixed order, which is the order of writing. A
    message is written with its body as a list of byte numbers; a view of it
    shows the body as the JSON value that it holds, and a body that holds
    none as the text of its bytes.
-/

namespace BusWindow

open Json

/-- Bytes as a list of numbers. -/
def Json.bytesForm (s : Bytes) : Value := .array (s.map fun b => .ofNat b.toNat)

/-- A record as JSON. -/
def Record.form (r : Record) : Value :=
  .object [("body", bytesForm r.body), ("routing_key", .string r.routingKey),
    ("headers", .object r.headers), ("sender", .string r.sender)]

/-- A message as JSON. -/
def Message.form (m : Message) : Value :=
  .object [("seq", .ofInt m.seq), ("body", bytesForm m.body),
    ("routing_key", .string m.routingKey), ("received_at", .string m.receivedAt.text),
    ("sender", .string m.sender), ("headers", .object m.headers)]

/-- A message as it is shown to a program. -/
structure MessageView where
  seq : Int
  routingKey : String
  receivedAt : Timestamp
  sender : String
  headers : Members
  body : Value
  deriving Repr, Inhabited, BEq

namespace MessageView

/-- The value that a body is shown as. -/
def bodyOf (body : Bytes) : Value :=
  match Json.parse body with
  | .ok v => v
  | .error _ => .string (Utf8.lossy body)

/-- The view of a message. -/
def ofMessage (m : Message) : MessageView :=
  ⟨m.seq, m.routingKey, m.receivedAt, m.sender, m.headers, bodyOf m.body⟩

/-- A view as JSON. -/
def form (v : MessageView) : Value :=
  .object [("seq", .ofInt v.seq), ("routing_key", .string v.routingKey),
    ("received_at", .string v.receivedAt.text), ("sender", .string v.sender),
    ("headers", .object v.headers), ("body", v.body)]

end MessageView

/-- The answer to a query as it is shown to a program. -/
structure QueryAnswer where
  messages : List MessageView
  frequencies : Tally
  totalReceived : Int
  buffered : Nat
  deriving Repr, Inhabited, BEq

/-- An answer as JSON. -/
def QueryAnswer.form (a : QueryAnswer) : Value :=
  .object [("messages", .array (a.messages.map MessageView.form)),
    ("frequencies", .object (a.frequencies.map fun p => (p.1, .ofNat p.2))),
    ("total_received", .ofInt a.totalReceived), ("buffered", .ofNat a.buffered)]

end BusWindow
