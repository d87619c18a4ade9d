import BusWindow.Json.Typed
import BusWindow.Message.Form
import BusWindow.Query
import BusWindow.Timestamp.Reader

/-!
# Reading records and answers back

    What is written of a record, or of the answer to a query, can be read
    again. A record may lack its headers and its sender; an answer lacks
    nothing.
-/

namespace BusWindow

open Json

/-- A field that is read by `read` and put into the draft by `put`. -/
def Json.field {σ α : Type} (name : String) (required : Bool) (get : σ → Option α)
    (put : σ → α → σ) (read : Bytes → Reading α) : Json.Field σ where
  name := name
  required := required
  present draft := (get draft).isSome
  read draft s := (read s).map fun r => (put draft r.1, r.2)

namespace Record

/-- A record of which some fields have been read. -/
structure Draft where
  body : Option Bytes := none
  routingKey : Option String := none
  headers : Option Members := none
  sender : Option String := none

/-- The record of a draft. -/
def Draft.record (d : Draft) : Record :=
  ⟨d.body.getD [], d.routingKey.getD "", d.headers.getD [], d.sender.getD ""⟩

/-- A byte. -/
def readByte (s : Bytes) : Reading UInt8 :=
  (natAs 256 "u8" s).map fun r => (UInt8.ofNat r.1, r.2)

/-- The fields of a record, whose values stand at a depth. -/
def fields (fuel depth : Nat) : List (Json.Field Draft) :=
  [field "body" true Draft.body (fun d x => { d with body := some x })
     (listAs fuel depth fun _ => readByte),
   field "routing_key" true Draft.routingKey (fun d x => { d with routingKey := some x }) textAs,
   field "headers" false Draft.headers (fun d x => { d with headers := some x })
     (mapAs fuel depth (value fuel)),
   field "sender" false Draft.sender (fun d x => { d with sender := some x }) textAs]

/-- Reads a record. -/
def read (fuel : Nat) (s : Bytes) : Reading Record :=
  (structAs "IngestRecord" (fields fuel) {} fuel greatestDepth s).map fun r =>
    (r.1.record, r.2)

/-- The record of a text. -/
def parse (text : Bytes) : Except Json.Error Record := whole read text

end Record

/-- Takes a text for a timestamp. -/
def Json.takeTime : Taken Timestamp
  | .string s =>
    match Timestamp.ofString s with
    | .ok t => .ok t
    | .error e => .error (.misfit e.message)
  | v => refuse "an RFC 3339 formatted date and time string" v

/-- A timestamp. -/
def Json.timeAs (s : Bytes) : Reading Timestamp :=
  plainAs "an RFC 3339 formatted date and time string" takeTime s

/-- A sequence number or a count of messages. -/
def Json.seqAs (s : Bytes) : Reading Int := intAs (-0x8000000000000000) greatestSeq "i64" s

/-- A count of things in memory. -/
def Json.countAs (s : Bytes) : Reading Nat := natAs Number.naturalBound "usize" s

namespace MessageView

/-- A view of which some fields have been read. -/
structure Draft where
  seq : Option Int := none
  routingKey : Option String := none
  receivedAt : Option Timestamp := none
  sender : Option String := none
  headers : Option Members := none
  body : Option Value := none

/-- The view of a draft. -/
def Draft.view (d : Draft) : MessageView :=
  ⟨d.seq.getD 0, d.routingKey.getD "", d.receivedAt.getD ⟨0, 0⟩, d.sender.getD "",
    d.headers.getD [], d.body.getD .null⟩

/-- The fields of a view, whose values stand at a depth. -/
def fields (fuel depth : Nat) : List (Json.Field Draft) :=
  [field "seq" true Draft.seq (fun d x => { d with seq := some x }) seqAs,
   field "routing_key" true Draft.routingKey (fun d x => { d with routingKey := some x }) textAs,
   field "received_at" true Draft.receivedAt (fun d x => { d with receivedAt := some x }) timeAs,
   field "sender" true Draft.sender (fun d x => { d with sender := some x }) textAs,
   field "headers" true Draft.headers (fun d x => { d with headers := some x })
     (mapAs fuel depth (value fuel)),
   field "body" true Draft.body (fun d x => { d with body := some x }) (value fuel depth)]

/-- Reads a view that stands at a depth. -/
def read (fuel depth : Nat) (s : Bytes) : Reading MessageView :=
  (structAs "MessageView" (fields fuel) {} fuel depth s).map fun r => (r.1.view, r.2)

end MessageView

namespace QueryAnswer

/-- An answer of which some fields have been read. -/
structure Draft where
  messages : Option (List MessageView) := none
  frequencies : Option Tally := none
  totalReceived : Option Int := none
  buffered : Option Nat := none

/-- The answer of a draft. -/
def Draft.answer (d : Draft) : QueryAnswer :=
  ⟨d.messages.getD [], d.frequencies.getD [], d.totalReceived.getD 0, d.buffered.getD 0⟩

/-- The fields of an answer, whose values stand at a depth. -/
def fields (fuel depth : Nat) : List (Json.Field Draft) :=
  [field "messages" true Draft.messages (fun d x => { d with messages := some x })
     (listAs fuel depth (MessageView.read fuel)),
   field "frequencies" true Draft.frequencies (fun d x => { d with frequencies := some x })
     (mapAs fuel depth fun _ => countAs),
   field "total_received" true Draft.totalReceived
     (fun d x => { d with totalReceived := some x }) seqAs,
   field "buffered" true Draft.buffered (fun d x => { d with buffered := some x }) countAs]

/-- Reads an answer. -/
def read (fuel : Nat) (s : Bytes) : Reading QueryAnswer :=
  (structAs "QueryResponse" (fields fuel) {} fuel greatestDepth s).map fun r =>
    (r.1.answer, r.2)

/-- The answer of a text. -/
def parse (text : Bytes) : Except Json.Error QueryAnswer := whole read text

end QueryAnswer

end BusWindow
