import BusWindow.Delivery
import BusWindow.Text.Blank

/-!
# Headers of a request, and the delivery they describe

    The case of a header's name does not matter. A value is text when all of
    its bytes are printable ASCII characters or tabs; what is no text is
    passed over. One header names the sender, and a family of headers
    carries the headers of the message.
-/

namespace BusWindow.Http

/-- The headers of a request, in their order. -/
abbrev Headers := List (String × Bytes)

/-- Whether a byte may stand in a text. -/
def isTextByte (b : UInt8) : Bool :=
  (decide (0x20 ≤ b) && decide (b ≤ 0x7E)) || b == 0x09

/-- The text of a value, if it is one. -/
def headerText? (value : Bytes) : Option String :=
  if value.all isTextByte then some (String.ofList (value.map fun b => Char.ofNat b.toNat))
  else none

/-- The header that names the sender. -/
def senderName : String := "x-mqwatch-sender"

/-- What the names of the headers of the message begin with. -/
def messageHeaderStem : List Char := "x-mqwatch-header-".toList

/-- What is left of a text behind a stem. -/
def behind? : List Char → List Char → Option (List Char)
  | [], text => some text
  | _ :: _, [] => none
  | a :: stem, b :: text => if a = b then behind? stem text else none

/-- The first value under a name. -/
def firstValue? (headers : Headers) (name : String) : Option Bytes :=
  (headers.find? fun h => Text.lowered h.1 == name).map fun h => h.2

/-- The sender: the first value, if it is text. -/
def sender (headers : Headers) : String :=
  ((firstValue? headers senderName).bind headerText?).getD ""

/-- The header of the message that a header of the request carries. -/
def messageHeader? (h : String × Bytes) : Option (String × Json.Value) :=
  match behind? messageHeaderStem (Text.lowered h.1).toList, headerText? h.2 with
  | some name, some text => some (String.ofList name, .string text)
  | _, _ => none

/-- The headers of the message: of several values under a name the last one
    that is text. -/
def messageHeaders (headers : Headers) : Json.Members :=
  SortedMap.ofList (headers.filterMap messageHeader?)

/-- The delivery that a request carries. -/
def delivery (routingKey : String) (headers : Headers) (body : Bytes) : Delivery :=
  ⟨routingKey, body, messageHeaders headers, sender headers⟩

end BusWindow.Http
