import BusWindow.Json.Reader
import BusWindow.Message

/-!
# Deliveries — what arrives from outside, and what is kept of it

    A delivery becomes a record when its routing key is not one of those
    that are ignored and its body is a JSON text. The record keeps the value
    of the body in its compact form, so space, the order of members and the
    spelling of escapes do not matter.
-/

namespace BusWindow

/-- An event as its publisher sent it. -/
structure Delivery where
  routingKey : String
  body : Bytes
  headers : Json.Members
  sender : String
  deriving Repr, Inhabited, BEq

/-- Why a delivery is turned down. -/
inductive Refusal where
  | ignoredKey (key : String)
  | notJson (error : Json.Error)
  deriving DecidableEq, Repr

/-- The wording of a refusal. -/
def Refusal.message : Refusal → String
  | .ignoredKey key => "routing key " ++ key ++ " is ignored"
  | .notJson error => "could not decode message body: " ++ error.message

namespace Delivery

/-- The record of a delivery. An ignored key is turned down before the body
    is looked at. -/
def record (ignored : List String) (d : Delivery) : Except Refusal Record :=
  if ignored.contains d.routingKey then .error (.ignoredKey d.routingKey)
  else
    match Json.parse d.body with
    | .error e => .error (.notJson e)
    | .ok v => .ok ⟨v.compactBytes, d.routingKey, d.headers, d.sender⟩

end Delivery

end BusWindow
