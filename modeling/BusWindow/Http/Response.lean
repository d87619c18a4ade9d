import BusWindow.Json.Writer
import BusWindow.Store.Error

/-!
# Responses, and what a client is told of a failure

    A failure is the client's fault, or the store is overloaded, late or
    gone. Each has its status, and a client that was turned away because of
    the load is told when to come back.
-/

namespace BusWindow.Http

/-- What goes back to a client. -/
structure Response where
  status : Nat
  contentType : Option String := none
  body : Bytes := []
  retryAfter : Option String := none
  allow : Option String := none
  deriving DecidableEq, Repr, Inhabited

namespace Response

/-- A response without a body. -/
def empty (status : Nat) : Response := { status }

/-- A response of plain text. -/
def plain (status : Nat) (text : String) : Response :=
  { status, contentType := some "text/plain; charset=utf-8", body := Utf8.ofString text }

/-- A response that is a page. -/
def html (status : Nat) (text : String) : Response :=
  { status, contentType := some "text/html; charset=utf-8", body := Utf8.ofString text }

/-- A response of JSON. -/
def json (status : Nat) (body : Bytes) : Response :=
  { status, contentType := some "application/json", body }

end Response

/-- Why a request fails. -/
inductive Failure where
  | badRequest (why : String)
  | overloaded
  | timeout (after : Duration)
  | unavailable
  deriving DecidableEq, Repr

namespace Failure

/-- What a failure of the store is to a client. -/
def ofStore : StoreError → Failure
  | .invalidRange e => .badRequest e.message
  | .overloaded => .overloaded
  | .timeout after => .timeout after
  | .closed => .unavailable

/-- The wording of a failure. -/
def message : Failure → String
  | .badRequest why => "invalid input: " ++ why
  | .overloaded => StoreError.overloaded.message
  | .timeout after => (StoreError.timeout after).message
  | .unavailable => StoreError.closed.message

/-- The status of a failure. -/
def status : Failure → Nat
  | .badRequest _ => 400
  | .overloaded => 503
  | .timeout _ => 504
  | .unavailable => 503

/-- The response to a request that fails. -/
def response (f : Failure) : Response :=
  { Response.json f.status (Json.Value.object [("error", .string f.message)]).compactBytes with
    retryAfter := if f = .overloaded then some "1" else none }

end Failure

end BusWindow.Http
