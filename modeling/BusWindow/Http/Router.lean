import BusWindow.Http.Header
import BusWindow.Http.Response
import BusWindow.Http.Uri
import BusWindow.Page
import BusWindow.Settings
import BusWindow.Store.Errand
import BusWindow.Text.Percent

/-!
# Endpoints — what a request asks of the store, and what it gets back

    A path leads to an endpoint, and the method decides whether the endpoint
    is for the request. Each endpoint needs at most one operation on the
    store, so the whole of a request is an errand whose result is the
    response. A request with the method HEAD gets what GET would get,
    without the body.
-/

namespace BusWindow.Http

/-- A request that has come in. -/
structure Request where
  method : String
  target : Target
  headers : Headers
  body : Bytes
  deriving Repr, Inhabited

/-- Where a path leads. -/
inductive Endpoint where
  | page
  | health
  | query
  | dump
  | control (command : Bytes)
  | publish (routingKey : Bytes)
  deriving DecidableEq, Repr

/-- What can be asked for under a path that carries a command. -/
inductive Command where
  | clear
  deriving DecidableEq, Repr

/-- The command of a name. -/
def Command.ofName? (name : String) : Option Command :=
  if name = "clear" then some .clear else none

namespace Endpoint

/-- A parameter: one segment that is not empty. -/
def parameter? (segment : Bytes) : Option Bytes :=
  if segment.isEmpty || segment.contains 0x2F then none else some segment

/-- The bytes of a path, and what is left of it. -/
def behind? : Bytes → Bytes → Option Bytes
  | [], path => some path
  | _ :: _, [] => none
  | a :: stem, b :: path => if a = b then behind? stem path else none

/-- The endpoint of a path. -/
def ofPath? (path : Bytes) : Option Endpoint :=
  if path = Utf8.ofString "/" then some .page
  else if path = Utf8.ofString "/health" then some .health
  else if path = Utf8.ofString "/api/query" then some .query
  else if path = Utf8.ofString "/api/dump" then some .dump
  else
    match behind? (Utf8.ofString "/api/control/") path with
    | some segment => (parameter? segment).map .control
    | none =>
      match behind? (Utf8.ofString "/api/publish/") path with
      | some segment => (parameter? segment).map .publish
      | none => none

/-- Whether an endpoint only reads. -/
def isReading : Endpoint → Bool
  | .control _ => false
  | .publish _ => false
  | _ => true

/-- The methods of an endpoint, as a client is told of them. -/
def methods (e : Endpoint) : String := if e.isReading then "GET,HEAD" else "POST"

/-- Whether a method is for an endpoint. -/
def takes (e : Endpoint) (method : String) : Bool :=
  if e.isReading then method == "GET" || method == "HEAD" else method == "POST"

end Endpoint

/-- The query of a request, or nothing if it is given more than once. -/
def queryText? (target : Target) : Option String :=
  match (Percent.formPairs target.query).filter fun p => p.1 == "q" with
  | [] => some ""
  | [p] => some p.2
  | _ => none

/-- Refuses a query that is too short; none at all and `*` never are. -/
def checkLength (minLength : Nat) (raw : String) : Except Failure Unit :=
  if raw = "" ∨ raw = "*" ∨ minLength ≤ raw.toList.length then .ok ()
  else
    .error (.badRequest
      ("query must be at least " ++ toString minLength ++ " characters (or \"*\")"))

/-- Asks a query, unless it is too short. -/
def askQuery (minLength : Nat) (raw : String) : Errand (Except Failure Reply) :=
  match checkLength minLength raw with
  | .error e => .done (.error e)
  | .ok _ => (Errand.query raw).map (·.mapError Failure.ofStore)

/-- The page with a reply. -/
def replyPage (settings : IngestSettings) (created : Timestamp) (raw : String)
    (notice : Option String) (reply : Reply) : Page where
  created := created
  query := raw
  notice := notice
  totalReceived := reply.totalReceived
  frequencies := reply.frequencies
  messages := reply.messages
  classHeader := settings.classHeader
  indentBodies := settings.indentJson

/-- The reply that a page shows when there is none. -/
def noReply : Reply := ⟨[], 0, 0, 0⟩

/-- The response with the page; a failure becomes its notice. -/
def pageResponse (settings : IngestSettings) (created : Timestamp) (raw : String) :
    Except Failure Reply → Response
  | .ok reply => .html 200 (replyPage settings created raw none reply).render
  | .error e =>
    .html e.status (replyPage settings created raw (some e.message) noReply).render

/-- A response that may be a failure. -/
def orFailure : Except Failure Response → Response
  | .ok r => r
  | .error e => e.response

/-- The answer that a reply is shown as to a program. -/
def answerOf (reply : Reply) : QueryAnswer :=
  ⟨reply.messages.map .ofMessage, reply.frequencies, reply.totalReceived, reply.buffered⟩

/-- The response with the answer to a query. -/
def answerResponse (reply : Reply) : Response := .json 200 (answerOf reply).form.compactBytes

/-- Byte lists with a separator between them. -/
def separated (separator : UInt8) : List Bytes → Bytes
  | [] => []
  | [s] => s
  | s :: rest => s ++ separator :: separated separator rest

/-- The bodies of messages as one array. -/
def dumpText (messages : List Message) : Bytes :=
  0x5B :: separated 0x2C (messages.map Message.body) ++ [0x5D]

/-- The version of the program. -/
def version : String := "0.1.0"

/-- The response with the counters. -/
def healthResponse (reply : Reply) : Response :=
  .json 200 (Json.Value.object
    [("buffered", .ofNat reply.buffered), ("capacity", .ofNat reply.capacity),
      ("status", .string "ok"), ("total_received", .ofInt reply.totalReceived),
      ("version", .string version)]).compactBytes

/-- Makes a demand of the store and a response of the answer. -/
def demanding (demand : Demand) (respond : Reply → Response) : Errand Response :=
  .ask demand fun
    | .ok reply => respond reply
    | .error e => (Failure.ofStore e).response

/-- The response to a parameter that is no text. -/
def badParameter (name : String) : Response :=
  .plain 400 ("Invalid URL: Invalid UTF-8 in `" ++ name ++ "`")

/-- The response to a query that is given more than once. -/
def repeatedQuery : Response :=
  .plain 400 "Failed to deserialize query string: duplicate field `q`"

/-- The longest body that is taken. -/
def greatestBody : Nat := 2 * 1024 * 1024

/-- The response to a body that is too long. -/
def bodyTooLong : Response :=
  .plain 413 "Failed to buffer the request body: length limit exceeded"

/-- Publishes a delivery. The client is not told whether it was kept. -/
def takeIn (settings : IngestSettings) (d : Delivery) : Errand Response :=
  (Errand.accept settings.ignoreKeys d).map fun _ => .empty 202

/-- What an endpoint does for a request. -/
def Endpoint.respond (settings : Settings) (created : Timestamp) (request : Request) :
    Endpoint → Errand Response
  | .page =>
    match queryText? request.target with
    | none => .done repeatedQuery
    | some raw =>
      (askQuery settings.query.minLength raw).map (pageResponse settings.ingest created raw)
  | .health => demanding .stats healthResponse
  | .query =>
    match queryText? request.target with
    | none => .done repeatedQuery
    | some raw =>
      (askQuery settings.query.minLength raw).map fun r => orFailure (r.map answerResponse)
  | .dump => demanding .dump fun reply => .json 200 (dumpText reply.messages)
  | .control command =>
    match Utf8.decode? (Percent.decode command) with
    | none => .done (badParameter "command")
    | some name =>
      match Command.ofName? name with
      | some .clear => demanding .clear fun _ => .empty 204
      | none => .done (.empty 202)
  | .publish routingKey =>
    match Utf8.decode? (Percent.decode routingKey) with
    | none => .done (badParameter "routing_key")
    | some key =>
      if greatestBody < request.body.length then .done bodyTooLong
      else takeIn settings.ingest (delivery key request.headers request.body)

/-- The response without its body. -/
def Response.withoutBody (r : Response) : Response := { r with body := [] }

/-- What is done for a request. -/
def respond (settings : Settings) (created : Timestamp) (request : Request) :
    Errand Response :=
  match Endpoint.ofPath? request.target.path with
  | none => .done (.empty 404)
  | some endpoint =>
    if endpoint.takes request.method then
      let errand := endpoint.respond settings created request
      if request.method = "HEAD" then errand.map Response.withoutBody else errand
    else .done { Response.empty 405 with allow := some endpoint.methods }

end BusWindow.Http
