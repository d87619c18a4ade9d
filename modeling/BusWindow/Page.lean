import BusWindow.Message.Form
import BusWindow.Text.Blank
import BusWindow.Text.Html

/-!
# The page — messages for the eyes of a reader

    The page shows when it was made, the query in a form to change it, a
    notice when the query was turned down, the tally of routing keys, and
    the messages. Every text that comes from outside is escaped where it is
    put in, so it can neither open nor close an element nor leave an
    attribute.
-/

namespace BusWindow

/-- What a page is made from. -/
structure Page where
  created : Timestamp
  query : String
  notice : Option String
  totalReceived : Int
  frequencies : Tally
  messages : List Message
  classHeader : String
  indentBodies : Bool
  deriving Repr, Inhabited

namespace Page

/-- The style sheet. -/
def style : String :=
  "body \x7b\n  font-family: Arial, sans-serif;\n  font-size: 10pt;\n\x7d\n" ++
  "tr \x7b\n  text-align: left;\n\x7d\n" ++
  ".notice \x7b\n  color: darkred;\n\x7d\n" ++
  ".message .content \x7b\n  background-color: lightyellow;\n" ++
  "  font-family: Courier New, monospace;\n\x7d\n" ++
  ".message .routingkey \x7b\n  font-family: Courier New, monospace;\n" ++
  "  background-color: lightblue;\n\x7d"

/-- A body as text. Indented, a JSON body shows its value on several lines;
    any other body, and every body that is not indented, is shown as it is. -/
def bodyText (indent : Bool) (body : Bytes) : String :=
  if indent then
    match Json.parse body with
    | .ok v => v.indented
    | .error _ => Utf8.lossy body
  else Utf8.lossy body

/-- The text of a header's value: a string without quotes, anything else as
    JSON. -/
def headerValueText : Json.Value → String
  | .string s => s
  | v => v.compact

/-- Headers as text, one to a line. -/
def headersText (headers : Json.Members) : String :=
  String.join (headers.map fun h => h.1 ++ ": " ++ headerValueText h.2 ++ "\n")

/-- The class of a message: the text of the first header with the name,
    whatever the case of its letters. -/
def classOf (classHeader : String) (m : Message) : String :=
  match m.headers.find? fun h => Text.lowered h.1 == Text.lowered classHeader with
  | some (_, v) => v.string?.getD ""
  | none => ""

/-- Everything up to the body of the page. -/
def head : String :=
  "<!doctype html>\n<html>\n<head>\n  <meta charset=\"UTF-8\">\n" ++
  "  <title>mqwatch</title>\n  <style type=\"text/css\">\n" ++ style ++
  "\n  </style>\n</head>\n<body>\n"

/-- When the page was made and how much has arrived. -/
def statusLine (p : Page) : String :=
  "  Timestamp: " ++ p.created.display ++ ", Total messages received: " ++
  toString p.totalReceived ++ "\n"

/-- The form with the query. -/
def queryForm (p : Page) : String :=
  "  <h1>Query</h1>\n  <form method=\"get\" action=\"/\">\n" ++
  "  <input type=\"text\" name=\"q\" size=\"80\" value=\"" ++ Html.escape p.query ++
  "\">\n  <input type=\"submit\" value=\"Query\">\n  </form>\n"

/-- The notice, if there is one. -/
def noticeLine : Option String → String
  | none => ""
  | some notice => "  <p class=\"notice\">" ++ Html.escape notice ++ "</p>\n"

/-- One row of the tally. -/
def tallyRow (row : String × Nat) : String :=
  "  <tr><td>" ++ Html.escape row.1 ++ "</td><td>" ++ toString row.2 ++ "</td></tr>\n"

/-- The tally, unless it is empty. -/
def tallyTable (tally : Tally) : String :=
  if tally.isEmpty then ""
  else
    "  <h1>Frequencies</h1>\n  <table>\n" ++
    "  <tr><th>Routing Key</th><th>Message Count</th></tr>\n" ++
    String.join (tally.map tallyRow) ++ "  </table>\n"

/-- The line with the sender, unless it is unknown. -/
def senderLine (sender : String) : String :=
  if sender.isEmpty then ""
  else "    <span class=\"sender\">from " ++ Html.escape sender ++ "</span>\n"

/-- The block with the headers, unless there are none. -/
def headersBlock (headers : Json.Members) : String :=
  if headers.isEmpty then ""
  else
    "    <div class=\"headers\"><pre>" ++ Html.escape (headersText headers) ++
    "</pre></div>\n"

/-- One message. -/
def messageBlock (classHeader : String) (indent : Bool) (m : Message) : String :=
  "  <div class=\"message\">\n    <span class=\"received\">" ++ m.receivedAt.display ++
  "</span> (#" ++ toString m.seq ++ ") <span class=\"routingkey\">" ++
  Html.escape m.routingKey ++ "</span> <span>" ++
  Html.escape (classOf classHeader m) ++ "</span>\n" ++
  senderLine m.sender ++ headersBlock m.headers ++
  "    <div class=\"content\"><pre>" ++ Html.escape (bodyText indent m.body) ++
  "</pre></div>\n  </div>\n"

/-- All messages, or the word that there are none. -/
def messagesBlock (p : Page) : String :=
  if p.messages.isEmpty then "  <p>No messages.</p>\n"
  else
    "  <h1>Messages</h1>\n" ++
    String.join (p.messages.map (messageBlock p.classHeader p.indentBodies))

/-- The page as text. -/
def render (p : Page) : String :=
  head ++ p.statusLine ++ p.queryForm ++ noticeLine p.notice ++
  tallyTable p.frequencies ++ p.messagesBlock ++ "</body>\n</html>\n"

end Page

end BusWindow
