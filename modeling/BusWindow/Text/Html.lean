/-!
# Text inside a page — the five characters that carry markup

    `escape` writes a text so that it can stand in the content of an element
    or inside a quoted attribute: the five characters that could open, close
    or quote markup are written as entities. `unescape` reads the entities
    back.
-/

namespace BusWindow.Html

/-- The written form of one character. -/
def entity (c : Char) : List Char :=
  match c with
  | '&' => ['&', 'a', 'm', 'p', ';']
  | '<' => ['&', 'l', 't', ';']
  | '>' => ['&', 'g', 't', ';']
  | '"' => ['&', 'q', 'u', 'o', 't', ';']
  | '\'' => ['&', '#', '3', '9', ';']
  | c => [c]

/-- A text as it stands in a page. -/
def escape (text : String) : String := String.ofList (text.toList.flatMap entity)

/-- The characters of a page text with the five entities read back, from
    left to right. -/
def unescapeChars : List Char → List Char
  | '&' :: 'a' :: 'm' :: 'p' :: ';' :: rest => '&' :: unescapeChars rest
  | '&' :: 'l' :: 't' :: ';' :: rest => '<' :: unescapeChars rest
  | '&' :: 'g' :: 't' :: ';' :: rest => '>' :: unescapeChars rest
  | '&' :: 'q' :: 'u' :: 'o' :: 't' :: ';' :: rest => '"' :: unescapeChars rest
  | '&' :: '#' :: '3' :: '9' :: ';' :: rest => '\'' :: unescapeChars rest
  | c :: rest => c :: unescapeChars rest
  | [] => []

/-- A page text with the five entities replaced by their characters. -/
def unescape (text : String) : String := String.ofList (unescapeChars text.toList)

end BusWindow.Html
