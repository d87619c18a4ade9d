import BusWindow.Http.Header
import BusWindow.Proofs.Escaping

/-!
# What is shown — rows and classes, read back from a page

    A reader of a page finds the rows of the tally by their tags, and the
    class of a message in the one plain span of its block. Nothing else on a
    page looks like either of them, since no text that comes from outside
    can open a tag.

    * `items` reads both off a page, from left to right;
    * `Shows` is what a part of a page adds to them, and there is one lemma
      for each part, with `Shows.row` and `Shows.named` for the two places
      that add something;
    * `items_render` puts the parts together; `shownRows_render` and
      `shownClasses_render` are the rows and the classes.
-/

namespace BusWindow

/-- What is behind a stem is the rest of a text that begins with it. -/
theorem Http.behind?_eq_some_iff {stem text rest : List Char} :
    behind? stem text = some rest ↔ text = stem ++ rest := by
  induction stem generalizing text with
  | nil => simp [behind?]
  | cons a stem ih =>
      cases text with
      | nil => simp [behind?]
      | cons b text =>
          rw [behind?, List.cons_append, List.cons_eq_cons]
          by_cases hab : a = b
          · rw [if_pos hab, ih, hab]
            simp
          · rw [if_neg hab]
            constructor
            · exact nofun
            · rintro ⟨rfl, -⟩
              exact absurd rfl hab

namespace Page

open Html

/-! ## Reading a page -/

/-- What a reader takes from a page. -/
inductive Item where
  /-- A row with a key and a count, as they are written. -/
  | row (key count : String)
  /-- The text of a plain span, as it is written. -/
  | plain (text : String)
  deriving DecidableEq, Repr

/-- The text up to the next tag. -/
def textAhead (s : List Char) : String := String.ofList (s.takeWhile (· != '<'))

/-- What comes from the next tag on. -/
def fromTag (s : List Char) : List Char := s.dropWhile (· != '<')

/-- The row that begins behind a bracket, if one does. -/
def rowAhead? (s : List Char) : Option Item :=
  (Http.behind? "tr><td>".toList s).bind fun key =>
  (Http.behind? "</td><td>".toList (fromTag key)).bind fun count =>
  (Http.behind? "</td></tr>".toList (fromTag count)).map fun _ =>
    .row (textAhead key) (textAhead count)

/-- The plain span that begins behind a bracket, if one does. -/
def plainAhead? (s : List Char) : Option Item :=
  (Http.behind? "span>".toList s).map fun text => .plain (textAhead text)

/-- The rows and the plain spans of a page. -/
def items : List Char → List Item
  | [] => []
  | c :: rest =>
    if c = '<' then ((rowAhead? rest).or (plainAhead? rest)).toList ++ items rest
    else items rest

/-- The key and the count of a row, with the entities of the key read. -/
def Item.row? : Item → Option (String × String)
  | .row key count => some (unescape key, count)
  | .plain _ => none

/-- The text of a plain span. -/
def Item.plain? : Item → Option String
  | .row _ _ => none
  | .plain text => some text

/-- The rows that a reader of a page sees, in their order. -/
def shownRows (page : String) : List (String × String) := (items page.toList).filterMap Item.row?

/-- The classes that a reader of a page sees, in their order. -/
def shownClasses (page : String) : List String := (items page.toList).filterMap Item.plain?

/-! ## Texts without a tag -/

/-- A text without markup opens no tag. -/
theorem notMem_of_markup {text : String} (h : markup text = "") : '<' ∉ text.toList := by
  intro hmem
  have hnone : text.toList.filter isMark = [] := by
    rw [← String.toList_ofList (l := text.toList.filter isMark)]
    exact congrArg String.toList h
  exact List.filter_eq_nil_iff.mp hnone '<' hmem rfl

/-- Where no tag opens there is nothing to see. -/
theorem items_append {text : List Char} (h : '<' ∉ text) (rest : List Char) :
    items (text ++ rest) = items rest := by
  induction text with
  | nil => rfl
  | cons c text ih =>
      obtain ⟨hc, htext⟩ := not_or.mp (mt List.mem_cons.mpr h)
      rw [List.cons_append, items, if_neg (Ne.symm hc), ih htext]

/-- A text without a tag is read up to the tag behind it. -/
theorem textAhead_append {text : List Char} (h : '<' ∉ text) (rest : List Char) :
    textAhead (text ++ '<' :: rest) = String.ofList text := by
  have hplain : ∀ c ∈ text, (c != '<') = true := fun c hc =>
    bne_iff_ne.mpr fun heq => h (heq ▸ hc)
  rw [textAhead, List.takeWhile_append_of_pos hplain, List.takeWhile_cons_of_neg (by decide),
    List.append_nil]

/-- What comes behind a text without a tag is the tag behind it. -/
theorem fromTag_append {text : List Char} (h : '<' ∉ text) (rest : List Char) :
    fromTag (text ++ '<' :: rest) = '<' :: rest := by
  have hplain : ∀ c ∈ text, (c != '<') = true := fun c hc =>
    bne_iff_ne.mpr fun heq => h (heq ▸ hc)
  rw [fromTag, List.dropWhile_append_of_pos hplain, List.dropWhile_cons_of_neg (by decide)]

/-- A row is read as it is written. -/
theorem rowAhead?_row {key count : List Char} (hkey : '<' ∉ key) (hcount : '<' ∉ count)
    (rest : List Char) :
    rowAhead? ("tr><td>".toList ++ (key ++ ("</td><td>".toList
        ++ (count ++ ("</td></tr>".toList ++ rest)))))
      = some (.row (String.ofList key) (String.ofList count)) := by
  have hbetween : "</td><td>".toList = '<' :: "/td><td>".toList := rfl
  have hend : "</td></tr>".toList = '<' :: "/td></tr>".toList := rfl
  have hback : fromTag (key ++ ("</td><td>".toList ++ (count ++ ("</td></tr>".toList ++ rest))))
      = "</td><td>".toList ++ (count ++ ("</td></tr>".toList ++ rest)) := by
    rw [hbetween]
    exact fromTag_append hkey _
  have hback' : fromTag (count ++ ("</td></tr>".toList ++ rest)) = "</td></tr>".toList ++ rest := by
    rw [hend]
    exact fromTag_append hcount _
  have hfront : textAhead (key ++ ("</td><td>".toList ++ (count ++ ("</td></tr>".toList ++ rest))))
      = String.ofList key := by
    rw [hbetween]
    exact textAhead_append hkey _
  have hfront' : textAhead (count ++ ("</td></tr>".toList ++ rest)) = String.ofList count := by
    rw [hend]
    exact textAhead_append hcount _
  rw [rowAhead?, Http.behind?_eq_some_iff.mpr rfl, Option.bind_some, hback,
    Http.behind?_eq_some_iff.mpr rfl, Option.bind_some, hback', Http.behind?_eq_some_iff.mpr rfl,
    Option.map_some, hfront, hfront']

/-! ## What the parts of a page show -/

/-- A part of a page that shows items, whatever stands behind it. -/
def Shows (text : String) (shown : List Item) : Prop :=
  ∀ rest, items (text.toList ++ rest) = shown ++ items rest

namespace Shows

variable {a b x : String} {shown more : List Item}

/-- Two parts show what the one and then what the other shows. -/
theorem append (h : Shows a shown) (h' : Shows b more) : Shows (a ++ b) (shown ++ more) := by
  intro rest
  rw [String.toList_append, List.append_assoc, h, h', List.append_assoc]

/-- What shows nothing adds nothing to what stands before it. -/
theorem append_none (h : Shows a shown) (h' : Shows b []) : Shows (a ++ b) shown := by
  rw [← List.append_nil shown]
  exact h.append h'

/-- A text without markup shows nothing. -/
theorem of_markup (h : markup a = "") : Shows a [] :=
  fun rest => items_append (notMem_of_markup h) rest

/-- An escaped text shows nothing. -/
theorem escape (text : String) : Shows (Html.escape text) [] := .of_markup (markup_escape text)

/-- An integer shows nothing. -/
theorem integer (n : Int) : Shows (toString n) [] := .of_markup (markup_integer n)

/-- A time shows nothing. -/
theorem display (t : Timestamp) : Shows t.display [] := .of_markup (markup_display t)

/-- What is put into a text that goes on with nothing to show. -/
theorem put (h : Shows a shown) (hx : Shows x []) {rest : String} (hrest : Shows rest []) :
    Shows (a ++ x ++ rest) shown := (h.append_none hx).append_none hrest

/-- What stands in a text only if a test fails. -/
theorem ite (test : Bool) (h : Shows a []) (h' : Shows b []) :
    Shows (if test then a else b) [] := by
  cases test with
  | true => exact h
  | false => exact h'

/-- What stands in a text one after the other. -/
theorem join {α : Type} {f : α → String} {g : α → List Item} (h : ∀ y, Shows (f y) (g y))
    (l : List α) : Shows (String.join (l.map f)) (l.flatMap g) := by
  induction l with
  | nil => intro rest; rfl
  | cons y l ih =>
      rw [List.map_cons, String.join_cons, List.flatMap_cons]
      exact (h y).append ih

/-- The place of a class. -/
theorem named (h : Shows a []) (hx : markup x = "") :
    Shows (a ++ "</span> <span>" ++ x ++ "</span>\n") [.plain x] := by
  have hplain := notMem_of_markup hx
  intro rest
  simp only [String.toList_append, List.append_assoc]
  rw [h, List.nil_append]
  show Item.plain (textAhead (x.toList ++ '<' :: _)) :: items (x.toList ++ _) = _
  rw [textAhead_append hplain, items_append hplain, String.ofList_toList]
  rfl

/-- A row with a key and a count. -/
theorem row {key count : String} (hkey : markup key = "") (hcount : markup count = "") :
    Shows ("  <tr><td>" ++ key ++ "</td><td>" ++ count ++ "</td></tr>\n") [.row key count] := by
  have hplain := notMem_of_markup hkey
  have hplain' := notMem_of_markup hcount
  intro rest
  simp only [String.toList_append, List.append_assoc]
  have hopen : "  <tr><td>".toList = ' ' :: ' ' :: '<' :: "tr><td>".toList := rfl
  have hclose : "</td></tr>\n".toList = "</td></tr>".toList ++ ['\n'] := rfl
  have hread := rowAhead?_row hplain hplain' ('\n' :: rest)
  rw [String.ofList_toList, String.ofList_toList] at hread
  rw [hopen, hclose, List.append_assoc, List.cons_append, List.cons_append, List.cons_append,
    items, items, items, if_neg (by decide), if_neg (by decide), if_pos rfl, List.singleton_append,
    hread]
  show Item.row key count :: items (key.toList ++ _) = _
  rw [items_append hplain]
  show Item.row key count :: items (count.toList ++ _) = _
  rw [items_append hplain']
  rfl

end Shows

/-! ## The parts of a page

    Each part is gone through from left to right, as it is written. -/

variable (p : Page)

/-- The style sheet shows nothing. -/
theorem shows_style : Shows style [] := by
  unfold style
  iterate 6 refine Shows.append_none ?_ fun _ => rfl
  exact fun _ => rfl

/-- What comes before the body shows nothing. -/
theorem shows_head : Shows head [] := by
  have hfront : Shows ("<!doctype html>\n<html>\n<head>\n  <meta charset=\"UTF-8\">\n"
      ++ "  <title>mqwatch</title>\n  <style type=\"text/css\">\n") [] :=
    Shows.append_none (fun _ => rfl) fun _ => rfl
  exact hfront.put shows_style fun _ => rfl

/-- The line with the time shows nothing. -/
theorem shows_statusLine : Shows p.statusLine [] :=
  (Shows.put (fun _ => rfl) (.display _) fun _ => rfl).put (.integer _) fun _ => rfl

/-- The form shows nothing. -/
theorem shows_queryForm : Shows p.queryForm [] :=
  Shows.put (Shows.append_none (fun _ => rfl) fun _ => rfl) (.escape _) fun _ => rfl

/-- A notice shows nothing. -/
theorem shows_noticeLine (notice : Option String) : Shows (noticeLine notice) [] := by
  cases notice with
  | none => exact fun _ => rfl
  | some notice => exact Shows.put (fun _ => rfl) (.escape _) fun _ => rfl

/-- A row of the tally shows its key and its count. -/
theorem shows_tallyRow (row : String × Nat) :
    Shows (tallyRow row) [.row (escape row.1) (toString row.2)] :=
  .row (markup_escape row.1) (markup_natural row.2)

/-- The table shows its rows in their order, and shows none only if there is
    none. -/
theorem shows_tallyTable (tally : Tally) :
    Shows (tallyTable tally) (tally.map fun row => .row (escape row.1) (toString row.2)) := by
  rw [tallyTable]
  split
  · next hempty =>
    rw [List.isEmpty_iff.mp hempty]
    exact fun _ => rfl
  · have hrows := Shows.join shows_tallyRow tally
    rw [← List.map_eq_flatMap] at hrows
    have hfront : Shows ("  <h1>Frequencies</h1>\n  <table>\n"
        ++ "  <tr><th>Routing Key</th><th>Message Count</th></tr>\n") [] :=
      Shows.append_none (fun _ => rfl) fun _ => rfl
    exact (hfront.append hrows).append_none fun _ => rfl

/-- A sender shows nothing: its span has a class of its own. -/
theorem shows_senderLine (sender : String) : Shows (senderLine sender) [] :=
  .ite _ (fun _ => rfl) (Shows.put (fun _ => rfl) (.escape _) fun _ => rfl)

/-- Headers show nothing. -/
theorem shows_headersBlock (headers : Json.Members) : Shows (headersBlock headers) [] :=
  .ite _ (fun _ => rfl) (Shows.put (fun _ => rfl) (.escape _) fun _ => rfl)

/-- A message shows its class, once. -/
theorem shows_messageBlock (classHeader : String) (indent : Bool) (m : Message) :
    Shows (messageBlock classHeader indent m) [.plain (escape (classOf classHeader m))] := by
  have hreceived : Shows ("  <div class=\"message\">\n    <span class=\"received\">"
      ++ m.receivedAt.display ++ "</span> (#") [] :=
    Shows.put (fun _ => rfl) (.display m.receivedAt) fun _ => rfl
  have hnumbered : Shows ("  <div class=\"message\">\n    <span class=\"received\">"
      ++ m.receivedAt.display ++ "</span> (#" ++ toString m.seq
      ++ ") <span class=\"routingkey\">") [] :=
    hreceived.put (.integer m.seq) fun _ => rfl
  have hline := (hnumbered.append_none (.escape m.routingKey)).named
    (markup_escape (classOf classHeader m))
  have hblocks := (hline.append_none (shows_senderLine m.sender)).append_none
    (shows_headersBlock m.headers)
  exact (hblocks.append_none fun _ => rfl).put (.escape _) fun _ => rfl

/-- The messages show their classes in their order. -/
theorem shows_messagesBlock :
    Shows p.messagesBlock
      (p.messages.map fun m => .plain (escape (classOf p.classHeader m))) := by
  rw [messagesBlock]
  split
  · next hempty =>
    rw [List.isEmpty_iff.mp hempty]
    exact fun _ => rfl
  · have hblocks := Shows.join (shows_messageBlock p.classHeader p.indentBodies) p.messages
    rw [← List.map_eq_flatMap] at hblocks
    have hheading : Shows "  <h1>Messages</h1>\n" [] := fun _ => rfl
    exact hheading.append hblocks

/-- A page shows the rows of its tally and then the classes of its messages,
    and nothing else. -/
theorem items_render :
    items p.render.toList
      = (p.frequencies.map fun row => .row (escape row.1) (toString row.2))
        ++ p.messages.map fun m => .plain (escape (classOf p.classHeader m)) := by
  have hfront := ((shows_head.append_none (shows_statusLine p)).append_none
    (shows_queryForm p)).append_none (shows_noticeLine p.notice)
  have hpage := ((hfront.append (shows_tallyTable p.frequencies)).append
    (shows_messagesBlock p)).append_none (b := "</body>\n</html>\n") fun _ => rfl
  have hall := hpage []
  rwa [List.append_nil, items, List.append_nil] at hall

/-- A page shows the keys of its tally with their counts, in the order of the
    tally, and no other row. -/
theorem shownRows_render :
    shownRows p.render = p.frequencies.map fun row => (row.1, toString row.2) := by
  rw [shownRows, items_render, List.filterMap_append]
  simp [List.filterMap_map, Function.comp_def, Item.row?, unescape_escape]

/-- A page shows the class of every message in its order, and no other. -/
theorem shownClasses_render :
    shownClasses p.render = p.messages.map fun m => escape (classOf p.classHeader m) := by
  rw [shownClasses, items_render, List.filterMap_append]
  simp [List.filterMap_map, Function.comp_def, Item.plain?]

end Page

end BusWindow
