import BusWindow.Page

/-!
# Markup — what can open, close or leave an element

    The tags and the quotes of a page are told by four characters. What is
    left of a page when every other character is deleted is its markup, and
    the markup depends on the shape of the page only: whether there is a
    notice, how many rows and messages there are, and which messages have a
    sender and headers.

    * `markup_escape` and `markup_display` say that what is put into a page
      has no markup;
    * there is one lemma for each part of a page, up to
      `markup_render_of_shape`.
-/

namespace BusWindow

namespace Html

/-- Whether a character can open or close a tag or an attribute. -/
def isMark (c : Char) : Bool := c == '<' || c == '>' || c == '"' || c == '\''

/-- A text without any character that is no mark. -/
def markup (text : String) : String := String.ofList (text.toList.filter isMark)

/-- The markup of two texts together is that of the one and then that of the
    other. -/
theorem markup_append (a b : String) : markup (a ++ b) = markup a ++ markup b := by
  simp [markup]

/-! ## Texts without markup -/

/-- A text that holds no mark. -/
def Unmarked (text : List Char) : Prop := ∀ c ∈ text, isMark c = false

/-- A text is without markup if a check of each character finds none. -/
theorem unmarked_of_all {text : List Char} (h : text.all (fun c => !isMark c) = true) :
    Unmarked text := by
  simpa [Unmarked] using h

/-- Two texts together are without markup if each of them is. -/
theorem unmarked_append {a b : List Char} : Unmarked (a ++ b) ↔ Unmarked a ∧ Unmarked b :=
  List.forall_mem_append

/-- A text is without markup if its first character and the rest are. -/
theorem unmarked_cons {c : Char} {text : List Char} :
    Unmarked (c :: text) ↔ isMark c = false ∧ Unmarked text :=
  List.forall_mem_cons

/-- Without markup there is nothing to keep. -/
theorem markup_ofList {text : List Char} (h : Unmarked text) :
    markup (String.ofList text) = "" := by
  have hnone : text.filter isMark = [] := by
    rw [List.filter_eq_nil_iff]
    intro c hc
    rw [h c hc]
    exact Bool.false_ne_true
  rw [markup, String.toList_ofList, hnone, String.ofList_nil]

/-- The four characters that make up markup. The ampersand is none of them. -/
theorem isMark_iff {c : Char} : isMark c = true ↔ c = '<' ∨ c = '>' ∨ c = '"' ∨ c = '\'' := by
  simp [isMark, or_assoc]

/-- What is written for a character holds no mark. -/
theorem unmarked_entity (c : Char) : Unmarked (entity c) := by
  unfold entity
  split
  · exact unmarked_of_all rfl
  · exact unmarked_of_all rfl
  · exact unmarked_of_all rfl
  · exact unmarked_of_all rfl
  · exact unmarked_of_all rfl
  · -- any other character is written as it is, and is none of the four
    next hamp hlt hgt hquot hapos =>
    intro d hd
    obtain rfl := List.mem_singleton.mp hd
    rw [Bool.eq_false_iff, ne_eq, isMark_iff]
    rintro (h | h | h | h)
    · exact hlt h
    · exact hgt h
    · exact hquot h
    · exact hapos h

/-- Escaping leaves no markup. -/
theorem markup_escape (text : String) : markup (escape text) = "" := by
  refine markup_ofList ?_
  intro d hd
  obtain ⟨c, -, hd⟩ := List.mem_flatMap.mp hd
  exact unmarked_entity c d hd

/-- Digits are no markup. -/
theorem isMark_of_isDigit {c : Char} (h : c.isDigit = true) : isMark c = false := by
  rw [Bool.eq_false_iff, ne_eq, isMark_iff]
  rintro (rfl | rfl | rfl | rfl)
  · exact nomatch h
  · exact nomatch h
  · exact nomatch h
  · exact nomatch h

/-- A written number holds digits only. -/
theorem unmarked_toDigits (n : Nat) : Unmarked (Nat.toDigits 10 n) :=
  fun _ hc => isMark_of_isDigit (Nat.isDigit_of_mem_toDigits (by decide) (by decide) hc)

/-- Counts are shown without markup. -/
theorem markup_natural (n : Nat) : markup (toString n) = "" := markup_ofList (unmarked_toDigits n)

/-- A minus sign is no markup either. -/
theorem markup_integer (n : Int) : markup (toString n) = "" := by
  cases n with
  | ofNat n => exact markup_natural n
  | negSucc m =>
      show markup ("-" ++ toString (m + 1)) = ""
      rw [markup_append, markup_natural]
      rfl

/-! ## Timestamps -/

/-- Zeros in front of a number are no markup. -/
theorem unmarked_padded (width n : Nat) : Unmarked (Timestamp.padded width n) := by
  rw [Timestamp.padded, unmarked_append]
  refine ⟨?_, unmarked_toDigits n⟩
  intro c hc
  rw [List.eq_of_mem_replicate hc]
  rfl

/-- Years are written without markup, their sign included. -/
theorem unmarked_yearText (year : Int) : Unmarked (Timestamp.yearText year) := by
  rw [Timestamp.yearText]
  split
  · exact unmarked_padded _ _
  · rw [unmarked_cons]
    refine ⟨?_, unmarked_padded _ _⟩
    split
    · rfl
    · rfl

/-- Timestamps are shown without markup. -/
theorem markup_display (time : Timestamp) : markup time.display = "" := by
  have hdate : Unmarked time.dateText := by
    simp only [Timestamp.dateText, unmarked_append, unmarked_cons]
    exact ⟨⟨unmarked_yearText _, rfl, unmarked_padded _ _⟩, rfl, unmarked_padded _ _⟩
  have hclock : Unmarked time.clockText := by
    simp only [Timestamp.clockText, unmarked_append, unmarked_cons]
    exact ⟨⟨unmarked_padded _ _, rfl, unmarked_padded _ _⟩, rfl, unmarked_padded _ _⟩
  refine markup_ofList ?_
  simp only [unmarked_append, unmarked_cons]
  exact ⟨⟨hdate, rfl, hclock⟩, rfl, unmarked_padded _ _⟩

/-! ## Texts with the same markup -/

/-- Two texts that do not differ in their markup. -/
def SameMarkup (a b : String) : Prop := markup a = markup b

namespace SameMarkup

variable {a b x y : String}

theorem refl (a : String) : SameMarkup a a := Eq.refl (markup a)

/-- Any two escaped texts have the same markup: none. Neither has any other text
    that is shown. -/
theorem escape (a b : String) : SameMarkup (Html.escape a) (Html.escape b) :=
  (markup_escape a).trans (markup_escape b).symm

theorem natural (m n : Nat) : SameMarkup (toString m) (toString n) :=
  (markup_natural m).trans (markup_natural n).symm

theorem integer (m n : Int) : SameMarkup (toString m) (toString n) :=
  (markup_integer m).trans (markup_integer n).symm

theorem display (t u : Timestamp) : SameMarkup t.display u.display :=
  (markup_display t).trans (markup_display u).symm

/-- Texts are put together part by part. -/
theorem append (h : SameMarkup a b) (hx : SameMarkup x y) : SameMarkup (a ++ x) (b ++ y) := by
  rw [SameMarkup, markup_append, markup_append, h, hx]

/-- What is put into a text that goes on. -/
theorem put (h : SameMarkup a b) (hx : SameMarkup x y) (rest : String) :
    SameMarkup (a ++ x ++ rest) (b ++ y ++ rest) := (h.append hx).append (.refl rest)

/-- What stands in a text only if a test fails. -/
theorem ite {test test' : Bool} (htest : test = test') (c : String) (h : SameMarkup a b) :
    SameMarkup (if test then c else a) (if test' then c else b) := by
  subst htest
  cases test with
  | true => exact .refl c
  | false => exact h

/-- Texts made of two lists, element by element, if the lists agree in the
    part of their elements that decides. -/
theorem join {α κ : Type} {part : α → κ} {f g : α → String}
    (h : ∀ a b, part a = part b → SameMarkup (f a) (g b)) {l l' : List α}
    (agree : l.map part = l'.map part) :
    SameMarkup (String.join (l.map f)) (String.join (l'.map g)) := by
  induction l generalizing l' with
  | nil =>
      obtain rfl := List.map_eq_nil_iff.mp agree.symm
      exact .refl _
  | cons a l ih =>
      obtain ⟨b, l', rfl, hb, hl⟩ := List.map_eq_cons_iff.mp agree.symm
      rw [List.map_cons, List.map_cons, String.join_cons, String.join_cons]
      exact (h a b hb.symm).append (ih hl.symm)

end SameMarkup

end Html

/-! ## The parts of a page -/

namespace Page

open Html

/-- What decides on the markup of a page. -/
structure Shape where
  hasNotice : Bool
  rows : Nat
  /-- For each message, whether its sender is unknown and whether it has no
      headers. -/
  messages : List (Bool × Bool)
  deriving DecidableEq, Repr

/-- Whether the sender of a message is unknown and whether it has no
    headers. -/
def messageShape (m : Message) : Bool × Bool := (m.sender.isEmpty, m.headers.isEmpty)

/-- The shape of a page. -/
def shape (p : Page) : Shape :=
  ⟨p.notice.isSome, p.frequencies.length, p.messages.map messageShape⟩

/-! Each part has the same markup on pages of one shape: the proof goes
    through the text of the part from left to right. -/

/-- The line about the store shows counts only. -/
theorem sameMarkup_statusLine (p p' : Page) : SameMarkup p.statusLine p'.statusLine :=
  ((SameMarkup.refl _).put (.display _ _) _).put (.integer _ _) _

/-- The form shows the query escaped. -/
theorem sameMarkup_queryForm (p p' : Page) : SameMarkup p.queryForm p'.queryForm :=
  (SameMarkup.refl _).put (.escape _ _) _

/-- A notice is shown escaped, so only whether there is one matters. -/
theorem sameMarkup_noticeLine {notice notice' : Option String}
    (h : notice.isSome = notice'.isSome) : SameMarkup (noticeLine notice) (noticeLine notice') := by
  cases notice with
  | none =>
      cases notice' with
      | none => exact .refl _
      | some _ => exact nomatch h
  | some _ =>
      cases notice' with
      | none => exact nomatch h
      | some _ => exact (SameMarkup.refl _).put (.escape _ _) _

/-- A row shows its key escaped, and a count. -/
theorem sameMarkup_tallyRow (row row' : String × Nat) :
    SameMarkup (tallyRow row) (tallyRow row') :=
  ((SameMarkup.refl _).put (.escape _ _) _).put (.natural _ _) _

/-- Only the number of its rows shapes the table. -/
theorem sameMarkup_tallyTable {tally tally' : Tally} (h : tally.length = tally'.length) :
    SameMarkup (tallyTable tally) (tallyTable tally') := by
  have hunits : tally.map (fun _ => ()) = tally'.map fun _ => () := by
    rw [List.map_const', List.map_const', h]
  have hempty : tally.isEmpty = tally'.isEmpty := by
    rw [← List.isEmpty_map, hunits, List.isEmpty_map]
  refine .ite hempty "" ?_
  exact (SameMarkup.refl _).put (.join (fun a b _ => sameMarkup_tallyRow a b) hunits) _

/-- Only whether there is a sender matters. -/
theorem sameMarkup_senderLine {sender sender' : String} (h : sender.isEmpty = sender'.isEmpty) :
    SameMarkup (senderLine sender) (senderLine sender') :=
  .ite h "" ((SameMarkup.refl _).put (.escape _ _) _)

/-- Only whether there are headers matters. -/
theorem sameMarkup_headersBlock {headers headers' : Json.Members}
    (h : headers.isEmpty = headers'.isEmpty) :
    SameMarkup (headersBlock headers) (headersBlock headers') :=
  .ite h "" ((SameMarkup.refl _).put (.escape _ _) _)

/-- Only the shape of a message shapes its block. Class header and layout may
    differ as well. -/
theorem sameMarkup_messageBlock (classHeader classHeader' : String) (indent indent' : Bool)
    {m m' : Message} (h : messageShape m = messageShape m') :
    SameMarkup (messageBlock classHeader indent m) (messageBlock classHeader' indent' m') := by
  obtain ⟨hsender, hheaders⟩ := Prod.mk.inj h
  -- the line with the routing key and the class, then the three blocks
  have hline := ((((SameMarkup.refl "  <div class=\"message\">\n    <span class=\"received\">").put
      (.display m.receivedAt m'.receivedAt) "</span> (#").put
      (.integer m.seq m'.seq) ") <span class=\"routingkey\">").put
      (.escape m.routingKey m'.routingKey) "</span> <span>").put
      (.escape (classOf classHeader m) (classOf classHeader' m')) "</span>\n"
  have hblocks := (hline.append (sameMarkup_senderLine hsender)).append
    (sameMarkup_headersBlock hheaders)
  exact (hblocks.append (.refl _)).put (.escape _ _) _

/-- Only the shapes of the messages, in their order, shape the list. -/
theorem sameMarkup_messagesBlock {p p' : Page}
    (h : p.messages.map messageShape = p'.messages.map messageShape) :
    SameMarkup p.messagesBlock p'.messagesBlock := by
  have hempty : p.messages.isEmpty = p'.messages.isEmpty := by
    rw [← List.isEmpty_map, h, List.isEmpty_map]
  refine .ite hempty _ ((SameMarkup.refl _).append (.join ?_ h))
  intro m m' hm
  exact sameMarkup_messageBlock _ _ _ _ hm

/-- **NO TEXT CHANGES THE MARKUP**: two pages of the same shape have the same
    markup, whatever stands in them. -/
theorem markup_render_of_shape {p p' : Page} (h : p.shape = p'.shape) :
    markup p.render = markup p'.render := by
  obtain ⟨hnotice, hrows, hmessages⟩ := Shape.mk.inj h
  -- the parts from the head of the page on, in their order
  have htop := ((SameMarkup.refl head).append (sameMarkup_statusLine p p')).append
    (sameMarkup_queryForm p p')
  have hnotes := htop.append (sameMarkup_noticeLine hnotice)
  have hblocks := (hnotes.append (sameMarkup_tallyTable hrows)).append
    (sameMarkup_messagesBlock hmessages)
  exact hblocks.append (.refl _)

/-- A page whose texts try to be markup. -/
def hostile : Page where
  created := ⟨0, 0⟩
  query := "\"><script>"
  notice := some "</p><b>"
  totalReceived := -1
  frequencies := [("<td>", 1)]
  messages :=
    [⟨0, ⟨0, 0⟩, Utf8.ofString "\"</pre><i>\"", "'<'",
      [("<h>", .string "'>"), ("c", .string "<u>")], "</span>"⟩]
  classHeader := "C"
  indentBodies := true

/-- A page of the same shape whose texts do not. -/
def harmless : Page where
  created := ⟨1600000000, 5⟩
  query := ""
  notice := some "n"
  totalReceived := 7
  frequencies := [("k", 20)]
  messages := [⟨6, ⟨1, 0⟩, [0xFF], "k", [("h", .null)], "s"⟩]
  classHeader := "h"
  indentBodies := false

/-- A page full of markup in every text it shows, and a page of the same shape
    without any. -/
theorem markup_render_of_shape_hostile :
    hostile.shape = harmless.shape ∧ markup hostile.render = markup harmless.render :=
  ⟨rfl, markup_render_of_shape rfl⟩

end Page

end BusWindow
