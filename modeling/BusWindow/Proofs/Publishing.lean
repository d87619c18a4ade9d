import BusWindow.Proofs.Canonical
import BusWindow.Proofs.Shown
import BusWindow.Proofs.Tallies

/-!
# Publishing — what a publisher says of a message, and where a reader sees it

    A publisher says who it is and what belongs to a message in the headers
    of its request. Their names count without regard to case, and a value
    counts only if it is text. The first value names the sender, even if it
    is no text; of the values for a header of the message the last one that
    is text is kept. What is kept is found again on the page, under the name
    that is chosen for the class, whatever the case of that name.

    * `headerText?_eq_some_iff` says which values are text;
    * `mem_messageHeaders_iff` finds the last text for every name, and
      `senderOf_sender` the first value for the sender;
    * `classOf_eq` is the class of a message, which `shownClasses_render`
      reads back from the page;
    * `published_headers_reach_the_page` is the whole statement.
-/

namespace BusWindow

/-! ## Case -/

namespace Text

theorem toNat_ofNat : ∀ n < 0x80, (Char.ofNat n).toNat = n := by
  decide

/-- Lower case stays as it is. -/
theorem asciiLower_asciiLower (c : Char) : asciiLower (asciiLower c) = asciiLower c := by
  by_cases hupper : 'A' ≤ c ∧ c ≤ 'Z'
  · have hlow : 65 ≤ c.toNat := hupper.1
    have hhigh : c.toNat ≤ 90 := hupper.2
    have hvalue : (Char.ofNat (c.toNat + 32)).toNat = c.toNat + 32 := toNat_ofNat _ (by omega)
    have hlower : ¬ ('A' ≤ Char.ofNat (c.toNat + 32) ∧ Char.ofNat (c.toNat + 32) ≤ 'Z') := by
      rintro ⟨-, hle⟩
      have hle : (Char.ofNat (c.toNat + 32)).toNat ≤ 90 := hle
      omega
    rw [asciiLower, asciiLower, if_pos hupper, if_neg hlower]
  · rw [asciiLower, asciiLower, if_neg hupper, if_neg hupper]

theorem toList_lowered (text : String) : (lowered text).toList = text.toList.map asciiLower :=
  String.toList_ofList

/-- The end of a lowered text is lowered. -/
theorem lowered_of_lowered_eq_append {text front back : String} (h : lowered text = front ++ back) :
    lowered back = back := by
  have hchars : text.toList.map asciiLower = front.toList ++ back.toList := by
    rw [← toList_lowered, h, String.toList_append]
  have hfixed : ∀ c ∈ back.toList, asciiLower c = c := by
    intro c hc
    have hmem : c ∈ text.toList.map asciiLower := hchars ▸ List.mem_append_right _ hc
    obtain ⟨d, -, rfl⟩ := List.mem_map.mp hmem
    exact asciiLower_asciiLower d
  rw [lowered, List.map_congr_left hfixed, List.map_id', String.ofList_toList]

end Text

/-! ## The last pair with a key -/

namespace SortedMap

variable {α β : Type}

theorem ofList_concat (pairs : List (String × α)) (p : String × α) :
    ofList (pairs ++ [p]) = insert p.1 p.2 (ofList pairs) := by
  rw [ofList, List.foldl_append]
  rfl

/-- A map of headers is in ascending order. -/
theorem sorted_ofList (pairs : List (String × α)) : Sorted (ofList pairs) := by
  induction pairs using List.reverseRecOn with
  | nil => exact List.Pairwise.nil
  | append_singleton pairs p ih =>
      rw [ofList_concat]
      exact ih.insert _ _

/-- Under a key stands the first value that is found from the end on. -/
theorem get?_ofList (pairs : List (String × α)) (key : String) :
    get? key (ofList pairs) = (pairs.reverse.find? fun p => p.1 == key).map Prod.snd := by
  induction pairs using List.reverseRecOn with
  | nil => rfl
  | append_singleton pairs p ih =>
      rw [ofList_concat, get?_insert, ih, List.reverse_concat, List.find?_cons]
      by_cases h : p.1 = key
      · rw [if_pos h, beq_iff_eq.mpr h]
        rfl
      · rw [if_neg h, beq_eq_false_iff_ne.mpr h]

/-- In the map of the pairs that some things give, a pair is there if the last
    thing to give its key gives it. -/
theorem mem_ofList_filterMap_iff {f : β → Option (String × α)} {things : List β} {key : String}
    {value : α} :
    (key, value) ∈ ofList (things.filterMap f)
      ↔ ∃ before thing after, things = before ++ thing :: after ∧ f thing = some (key, value)
          ∧ ∀ later ∈ after, ∀ other, f later ≠ some (key, other) := by
  have hgives (thing : β) :
      (f thing).any (fun p => p.1 == key) = true ↔ ∃ other, f thing = some (key, other) := by
    rw [Option.any_eq_true]
    constructor
    · rintro ⟨⟨k, w⟩, hthing, hkey⟩
      exact ⟨w, beq_iff_eq.mp hkey ▸ hthing⟩
    · rintro ⟨other, hthing⟩
      exact ⟨_, hthing, beq_self_eq_true key⟩
  rw [← (sorted_ofList _).get?_eq_some_iff, get?_ofList, ← List.filterMap_reverse,
    List.find?_filterMap, Option.map_eq_some_iff]
  constructor
  · rintro ⟨p, hfound, rfl⟩
    obtain ⟨thing, hfind, hthing⟩ := Option.bind_eq_some_iff.mp hfound
    obtain ⟨hgiven, after, before, hsplit, hlater⟩ := List.find?_eq_some_iff_append.mp hfind
    obtain ⟨other, hother⟩ := (hgives thing).mp hgiven
    obtain rfl := Option.some.inj (hother.symm.trans hthing)
    rw [List.reverse_eq_append_iff, List.reverse_cons, List.append_assoc] at hsplit
    refine ⟨before.reverse, thing, after.reverse, hsplit, hthing, ?_⟩
    intro later hmem w hw
    have hnot := hlater later (List.mem_reverse.mp hmem)
    rw [(hgives later).mpr ⟨w, hw⟩] at hnot
    exact Bool.noConfusion hnot
  · rintro ⟨before, thing, after, rfl, hthing, hlast⟩
    refine ⟨(key, value), Option.bind_eq_some_iff.mpr ⟨thing, ?_, hthing⟩, rfl⟩
    refine List.find?_eq_some_iff_append.mpr
      ⟨(hgives thing).mpr ⟨value, hthing⟩, after.reverse, before.reverse, ?_, ?_⟩
    · rw [List.reverse_append, List.reverse_cons, List.append_assoc]
      rfl
    · intro later hmem
      rw [Bool.not_eq_true', Bool.eq_false_iff, ne_eq, hgives]
      rintro ⟨other, hother⟩
      exact hlast later (List.mem_reverse.mp hmem) other hother

end SortedMap

namespace Http

/-! ## Values that are text -/

/-- The text of a value: every byte is a printable ASCII character or a tab,
    and the text is written with these bytes. -/
structure Textual (value : Bytes) (text : String) : Prop where
  printable : ∀ b ∈ value, 0x20 ≤ b ∧ b ≤ 0x7E ∨ b = 0x09
  bytes : Utf8.ofString text = value

/-- Visible characters, blanks and tabs are text. -/
theorem isTextByte_iff {b : UInt8} : isTextByte b = true ↔ 0x20 ≤ b ∧ b ≤ 0x7E ∨ b = 0x09 := by
  simp [isTextByte]

/-- Such bytes are characters of one byte each. -/
theorem encode_ofNat_of_isTextByte {value : Bytes} (h : ∀ b ∈ value, isTextByte b = true) :
    Utf8.encode (value.map fun b => Char.ofNat b.toNat) = value := by
  induction value with
  | nil => rfl
  | cons b value ih =>
      obtain ⟨hb, hvalue⟩ := List.forall_mem_cons.mp h
      have hascii : b.toNat < 0x80 := by
        rcases isTextByte_iff.mp hb with ⟨-, hle⟩ | rfl
        · exact Nat.lt_of_le_of_lt (UInt8.le_iff_toNat_le.mp hle) (by decide)
        · decide
      have hchar : (Char.ofNat b.toNat).toNat = b.toNat := Text.toNat_ofNat _ hascii
      obtain ⟨b', hcode, hb'⟩ := Json.encodeChar_toNat (hchar ▸ hascii)
      obtain rfl : b' = b := UInt8.toNat_inj.mp (hb'.trans hchar)
      rw [List.map_cons, Utf8.encode_cons, hcode, ih hvalue]
      rfl

/-- A value is read as a text if it is one. -/
theorem headerText?_eq_some_iff {value : Bytes} {text : String} :
    headerText? value = some text ↔ Textual value text := by
  rw [headerText?]
  constructor
  · intro h
    split at h
    · next hall =>
      have hbytes := List.all_eq_true.mp hall
      obtain rfl := Option.some.inj h
      refine ⟨fun b hb => isTextByte_iff.mp (hbytes b hb), ?_⟩
      rw [Utf8.ofString_ofList, encode_ofNat_of_isTextByte hbytes]
    · exact nomatch h
  · rintro ⟨hprintable, rfl⟩
    have hbytes : ∀ b ∈ Utf8.ofString text, isTextByte b = true :=
      fun b hb => isTextByte_iff.mpr (hprintable b hb)
    rw [if_pos (List.all_eq_true.mpr hbytes), Option.some_inj,
      ← Utf8.lossy_ofString (String.ofList _), Utf8.ofString_ofList,
      encode_ofNat_of_isTextByte hbytes, Utf8.lossy_ofString]

/-- Otherwise it is skipped. -/
theorem headerText?_eq_none_iff {value : Bytes} :
    headerText? value = none ↔ ∀ text, ¬ Textual value text := by
  rw [Option.eq_none_iff_forall_ne_some]
  exact forall_congr' fun text => not_congr headerText?_eq_some_iff

/-! ## The headers of the message -/

/-- The last text that a publisher gives under a name. -/
def LastText (headers : Headers) (name text : String) : Prop :=
  ∃ (before : Headers) (spelling : String) (value : Bytes) (after : Headers),
    headers = before ++ (spelling, value) :: after
      ∧ Text.lowered spelling = name ∧ Textual value text
      ∧ ∀ h ∈ after, Text.lowered h.1 = name → ∀ other, ¬ Textual h.2 other

/-- A name has a last text if it has any. -/
theorem exists_lastText_iff {headers : Headers} {name : String} :
    (∃ text, LastText headers name text)
      ↔ ∃ h ∈ headers, Text.lowered h.1 = name ∧ ∃ text, Textual h.2 text := by
  constructor
  · rintro ⟨text, before, spelling, value, after, rfl, hname, htext, -⟩
    exact ⟨_, List.mem_append_right _ List.mem_cons_self, hname, text, htext⟩
  · rintro ⟨h, hmem, hname, htext⟩
    induction headers using List.reverseRecOn with
    | nil => exact nomatch hmem
    | append_singleton headers last ih =>
        by_cases hlast : Text.lowered last.1 = name ∧ ∃ text, Textual last.2 text
        · obtain ⟨hspelling, text, htextual⟩ := hlast
          exact ⟨text, headers, last.1, last.2, [], rfl, hspelling, htextual, nofun⟩
        · -- then the one that is there stands further in front
          rcases List.mem_append.mp hmem with hfront | hend
          · obtain ⟨text, before, spelling, value, after, rfl, hspelling, htextual, hlater⟩ :=
              ih hfront
            refine ⟨text, before, spelling, value, after ++ [last], ?_, hspelling, htextual, ?_⟩
            · rw [List.append_assoc, List.cons_append]
            · intro later hmem hlowered other hother
              rcases List.mem_append.mp hmem with hafter | hend
              · exact hlater later hafter hlowered other hother
              · obtain rfl := List.mem_singleton.mp hend
                exact hlast ⟨hlowered, other, hother⟩
          · obtain rfl := List.mem_singleton.mp hend
            exact absurd ⟨hname, htext⟩ hlast

/-- The header of the request under which a header of the message is given. -/
def messageHeaderName (name : String) : String := "x-mqwatch-header-" ++ name

/-- The name of a message header stands behind its stem. -/
theorem behind?_messageHeaderStem {text name : String} :
    behind? messageHeaderStem text.toList = some name.toList ↔ text = messageHeaderName name := by
  have hname : (messageHeaderName name).toList = messageHeaderStem ++ name.toList :=
    String.toList_append
  rw [behind?_eq_some_iff, ← hname, String.toList_inj]

/-- Which request headers become message headers. -/
theorem messageHeader?_eq_some_iff {h : String × Bytes} {name : String} {v : Json.Value} :
    messageHeader? h = some (name, v)
      ↔ Text.lowered h.1 = messageHeaderName name
        ∧ ∃ text, v = .string text ∧ Textual h.2 text := by
  rw [messageHeader?]
  constructor
  · intro heq
    split at heq
    · next rest text hrest htext =>
      obtain ⟨rfl, rfl⟩ := Prod.mk.inj (Option.some.inj heq)
      rw [← String.toList_ofList (l := rest)] at hrest
      exact ⟨behind?_messageHeaderStem.mp hrest, text, rfl, headerText?_eq_some_iff.mp htext⟩
    · exact nomatch heq
  · rintro ⟨hlowered, text, rfl, htext⟩
    rw [behind?_messageHeaderStem.mpr hlowered, headerText?_eq_some_iff.mpr htext]
    simp only [String.ofList_toList]

/-- A header of the message has the last text that was given for it. -/
theorem mem_messageHeaders_iff {headers : Headers} {name : String} {v : Json.Value} :
    (name, v) ∈ messageHeaders headers
      ↔ ∃ text, v = .string text ∧ LastText headers (messageHeaderName name) text := by
  rw [messageHeaders, SortedMap.mem_ofList_filterMap_iff]
  constructor
  · rintro ⟨before, ⟨spelling, value⟩, after, hsplit, hheader, hlast⟩
    obtain ⟨hlowered, text, rfl, htext⟩ := messageHeader?_eq_some_iff.mp hheader
    refine ⟨text, rfl, before, spelling, value, after, hsplit, hlowered, htext, ?_⟩
    intro h hh hname other htextual
    exact hlast h hh _ (messageHeader?_eq_some_iff.mpr ⟨hname, other, rfl, htextual⟩)
  · rintro ⟨text, rfl, before, spelling, value, after, hsplit, hlowered, htext, hlast⟩
    refine ⟨before, _, after, hsplit,
      messageHeader?_eq_some_iff.mpr ⟨hlowered, text, rfl, htext⟩, ?_⟩
    intro h hh w hw
    obtain ⟨hname, other, -, htextual⟩ := messageHeader?_eq_some_iff.mp hw
    exact hlast h hh hname other htextual

/-! ## The sender -/

/-- The sender that the headers name: the text of the first value, if it is
    one. -/
inductive SenderOf (headers : Headers) : String → Prop where
  | named {before after : Headers} {spelling text : String} {value : Bytes}
      (split : headers = before ++ (spelling, value) :: after)
      (first : ∀ h ∈ before, Text.lowered h.1 ≠ senderName)
      (name : Text.lowered spelling = senderName) (textual : Textual value text) :
      SenderOf headers text
  | illegible {before after : Headers} {spelling : String} {value : Bytes}
      (split : headers = before ++ (spelling, value) :: after)
      (first : ∀ h ∈ before, Text.lowered h.1 ≠ senderName)
      (name : Text.lowered spelling = senderName) (textual : ∀ text, ¬ Textual value text) :
      SenderOf headers ""
  | unnamed (none : ∀ h ∈ headers, Text.lowered h.1 ≠ senderName) : SenderOf headers ""

/-- The sender is found as it is said to be. -/
theorem senderOf_sender (headers : Headers) : SenderOf headers (sender headers) := by
  rw [sender, firstValue?]
  cases hfind : headers.find? fun h => Text.lowered h.1 == senderName with
  | none =>
      refine .unnamed fun h hh heq => ?_
      exact List.find?_eq_none.mp hfind h hh (beq_iff_eq.mpr heq)
  | some p =>
      obtain ⟨spelling, value⟩ := p
      obtain ⟨hname, before, after, hsplit, hfirst⟩ := List.find?_eq_some_iff_append.mp hfind
      have hfirst : ∀ h ∈ before, Text.lowered h.1 ≠ senderName := by
        intro h hh heq
        have hnot := hfirst h hh
        rw [beq_iff_eq.mpr heq] at hnot
        exact Bool.noConfusion hnot
      cases htext : headerText? value with
      | none =>
          simp only [Option.map_some, Option.bind_some, htext, Option.getD_none]
          exact .illegible hsplit hfirst (beq_iff_eq.mp hname) (headerText?_eq_none_iff.mp htext)
      | some text =>
          simp only [Option.map_some, Option.bind_some, htext, Option.getD_some]
          exact .named hsplit hfirst (beq_iff_eq.mp hname) (headerText?_eq_some_iff.mp htext)

end Http

/-! ## The class of a message -/

namespace Page

/-- The class is what stands under the lowered name, if all names are
    lowered. -/
theorem classOf_eq {m : Message} (sorted : SortedMap.Sorted m.headers)
    (lowered : ∀ h ∈ m.headers, Text.lowered h.1 = h.1) (classHeader : String) :
    classOf classHeader m = (m.headerText? (Text.lowered classHeader)).getD "" := by
  rw [classOf, Message.headerText?]
  cases hfind : m.headers.find? fun h => Text.lowered h.1 == Text.lowered classHeader with
  | none =>
      have hmissing : SortedMap.get? (Text.lowered classHeader) m.headers = none := by
        refine Option.eq_none_iff_forall_ne_some.mpr fun v hv => ?_
        have hmem := sorted.get?_eq_some_iff.mp hv
        exact List.find?_eq_none.mp hfind _ hmem (beq_iff_eq.mpr (lowered _ hmem))
      rw [hmissing]
      rfl
  | some h =>
      obtain ⟨name, v⟩ := h
      have hmem := List.mem_of_find?_eq_some hfind
      have hname : Text.lowered name = Text.lowered classHeader := by
        simpa using List.find?_some hfind
      rw [lowered _ hmem] at hname
      rw [← hname, sorted.get?_eq_some_iff.mpr hmem]
      rfl

end Page

namespace Http

/-- **WHAT IS SAID OF A MESSAGE IS SHOWN**: whatever the headers of a request
    are, each header of the message has the last text that was given under its
    name, and no value that is no text gets in its way. The names are those
    under which some text was given, in lower case. The sender is the first value for
    it, if that is text, and is empty otherwise. A record that is made of the
    request has them, and whatever the case of the name that is chosen for the
    class, a page shows for each of its messages one class: the text that is
    stored under the lowered name, escaped, or nothing if there is none. -/
theorem published_headers_reach_the_page (headers : Headers) :
    SortedMap.Sorted (messageHeaders headers)
      ∧ (∀ name v, (name, v) ∈ messageHeaders headers
          ↔ ∃ text, v = .string text ∧ LastText headers (messageHeaderName name) text)
      ∧ (∀ name, (∃ v, (name, v) ∈ messageHeaders headers)
          ↔ ∃ h ∈ headers, Text.lowered h.1 = messageHeaderName name ∧ ∃ text, Textual h.2 text)
      ∧ (∀ name v, (name, v) ∈ messageHeaders headers → Text.lowered name = name)
      ∧ SenderOf headers (sender headers)
      ∧ ∀ (ignored : List String) (routingKey : String) (body : Bytes) (r : Record),
          (delivery routingKey headers body).record ignored = .ok r →
          r.headers = messageHeaders headers ∧ r.sender = sender headers
            ∧ ∀ p : Page, (Page.shownClasses p.render).length = p.messages.length
              ∧ ∀ (i : Nat) (m : Message), p.messages[i]? = some m → m.record = r →
                (Page.shownClasses p.render)[i]?
                  = some (Html.escape ((m.headerText? (Text.lowered p.classHeader)).getD "")) := by
  have hsorted : SortedMap.Sorted (messageHeaders headers) := SortedMap.sorted_ofList _
  have hlowered (name : String) (v : Json.Value) (h : (name, v) ∈ messageHeaders headers) :
      Text.lowered name = name := by
    obtain ⟨text, -, before, spelling, value, after, -, hname, -⟩ := mem_messageHeaders_iff.mp h
    exact Text.lowered_of_lowered_eq_append hname
  have hnames (name : String) : (∃ v, (name, v) ∈ messageHeaders headers)
      ↔ ∃ h ∈ headers, Text.lowered h.1 = messageHeaderName name ∧ ∃ text, Textual h.2 text := by
    rw [← exists_lastText_iff]
    constructor
    · rintro ⟨v, hmem⟩
      obtain ⟨text, -, hlast⟩ := mem_messageHeaders_iff.mp hmem
      exact ⟨text, hlast⟩
    · rintro ⟨text, hlast⟩
      exact ⟨.string text, mem_messageHeaders_iff.mpr ⟨text, rfl, hlast⟩⟩
  refine ⟨hsorted, fun _ _ => mem_messageHeaders_iff, hnames, hlowered, senderOf_sender headers, ?_⟩
  intro ignored routingKey body r hrecord
  obtain ⟨-, v, -, rfl⟩ := Delivery.record_eq_ok_iff.mp hrecord
  refine ⟨rfl, rfl, ?_⟩
  intro p
  rw [Page.shownClasses_render]
  refine ⟨List.length_map _, ?_⟩
  intro i m hm hr
  have hheaders : m.headers = messageHeaders headers := congrArg Record.headers hr
  have hclass : Page.classOf p.classHeader m
      = (m.headerText? (Text.lowered p.classHeader)).getD "" := by
    refine Page.classOf_eq (hheaders ▸ hsorted) ?_ p.classHeader
    rintro ⟨name, v⟩ hmem
    exact hlowered name v (hheaders ▸ hmem)
  rw [List.getElem?_map, hm, Option.map_some, hclass]

/-- Headers whose names differ in case only, with a value that is no text. -/
def mixedHeaders : Headers :=
  [("x-mqwatch-header-kind", Utf8.ofString "one"), ("X-MQWatch-Sender", Utf8.ofString "probe"),
    ("X-MQWATCH-HEADER-Kind", Utf8.ofString "<two>"),
    ("x-mqwatch-sender", Utf8.ofString "other"), ("x-mqwatch-header-KIND", [0xE9])]

/-- What is published with them. -/
def mixedRecord : Record :=
  ⟨Utf8.ofString "[1]", "k", [("kind", .string "<two>")], "probe"⟩

/-- A page with this message and another one. -/
def mixedPage : Page where
  created := ⟨0, 0⟩
  query := ""
  notice := none
  totalReceived := 2
  frequencies := []
  messages := [⟨0, ⟨0, 0⟩, ⟨[], "k", [], ""⟩⟩, ⟨1, ⟨0, 0⟩, mixedRecord⟩]
  classHeader := "kInD"
  indentBodies := false

/-- A header given twice in different cases, one that is no text, and a sender. -/
theorem published_headers_reach_the_page_mixed :
    (delivery "k" mixedHeaders (Utf8.ofString "[ 1 ]")).record [] = .ok mixedRecord
      ∧ LastText mixedHeaders (messageHeaderName "kind") "<two>"
      ∧ SenderOf mixedHeaders "probe"
      ∧ (Page.shownClasses mixedPage.render)[1]? = some "&lt;two&gt;" := by
  have hheaders : messageHeaders mixedHeaders = [("kind", .string "<two>")] := by
    decide +kernel
  have hsender : sender mixedHeaders = "probe" := by decide +kernel
  have hparse : Json.parse (Utf8.ofString "[ 1 ]") = .ok (.array [.ofNat 1]) := by
    decide +kernel
  have hrecord : (delivery "k" mixedHeaders (Utf8.ofString "[ 1 ]")).record []
      = .ok mixedRecord := by
    refine Delivery.record_eq_ok_iff.mpr ⟨rfl, _, hparse, ?_⟩
    rw [delivery, hheaders, hsender]
    rfl
  obtain ⟨-, hlast, -, -, hfirst, hshown⟩ := published_headers_reach_the_page mixedHeaders
  have hmem : ("kind", .string "<two>") ∈ messageHeaders mixedHeaders := by
    rw [hheaders]
    exact List.mem_cons_self
  obtain ⟨text, heq, htext⟩ := (hlast "kind" (.string "<two>")).mp hmem
  obtain rfl := Json.Value.string.inj heq
  obtain ⟨-, -, hclasses⟩ := hshown [] "k" (Utf8.ofString "[ 1 ]") mixedRecord hrecord
  have hclass := (hclasses mixedPage).2 1 ⟨1, ⟨0, 0⟩, mixedRecord⟩ rfl rfl
  have hescaped : Html.escape (((⟨1, ⟨0, 0⟩, mixedRecord⟩ : Message).headerText?
      (Text.lowered mixedPage.classHeader)).getD "") = "&lt;two&gt;" := by
    decide +kernel
  rw [hsender] at hfirst
  rw [hescaped] at hclass
  exact ⟨hrecord, htext, hfirst, hclass⟩

end Http

end BusWindow
