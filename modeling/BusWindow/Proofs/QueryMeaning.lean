import Mathlib.Data.List.Infix
import Mathlib.Data.List.TakeWhile
import BusWindow.Message.Matching

/-!
# The meaning of a query — from the raw text to the messages found

    What a query asks of a message is said here without any parser: the text
    is cut into groups, a group into tokens, and `Meets` reads the demands
    off the tokens of one group. The parser builds clauses instead, token by
    token, with a later key or bound in the place of an earlier one.

    * `Text.pieces_eq_splitOnP` and `groups_eq` say that the parser cuts the
      text in the same way;
    * `Clause.add_classify` says what one token adds to a clause, and
      `Clause.ofWords_eq` what a whole group makes of it, by induction;
    * `Clause.accepts_iff_meets` and `anyAccepts_clauses` carry this over to
      messages;
    * `parse_meaning` is the whole statement.
-/

namespace BusWindow

/-! ## Texts cut into pieces -/

namespace Text

theorem piecesFrom_eq_splitOnPPrepend (isSeparator : Char → Bool) (current text : List Char) :
    piecesFrom isSeparator current text = text.splitOnPPrepend isSeparator current := by
  induction text generalizing current with
  | nil => rfl
  | cons c rest ih =>
      rw [piecesFrom, List.splitOnPPrepend_cons_eq_if]
      by_cases h : isSeparator c = true
      · rw [if_pos h, if_pos h, ih, List.splitOnPPrepend_nil_right]
      · rw [if_neg h, if_neg h, ih]

/-- Cutting a text is what the library calls splitting it. -/
theorem pieces_eq_splitOnP (isSeparator : Char → Bool) (text : List Char) :
    pieces isSeparator text = text.splitOnP isSeparator :=
  piecesFrom_eq_splitOnPPrepend isSeparator [] text

end Text

namespace Query

/-- The groups of a query: its text cut at every line end and every comma. -/
def groupTexts (raw : String) : List (List Char) :=
  raw.toList.splitOnP fun c => c == '\n' || c == ','

/-- The tokens of a group: the longest runs of characters that are not
    blank. -/
def tokens (group : List Char) : List (List Char) :=
  (group.splitOnP Text.isBlank).filter fun run => !run.isEmpty

theorem words_eq_tokens (group : List Char) : Text.words group = tokens group := by
  rw [Text.words, Text.pieces_eq_splitOnP, tokens]

/-- A group has no token if and only if it is blank. -/
theorem tokens_eq_nil_iff (group : List Char) :
    tokens group = [] ↔ ∀ c ∈ group, Text.isBlank c = true := by
  rw [tokens]
  induction group with
  | nil => simp
  | cons c rest ih =>
      rw [List.splitOnP_cons_eq_if_modifyHead]
      by_cases h : Text.isBlank c = true
      · rw [if_pos h, List.filter_cons_of_neg (by simp), ih]
        simp [h]
      · rw [if_neg h]
        obtain ⟨run, runs, hruns⟩ := List.exists_cons_of_ne_nil
          (List.splitOnP_ne_nil Text.isBlank rest)
        rw [hruns]
        simp [h]

theorem groups_eq (raw : String) :
    groups raw.toList = ((groupTexts raw).map tokens).filter fun ts => !ts.isEmpty := by
  rw [groups, Text.pieces_eq_splitOnP]
  congr 2
  funext group
  exact words_eq_tokens group

/-! ## What the tokens of a group ask for -/

/-- The text behind `key:` in a token that begins so. -/
def keyText? (token : List Char) : Option (List Char) :=
  if ['k', 'e', 'y', ':'] <+: token then some (token.drop 4) else none

/-- The texts of the two bounds of a range token, which begins with `#` and
    is parted by its first hyphen. -/
def rangeTexts? : List Char → Option (List Char × List Char)
  | '#' :: text =>
    if '-' ∈ text then
      some (text.takeWhile (· != '-'), (text.dropWhile (· != '-')).tail)
    else none
  | _ => none

/-- The number that the text of a bound gives, if it gives one. -/
def boundValue? (digits : List Char) : Option Int :=
  if digits = [] then none else some (Nat.ofDigitChars 10 digits 0 : Nat)

/-- The lower bound that a token gives. -/
def lower? (token : List Char) : Option Int := (rangeTexts? token).bind fun r => boundValue? r.1

/-- The upper bound that a token gives. -/
def upper? (token : List Char) : Option Int := (rangeTexts? token).bind fun r => boundValue? r.2

/-- A message meets the tokens of a group: the plain ones all occur in its
    body without a gap, and the last key, the last lower and the last upper
    bound, each on its own, agree with it. -/
structure Meets (m : Message) (tokens : List (List Char)) : Prop where
  words : ∀ word ∈ tokens, keyText? word = none → rangeTexts? word = none →
    ∃ before after, m.body = before ++ Utf8.encode word ++ after
  key : ∀ text, (tokens.filterMap keyText?).getLast? = some text →
    m.routingKey = String.ofList text
  low : (tokens.filterMap lower?).getLast?.getD 0 ≤ m.seq
  high : m.seq ≤ (tokens.filterMap upper?).getLast?.getD 9223372036854775807

end Query

open Query

/-! ## What the parser makes of a token -/

namespace Token

theorem decimal_eq_ofDigitChars (digits : List Char) :
    decimal digits = Nat.ofDigitChars 10 digits 0 := by
  rw [decimal, Nat.ofDigitChars_eq_foldl]
  congr 1
  funext n c
  rw [Nat.mul_comm]
  rfl

theorem eq_boundValue?_of_bound {digits : List Char} {value : Option Int}
    (h : bound digits = some value) : value = boundValue? digits := by
  rw [bound] at h
  rw [boundValue?]
  split at h
  · next hempty =>
    rw [if_pos (List.isEmpty_iff.mp hempty)]
    exact (Option.some.inj h).symm
  · next hempty =>
    rw [if_neg (mt List.isEmpty_iff.mpr hempty), ← decimal_eq_ofDigitChars]
    split at h
    · exact (Option.some.inj h).symm
    · exact nomatch h

/-- The text of a word that is neither a key nor a range. -/
def plainText? (token : List Char) : Option String :=
  if keyText? token = none ∧ rangeTexts? token = none then some (String.ofList token) else none

/-- The text that has to occur in the body. -/
def word? : Token → Option String
  | .word text => some text
  | _ => none

/-- The routing key that is asked for. -/
def key? : Token → Option String
  | .key value => some value
  | _ => none

/-- The lower bound that is set. -/
def low? : Token → Option Int
  | .range low _ => low
  | _ => none

/-- The upper bound that is set. -/
def high? : Token → Option Int
  | .range _ high => high
  | _ => none

/-- The parser finds in a token what stands in its text. -/
structure Reads (token : List Char) (t : Token) : Prop where
  word : t.word? = plainText? token
  key : t.key? = (keyText? token).map String.ofList
  low : t.low? = lower? token
  high : t.high? = upper? token

theorem reads_key (value : List Char) :
    Reads ('k' :: 'e' :: 'y' :: ':' :: value) (.key (String.ofList value)) := by
  have hkey : keyText? ('k' :: 'e' :: 'y' :: ':' :: value) = some value := by
    simp [keyText?]
  refine ⟨?_, ?_, rfl, rfl⟩
  · simp [plainText?, hkey, word?]
  · rw [hkey]
    rfl

theorem reads_plain {token : List Char} (key : keyText? token = none)
    (range : rangeTexts? token = none) : Reads token (.word (String.ofList token)) := by
  refine ⟨?_, ?_, ?_, ?_⟩
  · simp [plainText?, key, range, word?]
  · rw [key]
    rfl
  · rw [lower?, range]
    rfl
  · rw [upper?, range]
    rfl

theorem reads_range {token low high : List Char} {from? to? : Option Int}
    (key : keyText? token = none) (range : rangeTexts? token = some (low, high))
    (hlow : bound low = some from?) (hhigh : bound high = some to?) :
    Reads token (.range from? to?) := by
  refine ⟨?_, ?_, ?_, ?_⟩
  · simp [plainText?, range, word?]
  · rw [key]
    rfl
  · rw [lower?, range]
    exact eq_boundValue?_of_bound hlow
  · rw [upper?, range]
    exact eq_boundValue?_of_bound hhigh

/-- A text is parted at its first hyphen. -/
theorem span_hyphen {low : List Char} (h : '-' ∉ low) (high : List Char) :
    (low ++ '-' :: high).span (· != '-') = (low, '-' :: high) := by
  have hlow : ∀ c ∈ low, (c != '-') = true := by
    intro c hc
    rw [bne_iff_ne]
    rintro rfl
    exact h hc
  rw [List.span_eq_takeWhile_dropWhile, List.takeWhile_append_of_pos hlow,
    List.dropWhile_append_of_pos hlow]
  simp

theorem rangeTexts?_hash (text : List Char) :
    rangeTexts? ('#' :: text)
      = match text.span (· != '-') with
        | (_, []) => none
        | (low, _ :: high) => some (low, high) := by
  rw [List.span_eq_takeWhile_dropWhile]
  simp only [rangeTexts?]
  by_cases h : '-' ∈ text
  · -- the part from the first hyphen on cannot be empty
    rw [if_pos h]
    cases hdrop : text.dropWhile (· != '-') with
    | nil =>
        have hall := List.dropWhile_eq_nil_iff.mp hdrop '-' h
        simp at hall
    | cons c high => rfl
  · rw [if_neg h]
    have hdrop : text.dropWhile (· != '-') = [] := by
      refine List.dropWhile_eq_nil_iff.mpr ?_
      intro c hc
      simpa using fun heq : c = '-' => h (heq ▸ hc)
    rw [hdrop]

/-- **What one token means**: where the parser gives a token a meaning, it
    is the one that stands in the text. -/
theorem reads_of_classify {token : List Char} {t : Token} (h : classify token = .ok t) :
    Reads token t := by
  unfold classify at h
  split at h
  · next value =>
    obtain rfl := Except.ok.inj h
    exact reads_key value
  · -- after `#` the hyphen decides between a range and a plain word
    next text =>
    have hkey : keyText? ('#' :: text) = none := by simp [keyText?]
    have hrange := rangeTexts?_hash text
    split at h
    · next hspan =>
      obtain rfl := Except.ok.inj h
      rw [hspan] at hrange
      exact reads_plain hkey hrange
    · next hspan =>
      rw [hspan] at hrange
      split at h
      · next hlow hhigh =>
        obtain rfl := Except.ok.inj h
        exact reads_range hkey hrange hlow hhigh
      · exact nomatch h
  · next hnotkey hnothash =>
    obtain rfl := Except.ok.inj h
    refine reads_plain ?_ ?_
    · refine if_neg ?_
      rintro ⟨value, rfl⟩
      exact hnotkey value rfl
    · unfold rangeTexts?
      split
      · next text => exact absurd rfl (hnothash text)
      · rfl

end Token

/-! ## What the parser makes of a group -/

namespace Clause

/-- What one token changes in a clause. -/
theorem add_eq (clause : Clause) (t : Token) :
    (clause.add t).words = clause.words ++ t.word?.toList
      ∧ (clause.add t).routingKey = (t.key?.map KeyFilter.exact).getD clause.routingKey
      ∧ (clause.add t).low = t.low?.getD clause.low
      ∧ (clause.add t).high = t.high?.getD clause.high := by
  cases t with
  | key value => exact ⟨(List.append_nil _).symm, rfl, rfl, rfl⟩
  | range low high => exact ⟨(List.append_nil _).symm, rfl, rfl, rfl⟩
  | word text => exact ⟨rfl, rfl, rfl, rfl⟩

/-- The last value that is given, where a first one may be and `a` stands for
    none. -/
private theorem getD_getLast?_cons {α β : Type} (f : α → Option β) (x : α) (xs : List α) (a : β) :
    (((x :: xs).filterMap f).getLast?).getD a
      = ((xs.filterMap f).getLast?).getD ((f x).getD a) := by
  cases h : f x with
  | none => rw [List.filterMap_cons_none h]; rfl
  | some b => rw [List.filterMap_cons_some h, List.getLast?_cons]; rfl

/-- The key that tokens ask for, as a constraint. -/
def keyOf (ts : List (List Char)) : Option KeyFilter :=
  (ts.filterMap fun t => (keyText? t).map fun text => KeyFilter.exact (String.ofList text)).getLast?

theorem keyOf_eq (ts : List (List Char)) :
    keyOf ts = (ts.filterMap keyText?).getLast?.map fun text => .exact (String.ofList text) := by
  rw [keyOf, ← List.map_filterMap, List.getLast?_map]

/-- What the tokens of a group make of a clause: all plain ones are added to
    its words, and the last key and the last bounds take the places of its
    own. -/
theorem ofWords_eq {ts : List (List Char)} {start clause : Clause}
    (h : start.ofWords ts = .ok clause) :
    clause.words = start.words ++ ts.filterMap Token.plainText?
      ∧ clause.routingKey = (keyOf ts).getD start.routingKey
      ∧ clause.low = ((ts.filterMap lower?).getLast?).getD start.low
      ∧ clause.high = ((ts.filterMap upper?).getLast?).getD start.high := by
  induction ts generalizing start with
  | nil =>
      obtain rfl := Except.ok.inj h
      exact ⟨(List.append_nil _).symm, rfl, rfl, rfl⟩
  | cons token rest ih =>
      rw [ofWords] at h
      split at h
      · -- the clause that the rest is added to is the one with this token
        next t hclassify =>
        obtain ⟨hword, hkey, hlow, hhigh⟩ := Token.reads_of_classify hclassify
        obtain ⟨hwords, hroutingKey, hclauseLow, hclauseHigh⟩ := ih h
        obtain ⟨haddWords, haddKey, haddLow, haddHigh⟩ := add_eq start t
        refine ⟨?_, ?_, ?_, ?_⟩
        · rw [hwords, haddWords, hword, List.append_assoc]
          congr 1
          cases hplain : Token.plainText? token with
          | none => rw [List.filterMap_cons_none hplain]; rfl
          | some text => rw [List.filterMap_cons_some hplain]; rfl
        · rw [hroutingKey, haddKey, hkey, keyOf, keyOf, getD_getLast?_cons, Option.map_map]
          rfl
        · rw [hclauseLow, haddLow, hlow, getD_getLast?_cons]
        · rw [hclauseHigh, haddHigh, hhigh, getD_getLast?_cons]
      · exact nomatch h

end Clause

/-! ## Which messages are found -/

/-- The search for a byte list finds every place where it stands. -/
theorem occursIn_iff (part text : Bytes) :
    occursIn part text = true ↔ ∃ before after, text = before ++ part ++ after := by
  have hpart : occursIn part text = true ↔ part <:+: text := by
    induction text with
    | nil =>
        show part.isEmpty = true ↔ _
        rw [List.isEmpty_iff, List.infix_nil]
    | cons b rest ih =>
        show (part.isPrefixOf (b :: rest) || occursIn part rest) = true ↔ _
        rw [Bool.or_eq_true, List.isPrefixOf_iff_prefix, ih, List.infix_cons_iff]
  rw [hpart]
  constructor
  · rintro ⟨before, after, h⟩
    exact ⟨before, after, h.symm⟩
  · rintro ⟨before, after, h⟩
    exact ⟨before, after, h.symm⟩

/-- All plain tokens are searched for, and no others. -/
theorem all_plainText?_iff (ts : List (List Char)) (body : Bytes) :
    (ts.filterMap Token.plainText?).all (fun word => occursIn (Utf8.ofString word) body) = true
      ↔ ∀ word ∈ ts, keyText? word = none → rangeTexts? word = none →
        ∃ before after, body = before ++ Utf8.encode word ++ after := by
  have hsearch (word : List Char) : occursIn (Utf8.ofString (String.ofList word)) body = true
      ↔ ∃ before after, body = before ++ Utf8.encode word ++ after := by
    rw [Utf8.ofString, String.toList_ofList]
    exact occursIn_iff _ _
  rw [List.all_eq_true]
  constructor
  · intro h word hword key range
    rw [← hsearch]
    refine h _ (List.mem_filterMap.mpr ⟨word, hword, ?_⟩)
    exact if_pos ⟨key, range⟩
  · intro h text htext
    obtain ⟨word, hword, hplain⟩ := List.mem_filterMap.mp htext
    rw [Token.plainText?] at hplain
    split at hplain
    · next hnone =>
      obtain rfl := Option.some.inj hplain
      exact (hsearch word).mpr (h word hword hnone.1 hnone.2)
    · exact nomatch hplain

/-- The routing key is tested against the last key that is given. -/
theorem accepts_keyOf_iff (ts : List (List Char)) (routingKey : String) :
    ((Clause.keyOf ts).getD .any).accepts routingKey = true
      ↔ ∀ text, (ts.filterMap keyText?).getLast? = some text →
        routingKey = String.ofList text := by
  rw [Clause.keyOf_eq]
  cases (ts.filterMap keyText?).getLast? with
  | none => exact ⟨fun _ _ hnone => (nomatch hnone), fun _ => rfl⟩
  | some text =>
      show (String.ofList text == routingKey) = true ↔ _
      rw [beq_iff_eq]
      constructor
      · rintro rfl text' hsome
        rw [Option.some.inj hsome]
      · intro h
        exact (h text rfl).symm

/-- The clause of a group accepts the messages that meet its tokens. -/
theorem Clause.accepts_iff_meets {ts : List (List Char)} {clause : Clause}
    (h : Clause.ofWords {} ts = .ok clause) (m : Message) :
    clause.accepts m = true ↔ Meets m ts := by
  obtain ⟨hwords, hkey, hlow, hhigh⟩ := Clause.ofWords_eq h
  rw [Clause.accepts, Bool.and_eq_true, Bool.and_eq_true, Bool.and_eq_true, decide_eq_true_iff,
    decide_eq_true_iff, hwords, List.nil_append, all_plainText?_iff, hkey, accepts_keyOf_iff,
    hlow, hhigh]
  constructor
  · rintro ⟨⟨⟨low, high⟩, words⟩, key⟩
    exact ⟨words, key, low, high⟩
  · rintro ⟨words, key, low, high⟩
    exact ⟨⟨⟨low, high⟩, words⟩, key⟩

/-- The clauses of some groups accept the messages that meet one of them. -/
theorem anyAccepts_clauses {groups : List (List (List Char))} {spec : List Clause}
    (h : clauses groups = .ok spec) (m : Message) :
    anyAccepts spec m = true ↔ ∃ ts ∈ groups, Meets m ts := by
  induction groups generalizing spec with
  | nil =>
      obtain rfl := Except.ok.inj h
      simp [anyAccepts]
  | cons ts rest ih =>
      rw [clauses] at h
      split at h
      · exact nomatch h
      · next clause hclause =>
        split at h
        · exact nomatch h
        · next more hmore =>
          obtain rfl := Except.ok.inj h
          show (clause.accepts m || anyAccepts more m) = true ↔ _
          rw [Bool.or_eq_true, Clause.accepts_iff_meets hclause, ih hmore]
          simp [List.mem_cons]

namespace Query

theorem asksForAll_iff (raw : String) :
    asksForAll raw.toList = true
      ↔ (∀ c ∈ raw.toList, Text.isBlank c = true) ∨ raw = "*" := by
  have hstar : ['*'] = "*".toList := rfl
  rw [asksForAll, Text.allBlank, Bool.or_eq_true, List.all_eq_true, beq_iff_eq, hstar,
    String.toList_inj]

theorem parse_eq_all_iff (raw : String) :
    parse raw = .ok .all ↔ asksForAll raw.toList = true := by
  rw [parse]
  by_cases h : asksForAll raw.toList = true
  · rw [if_pos h]
    exact ⟨fun _ => h, fun _ => rfl⟩
  · rw [if_neg h]
    refine ⟨?_, fun hall => absurd hall h⟩
    cases clauses (groups raw.toList) with
    | error e => exact fun heq => nomatch heq
    | ok spec => exact fun heq => nomatch heq

theorem clauses_of_parse {raw : String} {spec : List Clause}
    (h : parse raw = .ok (.filter spec)) : clauses (groups raw.toList) = .ok spec := by
  rw [parse] at h
  split at h
  · exact nomatch h
  · cases hclauses : clauses (groups raw.toList) with
    | error e => rw [hclauses] at h; exact nomatch h
    | ok spec' =>
        rw [hclauses] at h
        rw [Query.filter.inj (Except.ok.inj h)]

/-- A message answers a query if it meets a group that is not blank. -/
theorem anyAccepts_of_parse {raw : String} {spec : List Clause}
    (h : parse raw = .ok (.filter spec)) (m : Message) :
    anyAccepts spec m = true
      ↔ ∃ group ∈ groupTexts raw,
          (∃ c ∈ group, Text.isBlank c = false) ∧ Meets m (tokens group) := by
  rw [anyAccepts_clauses (clauses_of_parse h), groups_eq]
  have hblank (group : List Char) : (!(tokens group).isEmpty) = true
      ↔ ∃ c ∈ group, Text.isBlank c = false := by
    rw [Bool.not_eq_true', Bool.eq_false_iff, ne_eq, List.isEmpty_iff, tokens_eq_nil_iff]
    simp
  constructor
  · rintro ⟨ts, hts, hmeets⟩
    obtain ⟨hmem, hne⟩ := List.mem_filter.mp hts
    obtain ⟨group, hgroup, rfl⟩ := List.mem_map.mp hmem
    exact ⟨group, hgroup, (hblank group).mp hne, hmeets⟩
  · rintro ⟨group, hgroup, hne, hmeets⟩
    refine ⟨tokens group, List.mem_filter.mpr ⟨?_, (hblank group).mpr hne⟩, hmeets⟩
    exact List.mem_map.mpr ⟨group, hgroup, rfl⟩

/-- **THE MEANING OF A QUERY**: a text asks for the newest messages if and
    only if it is blank or a lone star. Any other text that can be understood
    finds exactly the messages that meet one of its groups that are not
    blank, and when it has no such group it finds nothing. -/
theorem parse_meaning (raw : String) :
    (parse raw = .ok .all ↔ (∀ c ∈ raw.toList, Text.isBlank c = true) ∨ raw = "*")
      ∧ (∀ spec, parse raw = .ok (.filter spec) → ∀ m : Message, anyAccepts spec m = true
          ↔ ∃ group ∈ groupTexts raw,
              (∃ c ∈ group, Text.isBlank c = false) ∧ Meets m (tokens group))
      ∧ ((∀ group ∈ groupTexts raw, tokens group = []) → ',' ∈ raw.toList →
          ∃ spec, parse raw = .ok (.filter spec) ∧ ∀ m : Message, anyAccepts spec m = false) := by
  refine ⟨(parse_eq_all_iff raw).trans (asksForAll_iff raw), ?_, ?_⟩
  · intro spec h m
    exact anyAccepts_of_parse h m
  · intro hnone hcomma
    have hgroups : groups raw.toList = [] := by
      rw [groups_eq, List.filter_eq_nil_iff]
      intro ts hts
      obtain ⟨group, hgroup, rfl⟩ := List.mem_map.mp hts
      rw [hnone group hgroup]
      exact nofun
    have hall : ¬ asksForAll raw.toList = true := by
      rw [asksForAll_iff]
      rintro (hblank | rfl)
      · exact nomatch hblank ',' hcomma
      · exact absurd hcomma (by decide)
    refine ⟨[], ?_, fun _ => rfl⟩
    rw [parse, if_neg hall, hgroups]
    rfl

/-- In one group of this query the second key and the two halves of a range
    count, each on its own. -/
theorem parse_meaning_mixed :
    ∃ spec, parse "a key:k #3- key:x #-7,b" = .ok (.filter spec)
      ∧ ∃ group ∈ groupTexts "a key:k #3- key:x #-7,b",
          (∃ c ∈ group, Text.isBlank c = false)
            ∧ Meets ⟨5, ⟨0, 0⟩, ⟨[0x7A, 0x61], "x", [], "s"⟩⟩ (tokens group) :=
  ⟨_, rfl, ((parse_meaning "a key:k #3- key:x #-7,b").2.1 _ rfl _).mp rfl⟩

end Query

end BusWindow
