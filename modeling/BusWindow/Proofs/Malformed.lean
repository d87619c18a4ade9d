import Mathlib.Data.List.Forall2
import BusWindow.Proofs.Characters
import BusWindow.Proofs.QueryMeaning

/-!
# Malformed ranges — what the parser refuses, and what it makes of the rest

    A token that begins with `#` and has a hyphen is a range, and each side
    of its first hyphen is left empty or is a sequence number. A query is
    refused for the first range in reading order of which this is not true,
    and for nothing else. Otherwise every group that is not blank becomes
    one clause.

    * `bound_eq_none_iff` and `classify_eq_error_iff` are about one token;
    * `FirstMalformed` says which token is the first one, and
      `ofWords_eq_error_iff` and `clauses_eq_error_iff` that the parser stops
      there, by induction on the tokens of a group and on the groups;
    * `forall₂_clauses` goes through the groups that are understood;
    * `parse_refuses_first_malformed` is the whole statement.
-/

namespace BusWindow

namespace Query

/-! ## Malformed tokens -/

/-- The text of a bound that is no sequence number: one of its bytes is no
    digit, or the number that its digits denote is too large. -/
inductive BadBound (text : List Char) : Prop where
  | notDigits {b : UInt8} (mem : b ∈ Utf8.encode text) (other : b < 0x30 ∨ 0x39 < b) :
      BadBound text
  | tooLarge (digits : ∀ b ∈ Utf8.encode text, 0x30 ≤ b ∧ b ≤ 0x39)
      (large : 9223372036854775807 < Nat.ofDigitChars 10 text 0) : BadBound text

/-- A token that is no key, begins with `#` and has a hyphen, but in front of
    its first hyphen or behind it stands something else than a number. -/
structure Malformed (token : List Char) : Prop where
  noKey : ¬ ['k', 'e', 'y', ':'] <+: token
  range : ∃ low high, token = '#' :: (low ++ '-' :: high) ∧ '-' ∉ low
    ∧ (BadBound low ∨ BadBound high)

/-- A token is the first malformed one of some tokens. -/
def FirstMalformed (tokens : List (List Char)) (token : List Char) : Prop :=
  ∃ before after, tokens = before ++ token :: after ∧ Malformed token
    ∧ ∀ t ∈ before, ¬ Malformed t

/-- The tokens of all groups of a query, in reading order. -/
def readingOrder (raw : String) : List (List Char) := (groupTexts raw).flatMap tokens

end Query

open Query

/-! ## One token -/

namespace Token

variable {text token low high : List Char}

/-- The digits of a bound are those of ASCII. -/
theorem isDigit_iff {c : Char} : isDigit c = true ↔ 0x30 ≤ c.toNat ∧ c.toNat ≤ 0x39 := by
  rw [isDigit, Bool.and_eq_true, decide_eq_true_iff, decide_eq_true_iff, Char.le_def, Char.le_def,
    UInt32.le_iff_toNat_le, UInt32.le_iff_toNat_le]
  rfl

/-- A character is a digit if all of its bytes are. -/
theorem digits_encodeChar_iff (c : Char) :
    (∀ b ∈ String.utf8EncodeChar c, 0x30 ≤ b ∧ b ≤ 0x39) ↔ isDigit c = true := by
  rw [isDigit_iff]
  rcases Utf8.encodeChar_cases c with ⟨hlow, heq⟩ | ⟨hhigh, a, more, heq, ha⟩
  · have hsmall : (UInt8.ofNat c.toNat).toNat = c.toNat := Utf8.toNat_ofNat_of_lt (by omega)
    rw [heq, List.forall_mem_singleton, UInt8.le_iff_toNat_le, UInt8.le_iff_toNat_le, hsmall]
    rfl
  · -- the first byte of any other character is none of ASCII
    rw [heq, List.forall_mem_cons, UInt8.le_iff_toNat_le, UInt8.le_iff_toNat_le]
    constructor
    · rintro ⟨⟨-, hle⟩, -⟩
      exact absurd (ha.trans hle) (by decide)
    · rintro ⟨-, hle⟩
      omega

theorem digits_encode_iff (text : List Char) :
    (∀ b ∈ Utf8.encode text, 0x30 ≤ b ∧ b ≤ 0x39) ↔ text.all isDigit = true := by
  rw [Utf8.encode, List.forall_mem_flatMap, List.all_eq_true]
  exact forall₂_congr fun c _ => digits_encodeChar_iff c

/-- What is refused as a bound. -/
theorem bound_eq_none_iff : bound text = none ↔ BadBound text := by
  cases text with
  | nil =>
      refine ⟨fun h => absurd h (by decide), ?_⟩
      rintro (hb | ⟨-, hlarge⟩)
      · exact absurd hb List.not_mem_nil
      · exact absurd hlarge (by decide)
  | cons c rest =>
      rw [bound, if_neg (by simp)]
      by_cases hdigits : (c :: rest).all isDigit = true
      · have hbytes := (digits_encode_iff (c :: rest)).mpr hdigits
        by_cases hlarge : 9223372036854775807 < Nat.ofDigitChars 10 (c :: rest) 0
        · have hbound : ¬ ((decimal (c :: rest) : Nat) : Int) ≤ greatestSeq := by
            rw [decimal_eq_ofDigitChars, greatestSeq]
            omega
          rw [hdigits, decide_eq_false hbound]
          exact ⟨fun _ => .tooLarge hbytes hlarge, fun _ => rfl⟩
        · have hbound : ((decimal (c :: rest) : Nat) : Int) ≤ greatestSeq := by
            rw [decimal_eq_ofDigitChars, greatestSeq]
            omega
          rw [hdigits, decide_eq_true hbound]
          refine ⟨fun h => absurd h (Option.some_ne_none _), ?_⟩
          rintro (⟨hmem, hother⟩ | ⟨-, hlarge'⟩)
          · obtain ⟨hlow, hhigh⟩ := hbytes _ hmem
            exact absurd hother (not_or.mpr ⟨UInt8.not_lt.mpr hlow, UInt8.not_lt.mpr hhigh⟩)
          · exact absurd hlarge' hlarge
      · rw [Bool.eq_false_iff.mpr hdigits, Bool.false_and, if_neg Bool.false_ne_true]
        refine ⟨fun _ => ?_, fun _ => rfl⟩
        -- some byte is no digit
        by_contra hgood
        refine hdigits ((digits_encode_iff _).mp fun b hmem => ?_)
        constructor
        · exact UInt8.not_lt.mp fun hlow => hgood (.notDigits hmem (Or.inl hlow))
        · exact UInt8.not_lt.mp fun hhigh => hgood (.notDigits hmem (Or.inr hhigh))

/-- A bound that is not bad has its value, or none. -/
theorem bound_eq_of_not_badBound (h : ¬ BadBound text) : bound text = some (boundValue? text) := by
  cases hbound : bound text with
  | none => exact absurd (bound_eq_none_iff.mp hbound) h
  | some value => rw [eq_boundValue?_of_bound hbound]

/-- A token names a key, is parted by a hyphen behind its `#`, or is a plain
    word. -/
theorem token_cases (token : List Char) :
    ['k', 'e', 'y', ':'] <+: token
      ∨ (∃ low high, token = '#' :: (low ++ '-' :: high) ∧ '-' ∉ low)
      ∨ keyText? token = none ∧ rangeTexts? token = none := by
  by_cases hkey : ['k', 'e', 'y', ':'] <+: token
  · exact Or.inl hkey
  · refine Or.inr ?_
    have hnokey : keyText? token = none := if_neg hkey
    cases token with
    | nil => exact Or.inr ⟨hnokey, rfl⟩
    | cons c text =>
        by_cases hhash : c = '#'
        · obtain rfl := hhash
          by_cases hhyphen : '-' ∈ text
          · obtain ⟨low, high, rfl, hlow⟩ := List.eq_append_cons_of_mem hhyphen
            exact Or.inl ⟨low, high, rfl, hlow⟩
          · exact Or.inr ⟨hnokey, if_neg hhyphen⟩
        · refine Or.inr ⟨hnokey, ?_⟩
          unfold rangeTexts?
          split
          · next heq => exact absurd (List.cons.inj heq).1 hhash
          · rfl

/-- Whatever stands behind the mark of a key is the key. -/
theorem classify_key (h : ['k', 'e', 'y', ':'] <+: token) :
    classify token = .ok (.key (String.ofList (token.drop 4))) := by
  obtain ⟨value, rfl⟩ := h
  rfl

/-- Two bounds make a range. -/
theorem classify_of_bounds {from? to? : Option Int} (h : '-' ∉ low)
    (hlow : bound low = some from?) (hhigh : bound high = some to?) :
    classify ('#' :: (low ++ '-' :: high)) = .ok (.range from? to?) := by
  simp only [classify, span_hyphen h, hlow, hhigh]

/-- One bad bound makes an error with the whole token in it. -/
theorem classify_of_no_bound (h : '-' ∉ low) (none : bound low = none ∨ bound high = none) :
    classify ('#' :: (low ++ '-' :: high))
      = .error ⟨String.ofList ('#' :: (low ++ '-' :: high))⟩ := by
  rcases none with hlow | hhigh
  · simp only [classify, span_hyphen h, hlow]
  · cases hlow : bound low with
    | none => simp only [classify, span_hyphen h, hlow]
    | some from? => simp only [classify, span_hyphen h, hlow, hhigh]

/-- What is neither a key nor a range is a word. -/
theorem classify_plain (key : keyText? token = none) (range : rangeTexts? token = none) :
    classify token = .ok (.word (String.ofList token)) := by
  unfold classify
  split
  · next value => simp [keyText?] at key
  · next text =>
    rw [rangeTexts?_hash] at range
    cases hspan : text.span (· != '-') with
    | mk front back =>
        cases back with
        | nil => rfl
        | cons c rest =>
            rw [hspan] at range
            exact absurd range (Option.some_ne_none _)
  · rfl

/-- A range is malformed if one of its bounds is bad. -/
theorem malformed_hash_hyphen_iff (h : '-' ∉ low) :
    Malformed ('#' :: (low ++ '-' :: high)) ↔ BadBound low ∨ BadBound high := by
  constructor
  · rintro ⟨-, low', high', heq, hlow', hbad⟩
    -- the first hyphen parts the text in one way only
    have hspan := span_hyphen h high
    rw [(List.cons.inj heq).2, span_hyphen hlow'] at hspan
    obtain ⟨rfl, hhigh⟩ := Prod.mk.inj hspan
    rwa [(List.cons.inj hhigh).2] at hbad
  · intro hbad
    exact ⟨by simp, low, high, rfl, h, hbad⟩

theorem not_malformed_of_plain (range : rangeTexts? token = none) : ¬ Malformed token := by
  rintro ⟨-, low, high, rfl, -, -⟩
  simp [rangeTexts?] at range

/-- **What is refused as a token**: the malformed ones, and the refusal names
    the token as it stands. -/
theorem classify_eq_error_iff (token : List Char) (e : InvalidRange) :
    classify token = .error e ↔ Malformed token ∧ e = ⟨String.ofList token⟩ := by
  rcases token_cases token with hkey | ⟨low, high, rfl, hlow⟩ | ⟨hkey, hrange⟩
  · rw [classify_key hkey]
    exact ⟨nofun, fun h => absurd hkey h.1.noKey⟩
  · rw [malformed_hash_hyphen_iff hlow, ← bound_eq_none_iff, ← bound_eq_none_iff]
    by_cases hnone : bound low = none ∨ bound high = none
    · rw [classify_of_no_bound hlow hnone, and_iff_right hnone, Except.error.injEq]
      exact eq_comm
    · obtain ⟨hlow', hhigh'⟩ := not_or.mp hnone
      obtain ⟨from?, hfrom⟩ := Option.ne_none_iff_exists'.mp hlow'
      obtain ⟨to?, hto⟩ := Option.ne_none_iff_exists'.mp hhigh'
      rw [classify_of_bounds hlow hfrom hto]
      exact ⟨nofun, fun h => absurd h.1 hnone⟩
  · rw [classify_plain hkey hrange]
    exact ⟨nofun, fun h => absurd h.1 (not_malformed_of_plain hrange)⟩

/-- A range that is understood has the numbers that are written in it. -/
theorem classify_range_of_not_malformed (hlow : '-' ∉ low)
    (h : ¬ Malformed ('#' :: (low ++ '-' :: high))) :
    classify ('#' :: (low ++ '-' :: high)) = .ok (.range (boundValue? low) (boundValue? high)) := by
  rw [malformed_hash_hyphen_iff hlow, not_or] at h
  exact classify_of_bounds hlow (bound_eq_of_not_badBound h.1) (bound_eq_of_not_badBound h.2)

end Token

/-! ## The first malformed token -/

namespace Query

variable {t token : List Char} {rest before after : List (List Char)}

theorem not_firstMalformed_nil : ¬ FirstMalformed [] token := by
  rintro ⟨before, after, heq, -, -⟩
  exact List.append_ne_nil_of_right_ne_nil before (List.cons_ne_nil _ _) heq.symm

/-- A malformed token at the front is the first one. -/
theorem firstMalformed_cons_of_malformed (h : Malformed t) :
    FirstMalformed (t :: rest) token ↔ token = t := by
  constructor
  · rintro ⟨before, after, heq, -, hbefore⟩
    cases before with
    | nil => exact (List.cons.inj heq).1.symm
    | cons t' before' =>
        obtain ⟨rfl, -⟩ := List.cons.inj heq
        exact absurd h (hbefore t List.mem_cons_self)
  · rintro rfl
    exact ⟨[], rest, rfl, h, fun _ hmem => nomatch hmem⟩

/-- Any other token at the front is passed over. -/
theorem firstMalformed_cons_of_not_malformed (h : ¬ Malformed t) :
    FirstMalformed (t :: rest) token ↔ FirstMalformed rest token := by
  constructor
  · rintro ⟨before, after, heq, htoken, hbefore⟩
    cases before with
    | nil =>
        obtain ⟨rfl, -⟩ := List.cons.inj heq
        exact absurd htoken h
    | cons t' before' =>
        exact ⟨before', after, (List.cons.inj heq).2, htoken,
          fun s hs => hbefore s (List.mem_cons_of_mem t' hs)⟩
  · rintro ⟨before, after, rfl, htoken, hbefore⟩
    exact ⟨t :: before, after, rfl, htoken, List.forall_mem_cons.mpr ⟨h, hbefore⟩⟩

/-- Some token is malformed if and only if one of them is the first. -/
theorem exists_firstMalformed_iff (tokens : List (List Char)) :
    (∃ token, FirstMalformed tokens token) ↔ ∃ token ∈ tokens, Malformed token := by
  induction tokens with
  | nil => simp [not_firstMalformed_nil]
  | cons t rest ih =>
      by_cases h : Malformed t
      · simp [firstMalformed_cons_of_malformed h, h]
      · simp [firstMalformed_cons_of_not_malformed h, h, ih]

/-- In two lists one after the other, the first malformed token of the second
    list counts only if the first one has none. -/
theorem firstMalformed_append_iff :
    FirstMalformed (before ++ after) token
      ↔ FirstMalformed before token
        ∨ (∀ t ∈ before, ¬ Malformed t) ∧ FirstMalformed after token := by
  induction before with
  | nil => simp [not_firstMalformed_nil]
  | cons t before ih =>
      rw [List.cons_append]
      by_cases h : Malformed t
      · rw [firstMalformed_cons_of_malformed h, firstMalformed_cons_of_malformed h]
        simp [h]
      · rw [firstMalformed_cons_of_not_malformed h, firstMalformed_cons_of_not_malformed h, ih]
        simp [h]

end Query

/-! ## Groups of tokens -/

/-- A group is refused for its first malformed token. -/
theorem Clause.ofWords_eq_error_iff (start : Clause) (ts : List (List Char)) (e : InvalidRange) :
    start.ofWords ts = .error e
      ↔ ∃ token, FirstMalformed ts token ∧ e = ⟨String.ofList token⟩ := by
  induction ts generalizing start with
  | nil => simp [ofWords, not_firstMalformed_nil]
  | cons t rest ih =>
      rw [ofWords]
      cases hclassify : Token.classify t with
      | error e' =>
          obtain ⟨hbad, rfl⟩ := (Token.classify_eq_error_iff t e').mp hclassify
          simp [firstMalformed_cons_of_malformed hbad, eq_comm]
      | ok meaning =>
          have hgood : ¬ Malformed t := by
            intro hbad
            rw [(Token.classify_eq_error_iff t _).mpr ⟨hbad, rfl⟩] at hclassify
            cases hclassify
          simp only [firstMalformed_cons_of_not_malformed hgood]
          exact ih (start.add meaning)

/-- A group that is read has no malformed token. -/
theorem Clause.not_malformed_of_ofWords {start clause : Clause} {ts : List (List Char)}
    (h : start.ofWords ts = .ok clause) : ∀ t ∈ ts, ¬ Malformed t := by
  intro t ht hbad
  obtain ⟨token, hfirst⟩ := (exists_firstMalformed_iff ts).mpr ⟨t, ht, hbad⟩
  exact nomatch h.symm.trans ((ofWords_eq_error_iff start ts _).mpr ⟨token, hfirst, rfl⟩)

/-- What the clause of a group is: its plain words in order, the last key and
    the last bounds that are given, and all bounds with the values of their
    digits. -/
structure Clause.IsOf (clause : Clause) (ts : List (List Char)) : Prop where
  words : clause.words = ts.filterMap Token.plainText?
  routingKey : clause.routingKey
    = ((ts.filterMap keyText?).getLast?.map fun text => .exact (String.ofList text)).getD .any
  low : clause.low = (ts.filterMap lower?).getLast?.getD 0
  high : clause.high = (ts.filterMap upper?).getLast?.getD 9223372036854775807
  bounds : ∀ low high, '#' :: (low ++ '-' :: high) ∈ ts → '-' ∉ low →
    Token.classify ('#' :: (low ++ '-' :: high))
      = .ok (.range (boundValue? low) (boundValue? high))

theorem Clause.isOf_of_ofWords {clause : Clause} {ts : List (List Char)}
    (h : Clause.ofWords {} ts = .ok clause) : clause.IsOf ts := by
  obtain ⟨hwords, hkey, hlow, hhigh⟩ := ofWords_eq h
  rw [keyOf_eq] at hkey
  refine ⟨hwords, hkey, hlow, hhigh, ?_⟩
  intro low high hmem hhyphen
  exact Token.classify_range_of_not_malformed hhyphen (not_malformed_of_ofWords h _ hmem)

namespace Query

/-- Groups are refused for their first malformed token, in reading order. -/
theorem clauses_eq_error_iff (groups : List (List (List Char))) (e : InvalidRange) :
    clauses groups = .error e
      ↔ ∃ token, FirstMalformed groups.flatten token ∧ e = ⟨String.ofList token⟩ := by
  induction groups with
  | nil => simp [clauses, not_firstMalformed_nil]
  | cons ts rest ih =>
      rw [clauses, List.flatten_cons]
      simp only [firstMalformed_append_iff]
      cases hclause : Clause.ofWords {} ts with
      | error e' =>
          -- the parser never comes to the other groups
          obtain ⟨token, hfirst, -⟩ := (Clause.ofWords_eq_error_iff {} ts e').mp hclause
          obtain ⟨t, ht, hbad⟩ := (exists_firstMalformed_iff ts).mp ⟨token, hfirst⟩
          have hsome : ¬ ∀ t ∈ ts, ¬ Malformed t := fun hgood => hgood t ht hbad
          simp only [hsome, false_and, or_false]
          rw [← Clause.ofWords_eq_error_iff {} ts e, hclause]
          rw [Except.error.injEq, Except.error.injEq]
      | ok clause =>
          have hgood := Clause.not_malformed_of_ofWords hclause
          have hnone : ∀ token, ¬ FirstMalformed ts token := by
            intro token hfirst
            obtain ⟨t, ht, hbad⟩ := (exists_firstMalformed_iff ts).mp ⟨token, hfirst⟩
            exact hgood t ht hbad
          simp only [hnone, false_or, and_iff_right hgood]
          rw [← ih]
          cases clauses rest with
          | error e' => rfl
          | ok more => simp only [reduceCtorEq]

/-- Each group that is understood becomes one clause. -/
theorem forall₂_clauses {groups : List (List (List Char))} {spec : List Clause}
    (h : clauses groups = .ok spec) : List.Forall₂ Clause.IsOf spec groups := by
  induction groups generalizing spec with
  | nil =>
      obtain rfl := Except.ok.inj h
      exact .nil
  | cons ts rest ih =>
      rw [clauses] at h
      split at h
      · cases h
      · next clause hclause =>
        split at h
        · cases h
        · next more hmore =>
          obtain rfl := Except.ok.inj h
          exact .cons (Clause.isOf_of_ofWords hclause) (ih hmore)

/-- The groups of a query that are not blank. -/
def nonBlankGroups (raw : String) : List (List Char) :=
  (groupTexts raw).filter fun group => !Text.allBlank group

theorem groups_eq_map_nonBlankGroups (raw : String) :
    groups raw.toList = (nonBlankGroups raw).map tokens := by
  rw [groups_eq, nonBlankGroups, List.filter_map]
  congr 2
  funext group
  rw [Function.comp_apply, Bool.eq_iff_iff, Bool.not_eq_true', Bool.not_eq_true',
    Bool.eq_false_iff, Bool.eq_false_iff, ne_eq, ne_eq, List.isEmpty_iff, tokens_eq_nil_iff,
    Text.allBlank, List.all_eq_true]

/-- The tokens of all groups, in the order in which they are read. -/
theorem flatten_groups (raw : String) : (groups raw.toList).flatten = readingOrder raw := by
  rw [groups_eq, readingOrder, List.flatten_filter_not_isEmpty, List.flatMap_def]

/-- **MALFORMED RANGES**: a query that does not ask for everything is refused
    if and only if one of its tokens is malformed, and the refusal names the
    first such token in reading order as it stands. Any other query has one
    clause for each group that is not blank, in order, with the plain words
    of the group, its last key and the numbers of its ranges. -/
theorem parse_refuses_first_malformed (raw : String)
    (other : ¬ ((∀ c ∈ raw.toList, Text.isBlank c = true) ∨ raw = "*")) :
    ((∃ e, parse raw = .error e) ↔ ∃ token ∈ readingOrder raw, Malformed token)
      ∧ (∀ e, parse raw = .error e
          ↔ ∃ token, FirstMalformed (readingOrder raw) token ∧ e = ⟨String.ofList token⟩)
      ∧ ((∀ token ∈ readingOrder raw, ¬ Malformed token) →
          ∃ spec, parse raw = .ok (.filter spec)
            ∧ List.Forall₂ (fun clause group => Clause.IsOf clause (tokens group)) spec
                (nonBlankGroups raw)) := by
  have hparse : parse raw = (clauses (groups raw.toList)).map .filter := by
    rw [parse, if_neg ((asksForAll_iff raw).not.mpr other)]
  have herror (e : InvalidRange) : parse raw = .error e
      ↔ ∃ token, FirstMalformed (readingOrder raw) token ∧ e = ⟨String.ofList token⟩ := by
    rw [← flatten_groups, ← clauses_eq_error_iff, hparse]
    cases clauses (groups raw.toList) with
    | error e' => rw [Except.map, Except.error.injEq, Except.error.injEq]
    | ok spec => simp only [Except.map, reduceCtorEq]
  have hrefused : (∃ e, parse raw = .error e) ↔ ∃ token ∈ readingOrder raw, Malformed token := by
    rw [← exists_firstMalformed_iff]
    constructor
    · rintro ⟨e, he⟩
      obtain ⟨token, hfirst, -⟩ := (herror e).mp he
      exact ⟨token, hfirst⟩
    · rintro ⟨token, hfirst⟩
      exact ⟨_, (herror _).mpr ⟨token, hfirst, rfl⟩⟩
  refine ⟨hrefused, herror, ?_⟩
  intro hgood
  cases hclauses : clauses (groups raw.toList) with
  | error e =>
      obtain ⟨token, hmem, hbad⟩ := hrefused.mp ⟨e, by rw [hparse, hclauses]; rfl⟩
      exact absurd hbad (hgood token hmem)
  | ok spec =>
      refine ⟨spec, by rw [hparse, hclauses]; rfl, ?_⟩
      have hspec := forall₂_clauses hclauses
      rwa [groups_eq_map_nonBlankGroups, List.forall₂_map_right_iff] at hspec

/-- The range behind `key:` is none, and zeros in front do not count; the
    number that is too large stands before a range with a letter in it. -/
theorem parse_refuses_first_malformed_late :
    (∃ token, FirstMalformed (readingOrder "a #007- key:#x-,b #9223372036854775808- #-y") token
        ∧ (⟨"#9223372036854775808-"⟩ : InvalidRange) = ⟨String.ofList token⟩)
      ∧ ∃ spec, parse "x #009223372036854775807- x,, y" = .ok (.filter spec)
        ∧ List.Forall₂ (fun clause group => Clause.IsOf clause (tokens group)) spec
            (nonBlankGroups "x #009223372036854775807- x,, y") := by
  have hfirst := parse_refuses_first_malformed "a #007- key:#x-,b #9223372036854775808- #-y"
    ((asksForAll_iff _).not.mp (by decide))
  have hsecond := parse_refuses_first_malformed "x #009223372036854775807- x,, y"
    ((asksForAll_iff _).not.mp (by decide))
  refine ⟨(hfirst.2.1 _).mp rfl, hsecond.2.2 fun token hmem hbad => ?_⟩
  obtain ⟨e, he⟩ := hsecond.1.mpr ⟨token, hmem, hbad⟩
  exact nomatch he

end Query

end BusWindow
