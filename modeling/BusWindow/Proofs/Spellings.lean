import BusWindow.Proofs.Digits

/-!
# Spellings — the texts that TOML strings are read from

    A string stands between quotes or between apostrophes, on one line or on
    several. The relations of this module say which texts those are and which
    characters they stand for, without a reader: `QuotedText` and
    `LiteralText` on one line, `LinesText` and `LiteralLinesText` on several,
    and `StringText` for all four with their quotes.

    For each of them there are two statements. What is spelled is read,
    whatever follows it but a further quote (`QuotedText.quotedFrom_eq`,
    `LinesText.linesFrom_eq`, `text_eq`), by induction on how it is spelled;
    and what is read is spelled (`takesQuoted_of_quotedFrom`,
    `takesLines_of_linesFrom`, `stringText_of_text`), by induction on how it
    is read. On several lines quotes may stand for themselves and line ends
    may be left out, so the second induction keeps what has been left out
    so far beside what has been read (`TakesLines`).
-/

namespace BusWindow.Toml

/-! ## Characters -/

/-- A text of blanks, which may stand between the parts of a line. -/
def Spaces (t : List Char) : Prop := ∀ c ∈ t, c = ' ' ∨ c = '\t'

/-- A character that may stand in a line: a tab, or anything but a control
    character. -/
def Printable (c : Char) : Prop := c = '\t' ∨ 0x20 ≤ c.toNat ∧ c.toNat ≠ 0x7F

instance (c : Char) : Decidable (Printable c) := inferInstanceAs (Decidable (_ ∨ _))

/-- The end of a line. -/
inductive LineEnd : List Char → Prop where
  | lf : LineEnd ['\n']
  | crlf : LineEnd ['\r', '\n']

section Characters

variable {c x : Char} {s t rest ds : List Char}

/-- Blanks are spaces and tabs. -/
theorem isSpace_iff : isSpace c = true ↔ c = ' ' ∨ c = '\t' := by
  rw [isSpace, Bool.or_eq_true, beq_iff_eq, beq_iff_eq]

theorem isPrintable_iff : isPrintable c = true ↔ Printable c := by
  have hspace : ' ' ≤ c ↔ 0x20 ≤ c.toNat := Iff.rfl
  have htilde : c ≤ '~' ↔ c.toNat ≤ 0x7E := Iff.rfl
  simp only [isPrintable, Printable, Bool.or_eq_true, Bool.and_eq_true, beq_iff_eq,
    decide_eq_true_eq, hspace, htilde, or_assoc]
  exact or_congr_right (by omega)

/-- Blanks are passed over as far as they go. -/
theorem skipSpace_append (spaces : Spaces t) : skipSpace (t ++ rest) = skipSpace rest :=
  List.dropWhile_append_of_pos fun c hc => isSpace_iff.mpr (spaces c hc)

/-- What is passed over in front of an item is blanks. -/
theorem exists_spaces (s : List Char) : ∃ t, Spaces t ∧ s = t ++ skipSpace s :=
  ⟨s.takeWhile isSpace, fun c hc => isSpace_iff.mp (List.all_eq_true.mp List.all_takeWhile c hc),
    List.takeWhile_append_dropWhile.symm⟩

/-- A text that begins with no blank. -/
theorem skipSpace_cons (space : c ≠ ' ') (tab : c ≠ '\t') : skipSpace (c :: rest) = c :: rest :=
  List.dropWhile_cons_of_neg fun h => (isSpace_iff.mp h).elim space tab

end Characters

/-! ## Escapes -/

/-- The letters that stand for characters behind a backslash. -/
def letters : List (Char × Char) :=
  [('b', '\x08'), ('t', '\t'), ('n', '\n'), ('f', '\x0c'), ('r', '\r'), ('"', '"'), ('\\', '\\')]

/-- What stands behind a backslash for a character: a letter, or the number
    of the character in four or in eight hexadecimal digits. -/
inductive EscapeText : List Char → Char → Prop where
  | letter {c x : Char} (listed : (c, x) ∈ letters) : EscapeText [c] x
  | four {a b c d x : Char} (denotes : Positional 16 [a, b, c, d] x.toNat) :
      EscapeText ['u', a, b, c, d] x
  | eight {a b c d e f g h x : Char} (denotes : Positional 16 [a, b, c, d, e, f, g, h] x.toNat) :
      EscapeText ['U', a, b, c, d, e, f, g, h] x

section Escapes

variable {c x : Char} {s t rest ds : List Char} {n : Nat}

/-- A letter behind a backslash stands for what the table has for it. -/
theorem simpleEscape?_eq_some_iff : simpleEscape? c = some x ↔ (c, x) ∈ letters := by
  constructor
  · intro h
    unfold simpleEscape? at h
    split at h <;> cases h <;> decide
  · intro h
    have hall : ∀ p ∈ letters, simpleEscape? p.1 = some p.2 := by decide
    exact hall _ h

/-- The letters in front of numbers are none of the others. -/
theorem ne_of_letters (h : (c, x) ∈ letters) : c ≠ 'u' ∧ c ≠ 'U' := by
  have hall : ∀ p ∈ letters, p.1 ≠ 'u' ∧ p.1 ≠ 'U' := by decide
  exact hall _ h

/-- The digits behind a backslash denote a number. -/
theorem hexNumber?_eq_some_iff : hexNumber? ds = some n ↔ Positional 16 ds n := by
  induction ds using List.reverseRecOn generalizing n with
  | nil => rw [positional_nil, hexNumber?, List.foldl_nil, Option.some_inj, eq_comm]
  | append_singleton ds c ih =>
      have hstep : hexNumber? (ds ++ [c])
          = (hexNumber? ds).bind fun m => (hexValue? c).map fun d => m * 16 + d := by
        rw [hexNumber?, List.foldl_append]
        rfl
      simp only [hstep, Option.bind_eq_some_iff, Option.map_eq_some_iff, ih,
        hexValue?_eq_some_iff, positional_concat]
      constructor
      · rintro ⟨m, hm, v, hv, rfl⟩
        exact ⟨m, v, hm, hv, by omega⟩
      · rintro ⟨m, v, hm, hv, rfl⟩
        exact ⟨m, hm, v, hv, by omega⟩

/-- Digits are read as the character whose number they denote. -/
theorem numbered?_eq_some_iff : numbered? ds = some x ↔ Positional 16 ds x.toNat := by
  simp only [numbered?, Option.bind_eq_some_iff, hexNumber?_eq_some_iff,
    Option.ite_none_right_eq_some, Option.some_inj]
  constructor
  · rintro ⟨n, hn, hvalid, rfl⟩
    have hchar : (Char.ofNat n).toNat = n := by
      rw [Char.ofNat, dif_pos hvalid]
      rfl
    rwa [hchar]
  · intro h
    exact ⟨_, h, x.valid, Char.ofNat_toNat x⟩

end Escapes

/-! ## Strings on one line -/

/-- What stands between quotes, and the characters that it stands for. -/
inductive QuotedText : List Char → List Char → Prop where
  | nil : QuotedText [] []
  | plain {c : Char} {t xs : List Char} (printable : Printable c) (quote : c ≠ '"')
      (backslash : c ≠ '\\') (more : QuotedText t xs) : QuotedText (c :: t) (c :: xs)
  | escape {e t xs : List Char} {x : Char} (escaped : EscapeText e x) (more : QuotedText t xs) :
      QuotedText ('\\' :: (e ++ t)) (x :: xs)

/-- What stands between apostrophes stands for itself. -/
def LiteralText (t : List Char) : Prop := ∀ c ∈ t, Printable c ∧ c ≠ '\''

section Quoted

variable {c x : Char} {s t e xs rest read : List Char} {a : String}

/-- An escape is read as the character it stands for, whichever of its forms it
    has. -/
theorem quotedFrom_escape (escaped : EscapeText e x) :
    quotedFrom read ('\\' :: (e ++ rest)) = quotedFrom (x :: read) rest := by
  cases escaped with
  | letter listed =>
      obtain ⟨hfour, height⟩ := ne_of_letters listed
      have hread := simpleEscape?_eq_some_iff.mpr listed
      simp [quotedFrom, hread, hfour, height]
  | four denotes => simp [quotedFrom, numbered?_eq_some_iff.mpr denotes]
  | eight denotes => simp [quotedFrom, numbered?_eq_some_iff.mpr denotes]

/-- A plain character stands for itself. -/
theorem quotedFrom_plain (printable : Printable c) (quote : c ≠ '"') (backslash : c ≠ '\\') :
    quotedFrom read (c :: rest) = quotedFrom (c :: read) rest := by
  have hplain : (isPrintable c && c != '\\') = true := by
    rw [isPrintable_iff.mpr printable, Bool.true_and, bne_iff_ne]
    exact backslash
  rw [quotedFrom, if_pos hplain]
  · exact quote
  · exact fun _ _ _ _ _ h => absurd h backslash
  · exact fun _ _ _ _ _ _ _ _ _ h => absurd h backslash
  · exact fun _ _ h => absurd h backslash

/-- A spelled text is read up to the quote behind it. -/
theorem QuotedText.quotedFrom_eq (h : QuotedText t xs) :
    quotedFrom read (t ++ '"' :: rest) = some (String.ofList (read.reverse ++ xs), rest) := by
  induction h generalizing read with
  | nil => rw [List.nil_append, quotedFrom, List.append_nil]
  | plain printable quote backslash more ih =>
      rw [List.cons_append, quotedFrom_plain printable quote backslash, ih, List.reverse_cons,
        List.append_assoc, List.singleton_append]
  | escape escaped more ih =>
      rw [List.cons_append, List.append_assoc, quotedFrom_escape escaped, ih, List.reverse_cons,
        List.append_assoc, List.singleton_append]

/-- What was taken between quotes: a spelled text up to the closing quote. -/
def TakesQuoted (read s : List Char) (a : String) (rest : List Char) : Prop :=
  ∃ t xs, s = t ++ '"' :: rest ∧ QuotedText t xs ∧ a = String.ofList (read.reverse ++ xs)

/-- An escape in front of what is taken is taken with it. -/
theorem TakesQuoted.escape (escaped : EscapeText e x) (h : TakesQuoted (x :: read) s a rest) :
    TakesQuoted read ('\\' :: (e ++ s)) a rest := by
  obtain ⟨t, xs, rfl, hquoted, rfl⟩ := h
  exact ⟨'\\' :: (e ++ t), x :: xs, by simp, .escape escaped hquoted, by simp⟩

/-- So is a plain character. -/
theorem TakesQuoted.plain (printable : Printable c) (quote : c ≠ '"') (backslash : c ≠ '\\')
    (h : TakesQuoted (c :: read) s a rest) : TakesQuoted read (c :: s) a rest := by
  obtain ⟨t, xs, rfl, hquoted, rfl⟩ := h
  exact ⟨c :: t, c :: xs, rfl, .plain printable quote backslash hquoted, by simp⟩

/-- What is read between quotes is spelled so, case by case as the reader goes. -/
theorem takesQuoted_of_quotedFrom (h : quotedFrom read s = some (a, rest)) :
    TakesQuoted read s a rest := by
  fun_induction quotedFrom read s with
  | case1 => cases h
  | case2 read more =>
      obtain ⟨rfl, rfl⟩ := Prod.mk.inj (Option.some.inj h)
      exact ⟨[], [], rfl, .nil, by rw [List.append_nil]⟩
  | case3 read a b c d more x hx ih =>
      exact (ih h).escape (.four (numbered?_eq_some_iff.mp hx))
  | case4 => cases h
  | case5 read a b c d e f g i more x hx ih =>
      exact (ih h).escape (.eight (numbered?_eq_some_iff.mp hx))
  | case6 => cases h
  | case7 read c more _ _ x hx ih =>
      exact (ih h).escape (.letter (simpleEscape?_eq_some_iff.mp hx))
  | case8 => cases h
  | case9 read c more quote _ _ _ plain ih =>
      rw [Bool.and_eq_true, bne_iff_ne, isPrintable_iff] at plain
      exact (ih h).plain plain.1 quote plain.2
  | case10 => cases h

/-- Between apostrophes every character stands for itself. -/
theorem literalFrom_eq (h : LiteralText t) :
    literalFrom read (t ++ '\'' :: rest) = some (String.ofList (read.reverse ++ t), rest) := by
  induction t generalizing read with
  | nil => rw [List.nil_append, literalFrom, List.append_nil]
  | cons c t ih =>
      obtain ⟨hprintable, hquote⟩ := h c List.mem_cons_self
      rw [List.cons_append, literalFrom, if_pos (isPrintable_iff.mpr hprintable),
        ih fun d hd => h d (List.mem_cons_of_mem _ hd), List.reverse_cons, List.append_assoc,
        List.singleton_append]
      exact hquote

/-- What is read between apostrophes is spelled so. -/
theorem literalText_of_literalFrom (h : literalFrom read s = some (a, rest)) :
    ∃ t, s = t ++ '\'' :: rest ∧ LiteralText t ∧ a = String.ofList (read.reverse ++ t) := by
  fun_induction literalFrom read s with
  | case1 => cases h
  | case2 read more =>
      obtain ⟨rfl, rfl⟩ := Prod.mk.inj (Option.some.inj h)
      exact ⟨[], rfl, nofun, by rw [List.append_nil]⟩
  | case3 read c more quote printable ih =>
      obtain ⟨t, rfl, hliteral, rfl⟩ := ih h
      refine ⟨c :: t, rfl, ?_, by simp⟩
      rintro d (_ | ⟨_, hd⟩)
      · exact ⟨isPrintable_iff.mp printable, quote⟩
      · exact hliteral d hd
  | case4 => cases h

end Quoted

/-! ## Strings on several lines -/

/-- Blanks and line ends. -/
inductive BlankText : List Char → Prop where
  | nil : BlankText []
  | space {c : Char} {t : List Char} (space : c = ' ' ∨ c = '\t') (more : BlankText t) :
      BlankText (c :: t)
  | lineEnd {e t : List Char} (ends : LineEnd e) (more : BlankText t) : BlankText (e ++ t)

/-- What a backslash at the end of a line leaves out. -/
inductive GapText : List Char → Prop where
  | mk {sp e t : List Char} (spaces : Spaces sp) (ends : LineEnd e) (blank : BlankText t) :
      GapText (sp ++ (e ++ t))

/-- No blank and no line end is at the front. -/
def Unblanked (t : List Char) : Prop :=
  ∀ c ∈ t.head?, c ≠ ' ' ∧ c ≠ '\t' ∧ c ≠ '\n' ∧ c ≠ '\r'

/-- What stands for one character between three quotes, a quote apart. -/
inductive PieceText : List Char → Char → Prop where
  | plain {c : Char} (printable : Printable c) (quote : c ≠ '"') (backslash : c ≠ '\\') :
      PieceText [c] c
  | lineEnd {e : List Char} (ends : LineEnd e) : PieceText e '\n'
  | escape {e : List Char} {x : Char} (escaped : EscapeText e x) : PieceText ('\\' :: e) x

/-- Some quotes that stand for themselves. -/
abbrev quotes (k : Nat) : List Char := List.replicate k '"'

/-- What stands between three quotes: at most two quotes stand together, and
    what a gap leaves out is all that can be left out there. -/
inductive LinesText : List Char → List Char → Prop where
  | done {k : Nat} (few : k ≤ 2) : LinesText (quotes k) (quotes k)
  | piece {k : Nat} {e t xs : List Char} {x : Char} (few : k ≤ 2) (piece : PieceText e x)
      (more : LinesText t xs) : LinesText (quotes k ++ (e ++ t)) (quotes k ++ x :: xs)
  | gap {k : Nat} {g t xs : List Char} (few : k ≤ 2) (gap : GapText g) (stop : Unblanked t)
      (more : LinesText t xs) : LinesText (quotes k ++ '\\' :: (g ++ t)) (quotes k ++ xs)

section Lines

variable {c x : Char} {s t e g xs rest read : List Char} {a : String} {k : Nat} {trimming : Bool}

/-- One or two quotes in front of another character stand for themselves, and
    what is left out ends with them. -/
theorem linesFrom_quotes (few : k ≤ 2) (other : c ≠ '"') :
    linesFrom trimming read (quotes k ++ c :: s)
      = linesFrom (trimming && k == 0) (quotes k ++ read) (c :: s) := by
  obtain rfl | rfl | rfl : k = 0 ∨ k = 1 ∨ k = 2 := by omega
  · simp [quotes]
  · simp [quotes, linesFrom, other, isSpace, isPrintable]
  · simp [quotes, linesFrom, other, isSpace, isPrintable]

/-- Three quotes end the text, and up to two more in front of them belong to
    it. -/
theorem linesFrom_done (few : k ≤ 2) (ends : rest.head? ≠ some '"') :
    linesFrom trimming read (quotes k ++ '"' :: '"' :: '"' :: rest)
      = some (String.ofList (read.reverse ++ quotes k), rest) := by
  have hrest (more : List Char) : rest ≠ '"' :: more := by
    rintro rfl
    exact ends rfl
  obtain rfl | rfl | rfl : k = 0 ∨ k = 1 ∨ k = 2 := by omega
  · simp [quotes, linesFrom, hrest]
  · simp [quotes, linesFrom]
  · simp [quotes, linesFrom]

/-- An escape is read as the character it stands for. -/
theorem linesFrom_escape (escaped : EscapeText e x) :
    linesFrom trimming read ('\\' :: (e ++ s)) = linesFrom false (x :: read) s := by
  cases escaped with
  | letter listed =>
      obtain ⟨hfour, height⟩ := ne_of_letters listed
      have hread := simpleEscape?_eq_some_iff.mpr listed
      simp [linesFrom, hread, hfour, height]
  | four denotes => simp [linesFrom, numbered?_eq_some_iff.mpr denotes]
  | eight denotes => simp [linesFrom, numbered?_eq_some_iff.mpr denotes]

/-- A line end stands for itself, unless it is left out. -/
theorem linesFrom_lineEnd (ends : LineEnd e) :
    linesFrom trimming read (e ++ s)
      = if trimming then linesFrom true read s else linesFrom false ('\n' :: read) s := by
  cases ends with
  | lf => simp [linesFrom]
  | crlf => simp [linesFrom]

/-- Behind a backslash at the end of a line blanks are left out. -/
theorem linesFrom_space (space : c = ' ' ∨ c = '\t') :
    linesFrom true read (c :: s) = linesFrom true read s := by
  obtain rfl | rfl := space
  · simp [linesFrom, isSpace]
  · simp [linesFrom, isSpace]

/-- A plain character stands for itself, unless it is left out. -/
theorem linesFrom_plain (printable : Printable c) (quote : c ≠ '"') (backslash : c ≠ '\\')
    (stop : trimming = true → c ≠ ' ' ∧ c ≠ '\t') :
    linesFrom trimming read (c :: s) = linesFrom false (c :: read) s := by
  have hcr : c ≠ '\r' := by
    rintro rfl
    exact absurd printable (by decide)
  have hlf : c ≠ '\n' := by
    rintro rfl
    exact absurd printable (by decide)
  have hkept : ¬ (trimming && (isSpace c || c == '\n')) = true := by
    simp only [Bool.and_eq_true, Bool.or_eq_true, isSpace_iff, beq_iff_eq, hlf, or_false]
    rintro ⟨htrimming, hspace⟩
    exact hspace.elim (stop htrimming).1 (stop htrimming).2
  have hplain : (c == '\n' || (isPrintable c && c != '\\')) = true := by
    rw [isPrintable_iff.mpr printable, Bool.true_and, Bool.or_eq_true, bne_iff_ne]
    exact Or.inr backslash
  rw [linesFrom, if_neg hkept, if_pos hplain]
  · exact fun _ h => absurd h quote
  · exact fun _ h => absurd h quote
  · exact fun _ h => absurd h quote
  · exact fun _ _ _ _ _ h => absurd h backslash
  · exact fun _ _ _ _ _ _ _ _ _ h => absurd h backslash
  · exact fun _ h => absurd h hcr
  · exact fun _ _ h => absurd h backslash

/-- Whole blank lines are left out. -/
theorem linesFrom_blank (blank : BlankText t) :
    linesFrom true read (t ++ s) = linesFrom true read s := by
  induction blank with
  | nil => rfl
  | space hspace _ ih => rw [List.cons_append, linesFrom_space hspace, ih]
  | lineEnd hends _ ih => rw [List.append_assoc, linesFrom_lineEnd hends, if_pos rfl, ih]

/-- A line that holds blanks only is seen to end. -/
theorem lineEnds_append (spaces : Spaces t) (ends : LineEnd e) (rest : List Char) :
    lineEnds (t ++ (e ++ rest)) = true := by
  rw [lineEnds, skipSpace_append spaces]
  cases ends with
  | lf => rfl
  | crlf => rfl

/-- A character that can begin a gap is no letter of an escape. -/
theorem linesFrom_backslash (blank : c = ' ' ∨ c = '\t' ∨ c = '\n' ∨ c = '\r')
    (ends : lineEnds (c :: s) = true) :
    linesFrom trimming read ('\\' :: c :: s) = linesFrom true read (c :: s) := by
  obtain rfl | rfl | rfl | rfl := blank
  · simp [linesFrom, simpleEscape?, ends]
  · simp [linesFrom, simpleEscape?, ends]
  · simp [linesFrom, simpleEscape?, ends]
  · simp [linesFrom, simpleEscape?, ends]

/-- Blanks in front of blank text are blank text. -/
theorem Spaces.blankText (spaces : Spaces t) (blank : BlankText e) : BlankText (t ++ e) := by
  induction t with
  | nil => exact blank
  | cons c t ih =>
      have hmore := ih fun d hd => spaces d (List.mem_cons_of_mem _ hd)
      exact .space (spaces c List.mem_cons_self) hmore

theorem GapText.blankText (gap : GapText g) : BlankText g := by
  obtain ⟨spaces, ends, blank⟩ := gap
  exact spaces.blankText (.lineEnd ends blank)

/-- A gap is left out. -/
theorem linesFrom_gap (gap : GapText g) :
    linesFrom trimming read ('\\' :: (g ++ s)) = linesFrom true read s := by
  rw [← linesFrom_blank gap.blankText]
  obtain @⟨sp, e, t, spaces, ends, blank⟩ := gap
  have hends := lineEnds_append spaces ends (t ++ s)
  rw [List.append_assoc, List.append_assoc]
  cases sp with
  | nil =>
      cases ends with
      | lf => exact linesFrom_backslash (by simp) hends
      | crlf => exact linesFrom_backslash (by simp) hends
  | cons c sp =>
      have hc := spaces c List.mem_cons_self
      exact linesFrom_backslash (hc.elim Or.inl fun h => Or.inr (Or.inl h)) hends

/-- Nothing is left out where nothing can be. -/
theorem linesFrom_piece (piece : PieceText e x) (stop : trimming = true → Unblanked e) :
    linesFrom trimming read (e ++ s) = linesFrom false (x :: read) s := by
  cases piece with
  | plain printable quote backslash =>
      exact linesFrom_plain printable quote backslash fun h =>
        ⟨(stop h _ rfl).1, (stop h _ rfl).2.1⟩
  | lineEnd ends =>
      have hkept : ¬ trimming = true := fun h => by
        cases ends with
        | lf => exact (stop h _ rfl).2.2.1 rfl
        | crlf => exact (stop h _ rfl).2.2.2 rfl
      rw [linesFrom_lineEnd ends, if_neg hkept]
  | escape escaped => exact linesFrom_escape escaped

/-- A piece of the text does not begin with a quote. -/
theorem PieceText.exists_cons (piece : PieceText e x) : ∃ c more, e = c :: more ∧ c ≠ '"' := by
  cases piece with
  | plain printable quote backslash => exact ⟨_, _, rfl, quote⟩
  | lineEnd ends =>
      cases ends with
      | lf => exact ⟨_, _, rfl, by decide⟩
      | crlf => exact ⟨_, _, rfl, by decide⟩
  | escape escaped => exact ⟨_, _, rfl, by decide⟩

/-- A spelled text is read up to the three quotes behind it, piece by piece. -/
theorem LinesText.linesFrom_eq (h : LinesText t xs) (ends : rest.head? ≠ some '"')
    (stop : trimming = true → Unblanked t) :
    linesFrom trimming read (t ++ '"' :: '"' :: '"' :: rest)
      = some (String.ofList (read.reverse ++ xs), rest) := by
  induction h generalizing read trimming with
  | done few => exact linesFrom_done few ends
  | @piece k e t xs x few hpiece _ ih =>
      obtain ⟨c, more, rfl, hc⟩ := hpiece.exists_cons
      have hstop : (trimming && k == 0) = true → Unblanked (c :: more) := by
        rw [Bool.and_eq_true, beq_iff_eq]
        rintro ⟨htrimming, rfl⟩
        exact stop htrimming
      rw [List.append_assoc, List.append_assoc, List.cons_append, linesFrom_quotes few hc,
        ← List.cons_append, linesFrom_piece hpiece hstop, ih fun h => absurd h Bool.false_ne_true]
      simp
  | @gap k g t xs few hgap hstop _ ih =>
      rw [List.append_assoc, List.cons_append, List.append_assoc, linesFrom_quotes few (by decide),
        linesFrom_gap hgap, ih fun _ => hstop]
      simp

/-- What was taken between three quotes: what is left out at first, and a
    spelled text up to the closing quotes. -/
def TakesLines (trimming : Bool) (read s : List Char) (a : String) (rest : List Char) : Prop :=
  ∃ b t xs, s = b ++ (t ++ '"' :: '"' :: '"' :: rest) ∧ LinesText t xs
    ∧ a = String.ofList (read.reverse ++ xs) ∧ BlankText b ∧ (trimming = false → b = [])
    ∧ (trimming = true → Unblanked t)

/-- The end of the text is taken with the quotes in front of it. -/
theorem takesLines_done (few : k ≤ 2) :
    TakesLines trimming read (quotes k ++ '"' :: '"' :: '"' :: rest)
      (String.ofList (quotes k ++ read).reverse) rest := by
  refine ⟨[], quotes k, quotes k, rfl, .done few, by simp, .nil, fun _ => rfl, fun _ c hc => ?_⟩
  obtain rfl := List.eq_of_mem_replicate (List.mem_of_mem_head? hc)
  decide

/-- A piece in front of what is taken is taken with it. -/
theorem TakesLines.piece (piece : PieceText e x) (stop : trimming = true → Unblanked e)
    (h : TakesLines false (x :: read) s a rest) : TakesLines trimming read (e ++ s) a rest := by
  obtain ⟨b, t, xs, rfl, hlines, rfl, -, hb, -⟩ := h
  obtain rfl := hb rfl
  obtain ⟨c, more, rfl, -⟩ := piece.exists_cons
  refine ⟨[], (c :: more) ++ t, x :: xs, by simp, .piece (Nat.zero_le 2) piece hlines, by simp,
    .nil, fun _ => rfl, fun htrimming => ?_⟩
  exact stop htrimming

theorem BlankText.append (h : BlankText t) (more : BlankText s) : BlankText (t ++ s) := by
  induction h with
  | nil => exact more
  | space space _ ih => exact .space space ih
  | lineEnd ends _ ih =>
      rw [List.append_assoc]
      exact .lineEnd ends ih

/-- Blank text in front of what is taken is left out with what follows. -/
theorem TakesLines.blank (blank : BlankText e) (h : TakesLines true read s a rest) :
    TakesLines true read (e ++ s) a rest := by
  obtain ⟨b, t, xs, rfl, hlines, rfl, hblank, -, hstop⟩ := h
  exact ⟨e ++ b, t, xs, (List.append_assoc _ _ _).symm, hlines, rfl, blank.append hblank, nofun,
    hstop⟩

/-- A quote may be put in front of a spelled text that does not begin with two. -/
theorem LinesText.quote (h : LinesText t xs) (single : ∀ more, t ≠ '"' :: '"' :: more) :
    LinesText ('"' :: t) ('"' :: xs) := by
  have hfew {k : Nat} {more : List Char} (few : k ≤ 2) (ht : t = quotes k ++ more) :
      k + 1 ≤ 2 := by
    by_contra hmany
    obtain rfl : k = 2 := by omega
    exact single more ht
  cases h with
  | done few => exact .done (hfew few (List.append_nil _).symm)
  | piece few hpiece hmore => exact .piece (hfew few rfl) hpiece hmore
  | gap few hgap hstop hmore => exact .gap (hfew few rfl) hgap hstop hmore

/-- A quote with at most one quote behind it stands for itself. -/
theorem TakesLines.quote (single : ∀ more, s ≠ '"' :: '"' :: more)
    (h : TakesLines false ('"' :: read) s a rest) : TakesLines trimming read ('"' :: s) a rest := by
  obtain ⟨b, t, xs, rfl, hlines, rfl, -, hb, -⟩ := h
  obtain rfl := hb rfl
  have hquote := hlines.quote fun more ht => single _ (congrArg (· ++ _) ht)
  refine ⟨[], '"' :: t, '"' :: xs, rfl, hquote, by simp, .nil, fun _ => rfl, fun _ c hc => ?_⟩
  obtain rfl := Option.some.inj hc
  decide

/-- What is left out behind a backslash reaches beyond the end of its line. -/
theorem gapText_of_lineEnds (blank : BlankText t) (stop : Unblanked s)
    (hends : lineEnds (t ++ s) = true) : GapText t := by
  induction blank with
  | nil =>
      rw [List.nil_append] at hends
      cases s with
      | nil => cases hends
      | cons c s =>
          obtain ⟨hspace, htab, hlf, hcr⟩ := stop c rfl
          rw [lineEnds, skipSpace_cons hspace htab] at hends
          split at hends
          · next h => exact absurd (List.cons.inj h).1 hlf
          · next h => exact absurd (List.cons.inj h).1 hcr
          · cases hends
  | @space c t space _ ih =>
      have hspaces : Spaces [c] := fun d hd => List.mem_singleton.mp hd ▸ space
      rw [lineEnds, List.cons_append, ← List.singleton_append, skipSpace_append hspaces] at hends
      obtain @⟨sp, e, t, spaces, ends, blank⟩ := ih hends
      have hmore : Spaces (c :: sp) := List.forall_mem_cons.mpr ⟨space, spaces⟩
      exact .mk hmore ends blank
  | lineEnd ends blank _ =>
      have hnone : Spaces [] := nofun
      exact .mk hnone ends blank

/-- A backslash at the end of its line begins a gap, as wide as what is left
    out. -/
theorem TakesLines.gap (ends : lineEnds s = true) (h : TakesLines true read s a rest) :
    TakesLines trimming read ('\\' :: s) a rest := by
  obtain ⟨b, t, xs, rfl, hlines, rfl, hblank, -, hstop⟩ := h
  have hunblanked : Unblanked (t ++ '"' :: '"' :: '"' :: rest) := by
    cases t with
    | nil =>
        intro c hc
        obtain rfl := Option.some.inj hc
        decide
    | cons d t => exact fun c hc => hstop rfl c hc
  have hgap := gapText_of_lineEnds hblank hunblanked ends
  refine ⟨[], '\\' :: (b ++ t), xs, by simp, .gap (Nat.zero_le 2) hgap (hstop rfl) hlines, rfl,
    .nil, fun _ => rfl, fun _ c hc => ?_⟩
  obtain rfl := Option.some.inj hc
  decide

theorem TakesLines.escape (escaped : EscapeText e x) (h : TakesLines false (x :: read) s a rest) :
    TakesLines trimming read ('\\' :: (e ++ s)) a rest := by
  refine h.piece (.escape escaped) fun _ c hc => ?_
  obtain rfl := Option.some.inj hc
  decide

/-- What is read between three quotes is spelled so, case by case as the reader
    goes. -/
theorem takesLines_of_linesFrom (h : linesFrom trimming read s = some (a, rest)) :
    TakesLines trimming read s a rest := by
  fun_induction linesFrom trimming read s with
  | case1 => cases h
  | case2 trimming read more =>
      obtain ⟨rfl, rfl⟩ := Prod.mk.inj (Option.some.inj h)
      exact takesLines_done (k := 2) (by decide)
  | case3 trimming read more =>
      obtain ⟨rfl, rfl⟩ := Prod.mk.inj (Option.some.inj h)
      exact takesLines_done (k := 1) (by decide)
  | case4 trimming read more =>
      obtain ⟨rfl, rfl⟩ := Prod.mk.inj (Option.some.inj h)
      exact takesLines_done (k := 0) (by decide)
  | case5 trimming read a b c d more x hx ih =>
      exact (ih h).escape (.four (numbered?_eq_some_iff.mp hx))
  | case6 => cases h
  | case7 trimming read a b c d e f g i more x hx ih =>
      exact (ih h).escape (.eight (numbered?_eq_some_iff.mp hx))
  | case8 => cases h
  | case9 read more ih => exact (ih h).blank (.lineEnd .crlf .nil)
  | case10 trimming read more kept ih =>
      exact (ih h).piece (.lineEnd .crlf) fun htrimming => absurd htrimming kept
  | case11 trimming read c more _ _ x hx ih =>
      exact (ih h).escape (.letter (simpleEscape?_eq_some_iff.mp hx))
  | case12 trimming read c more _ _ _ ends ih => exact (ih h).gap ends
  | case13 => cases h
  | case14 trimming read c more _ _ _ _ _ _ _ blank ih =>
      rw [Bool.and_eq_true, Bool.or_eq_true, isSpace_iff, beq_iff_eq] at blank
      obtain ⟨rfl, hspace | rfl⟩ := blank
      · exact (ih h).blank (.space hspace .nil)
      · exact (ih h).blank (.lineEnd .lf .nil)
  | case15 trimming read c more _ _ hquotes _ _ _ _ kept plain ih =>
      rw [Bool.and_eq_true, Bool.or_eq_true, isSpace_iff, beq_iff_eq] at kept
      rw [Bool.or_eq_true, beq_iff_eq, Bool.and_eq_true, bne_iff_ne, isPrintable_iff] at plain
      by_cases hquote : c = '"'
      · subst hquote
        exact (ih h).quote fun more' hmore => hquotes more' rfl hmore
      obtain rfl | ⟨hprintable, hbackslash⟩ := plain
      · exact (ih h).piece (.lineEnd .lf) fun htrimming => absurd ⟨htrimming, Or.inr rfl⟩ kept
      · refine (ih h).piece (.plain hprintable hquote hbackslash) fun htrimming d hd => ?_
        obtain rfl := Option.some.inj hd
        refine ⟨fun h => kept ⟨htrimming, Or.inl (Or.inl h)⟩,
          fun h => kept ⟨htrimming, Or.inl (Or.inr h)⟩, ?_, ?_⟩
        · exact fun h => absurd (h ▸ hprintable) (by decide)
        · exact fun h => absurd (h ▸ hprintable) (by decide)
  | case16 => cases h

end Lines

/-! ## Literal strings on several lines -/

/-- Some apostrophes that stand for themselves. -/
abbrev apostrophes (k : Nat) : List Char := List.replicate k '\''

/-- What stands between three apostrophes: at most two of them stand together,
    and everything stands for itself but the end of a line. -/
inductive LiteralLinesText : List Char → List Char → Prop where
  | done {k : Nat} (few : k ≤ 2) : LiteralLinesText (apostrophes k) (apostrophes k)
  | plain {k : Nat} {c : Char} {t xs : List Char} (few : k ≤ 2) (printable : Printable c)
      (apostrophe : c ≠ '\'') (more : LiteralLinesText t xs) :
      LiteralLinesText (apostrophes k ++ c :: t) (apostrophes k ++ c :: xs)
  | lineEnd {k : Nat} {e t xs : List Char} (few : k ≤ 2) (ends : LineEnd e)
      (more : LiteralLinesText t xs) :
      LiteralLinesText (apostrophes k ++ (e ++ t)) (apostrophes k ++ '\n' :: xs)

section LiteralLines

variable {c : Char} {s t e xs rest read : List Char} {a : String} {k : Nat}

/-- One or two apostrophes in front of another character stand for themselves. -/
theorem literalLinesFrom_apostrophes (few : k ≤ 2) (other : c ≠ '\'') :
    literalLinesFrom read (apostrophes k ++ c :: s)
      = literalLinesFrom (apostrophes k ++ read) (c :: s) := by
  obtain rfl | rfl | rfl : k = 0 ∨ k = 1 ∨ k = 2 := by omega
  · rfl
  · simp [apostrophes, literalLinesFrom, other, isPrintable]
  · simp [apostrophes, literalLinesFrom, other, isPrintable]

/-- Three apostrophes end the text, and up to two more in front of them belong
    to it. -/
theorem literalLinesFrom_done (few : k ≤ 2) (ends : rest.head? ≠ some '\'') :
    literalLinesFrom read (apostrophes k ++ '\'' :: '\'' :: '\'' :: rest)
      = some (String.ofList (read.reverse ++ apostrophes k), rest) := by
  have hrest (more : List Char) : rest ≠ '\'' :: more := by
    rintro rfl
    exact ends rfl
  obtain rfl | rfl | rfl : k = 0 ∨ k = 1 ∨ k = 2 := by omega
  · simp [apostrophes, literalLinesFrom, hrest]
  · simp [apostrophes, literalLinesFrom]
  · simp [apostrophes, literalLinesFrom]

theorem literalLinesFrom_plain (printable : Printable c) (apostrophe : c ≠ '\'') :
    literalLinesFrom read (c :: s) = literalLinesFrom (c :: read) s := by
  have hcr : c ≠ '\r' := by
    rintro rfl
    exact absurd printable (by decide)
  have hplain : (c == '\n' || isPrintable c) = true := by
    rw [isPrintable_iff.mpr printable, Bool.or_true]
  rw [literalLinesFrom, if_pos hplain]
  · exact fun _ h => absurd h apostrophe
  · exact fun _ h => absurd h apostrophe
  · exact fun _ h => absurd h apostrophe
  · exact fun _ h => absurd h hcr

/-- A line end is read as a line feed. -/
theorem literalLinesFrom_lineEnd (ends : LineEnd e) :
    literalLinesFrom read (e ++ s) = literalLinesFrom ('\n' :: read) s := by
  cases ends with
  | lf => simp [literalLinesFrom]
  | crlf => simp [literalLinesFrom]

/-- A spelled text is read up to the three apostrophes behind it. -/
theorem LiteralLinesText.literalLinesFrom_eq (h : LiteralLinesText t xs)
    (ends : rest.head? ≠ some '\'') :
    literalLinesFrom read (t ++ '\'' :: '\'' :: '\'' :: rest)
      = some (String.ofList (read.reverse ++ xs), rest) := by
  induction h generalizing read with
  | done few => exact literalLinesFrom_done few ends
  | plain few printable apostrophe _ ih =>
      rw [List.append_assoc, List.cons_append, literalLinesFrom_apostrophes few apostrophe,
        literalLinesFrom_plain printable apostrophe, ih]
      simp
  | @lineEnd k e t xs few hends _ ih =>
      obtain ⟨c, more, rfl, hc⟩ : ∃ c more, e = c :: more ∧ c ≠ '\'' := by
        cases hends with
        | lf => exact ⟨_, _, rfl, by decide⟩
        | crlf => exact ⟨_, _, rfl, by decide⟩
      rw [List.append_assoc, List.append_assoc, List.cons_append,
        literalLinesFrom_apostrophes few hc, ← List.cons_append, literalLinesFrom_lineEnd hends, ih]
      simp

/-- An apostrophe may be put in front of a spelled text that does not begin
    with two. -/
theorem LiteralLinesText.apostrophe (h : LiteralLinesText t xs)
    (single : ∀ more, t ≠ '\'' :: '\'' :: more) :
    LiteralLinesText ('\'' :: t) ('\'' :: xs) := by
  have hfew {k : Nat} {more : List Char} (few : k ≤ 2) (ht : t = apostrophes k ++ more) :
      k + 1 ≤ 2 := by
    by_contra hmany
    obtain rfl : k = 2 := by omega
    exact single more ht
  cases h with
  | done few => exact .done (hfew few (List.append_nil _).symm)
  | plain few hprintable hc hmore => exact .plain (hfew few rfl) hprintable hc hmore
  | lineEnd few hends hmore => exact .lineEnd (hfew few rfl) hends hmore

/-- What is read between three apostrophes is spelled so. -/
theorem literalLinesText_of_literalLinesFrom (h : literalLinesFrom read s = some (a, rest)) :
    ∃ t xs, s = t ++ '\'' :: '\'' :: '\'' :: rest ∧ LiteralLinesText t xs
      ∧ a = String.ofList (read.reverse ++ xs) := by
  have hdone (k : Nat) (few : k ≤ 2) (read rest : List Char) :
      ∃ t xs, apostrophes k ++ '\'' :: '\'' :: '\'' :: rest = t ++ '\'' :: '\'' :: '\'' :: rest
        ∧ LiteralLinesText t xs
        ∧ String.ofList (apostrophes k ++ read).reverse = String.ofList (read.reverse ++ xs) :=
    ⟨_, _, rfl, .done few, by simp⟩
  fun_induction literalLinesFrom read s with
  | case1 => cases h
  | case2 read more =>
      obtain ⟨rfl, rfl⟩ := Prod.mk.inj (Option.some.inj h)
      exact hdone 2 (by decide) read more
  | case3 read more =>
      obtain ⟨rfl, rfl⟩ := Prod.mk.inj (Option.some.inj h)
      exact hdone 1 (by decide) read more
  | case4 read more =>
      obtain ⟨rfl, rfl⟩ := Prod.mk.inj (Option.some.inj h)
      exact hdone 0 (by decide) read more
  | case5 read more ih =>
      obtain ⟨t, xs, rfl, hlines, rfl⟩ := ih h
      exact ⟨_, _, rfl, .lineEnd (k := 0) (Nat.zero_le 2) .crlf hlines, by simp⟩
  | case6 read c more _ _ hquotes _ plain ih =>
      obtain ⟨t, xs, rfl, hlines, rfl⟩ := ih h
      rw [Bool.or_eq_true, beq_iff_eq, isPrintable_iff] at plain
      by_cases hquote : c = '\''
      · subst hquote
        have hsingle : ∀ more, t ≠ '\'' :: '\'' :: more := fun more ht =>
          hquotes _ rfl (congrArg (· ++ _) ht)
        exact ⟨_, _, rfl, hlines.apostrophe hsingle, by simp⟩
      obtain rfl | hprintable := plain
      · exact ⟨_, _, rfl, .lineEnd (k := 0) (Nat.zero_le 2) .lf hlines, by simp⟩
      · exact ⟨_, _, rfl, .plain (k := 0) (Nat.zero_le 2) hprintable hquote hlines, by simp⟩
  | case7 => cases h

end LiteralLines

/-! ## Strings -/

/-- The end of the line behind three quotes, which is left out. -/
inductive FirstLine : List Char → List Char → Prop where
  | ended {e t : List Char} (ends : LineEnd e) : FirstLine e t
  | open {t : List Char} (stop : ∀ e more, LineEnd e → t ≠ e ++ more) : FirstLine [] t

/-- The texts of a string. -/
inductive StringText : List Char → String → Prop where
  | quoted {t xs : List Char} (quoted : QuotedText t xs) :
      StringText ('"' :: (t ++ ['"'])) (String.ofList xs)
  | literal {t : List Char} (literal : LiteralText t) :
      StringText ('\'' :: (t ++ ['\''])) (String.ofList t)
  | lines {f t xs : List Char} (first : FirstLine f t) (lines : LinesText t xs) :
      StringText ('"' :: '"' :: '"' :: (f ++ (t ++ ['"', '"', '"']))) (String.ofList xs)
  | literalLines {f t xs : List Char} (first : FirstLine f t) (lines : LiteralLinesText t xs) :
      StringText ('\'' :: '\'' :: '\'' :: (f ++ (t ++ ['\'', '\'', '\'']))) (String.ofList xs)

section Strings

variable {s t rest : List Char} {a : String}

/-- A line end right behind the opening quotes is left out. -/
theorem FirstLine.skipLineEnd_eq {f : List Char} (first : FirstLine f t) {q : Char}
    (lf : q ≠ '\n') (cr : q ≠ '\r') : skipLineEnd (f ++ (t ++ q :: rest)) = t ++ q :: rest := by
  cases first with
  | ended ends =>
      cases ends with
      | lf => rfl
      | crlf => rfl
  | «open» stop =>
      rw [List.nil_append, skipLineEnd]
      · intro more h
        cases t with
        | nil => exact lf (List.cons.inj h).1
        | cons c t => exact stop _ t .lf (by rw [(List.cons.inj h).1]; rfl)
      · intro more h
        match t, h with
        | [], h => exact cr (List.cons.inj h).1
        | [c], h => exact lf (List.cons.inj (List.cons.inj h).2).1
        | c :: d :: t, h =>
            refine stop _ t .crlf ?_
            rw [(List.cons.inj h).1, (List.cons.inj (List.cons.inj h).2).1]
            rfl

/-- What is left out there is a line end or nothing. -/
theorem exists_firstLine {u : List Char} (h : skipLineEnd s = t ++ u) :
    ∃ f, FirstLine f t ∧ s = f ++ (t ++ u) := by
  unfold skipLineEnd at h
  split at h
  · next more => exact ⟨_, .ended .lf, congrArg ('\n' :: ·) h⟩
  · next more => exact ⟨_, .ended .crlf, congrArg ('\r' :: '\n' :: ·) h⟩
  · next hlf hcr =>
    refine ⟨[], .open fun e more ends ht => ?_, h⟩
    rw [ht] at h
    cases ends with
    | lf => exact hlf _ h
    | crlf => exact hcr _ h

/-- A spelled string is read, unless a further quote makes it another one. -/
theorem text_eq (h : StringText t a) (quote : rest.head? ≠ some '"')
    (apostrophe : rest.head? ≠ some '\'') : text (t ++ rest) = some (a, rest) := by
  cases h with
  | @quoted t xs hquoted =>
      have hread : quotedFrom [] (t ++ '"' :: rest) = some (String.ofList xs, rest) :=
        hquoted.quotedFrom_eq
      rw [List.cons_append, List.append_assoc, text]
      · exact hread
      · -- the two quotes of an empty string have no third one behind them
        intro more h
        cases hquoted with
        | nil => exact quote (congrArg List.head? (List.cons.inj h).2)
        | plain _ hquote _ _ => exact hquote (List.cons.inj h).1
        | escape _ _ => exact absurd (List.cons.inj h).1 (by decide)
  | @literal t hliteral =>
      have hread : literalFrom [] (t ++ '\'' :: rest) = some (String.ofList t, rest) :=
        literalFrom_eq hliteral
      rw [List.cons_append, List.append_assoc, text]
      · exact hread
      · intro more h
        cases t with
        | nil => exact apostrophe (congrArg List.head? (List.cons.inj h).2)
        | cons c t => exact (hliteral c List.mem_cons_self).2 (List.cons.inj h).1
  | @lines f t xs first hlines =>
      have hskip : skipLineEnd (f ++ (t ++ '"' :: '"' :: '"' :: rest)) = t ++ _ :=
        first.skipLineEnd_eq (by decide) (by decide)
      have hread : linesFrom false [] (t ++ '"' :: '"' :: '"' :: rest)
          = some (String.ofList xs, rest) :=
        hlines.linesFrom_eq quote fun h => absurd h Bool.false_ne_true
      simp only [List.cons_append, List.append_assoc, List.nil_append, text, hskip]
      exact hread
  | @literalLines f t xs first hlines =>
      have hskip : skipLineEnd (f ++ (t ++ '\'' :: '\'' :: '\'' :: rest)) = t ++ _ :=
        first.skipLineEnd_eq (by decide) (by decide)
      have hread : literalLinesFrom [] (t ++ '\'' :: '\'' :: '\'' :: rest)
          = some (String.ofList xs, rest) :=
        hlines.literalLinesFrom_eq apostrophe
      simp only [List.cons_append, List.append_assoc, List.nil_append, text, hskip]
      exact hread

/-- What is read as a string is spelled as one. -/
theorem stringText_of_text (h : text s = some (a, rest)) :
    ∃ t, s = t ++ rest ∧ StringText t a := by
  unfold text at h
  split at h
  · next more =>
    obtain ⟨b, t, xs, hs, hlines, rfl, -, hb, -⟩ := takesLines_of_linesFrom h
    rw [hb rfl, List.nil_append] at hs
    obtain ⟨f, hfirst, rfl⟩ := exists_firstLine hs
    exact ⟨_, by simp, .lines hfirst hlines⟩
  · next more _ =>
    obtain ⟨t, xs, rfl, hquoted, rfl⟩ := takesQuoted_of_quotedFrom h
    exact ⟨_, by simp, .quoted hquoted⟩
  · next more =>
    obtain ⟨t, xs, hs, hlines, rfl⟩ := literalLinesText_of_literalLinesFrom h
    obtain ⟨f, hfirst, rfl⟩ := exists_firstLine hs
    exact ⟨_, by simp, .literalLines hfirst hlines⟩
  · next more _ =>
    obtain ⟨t, rfl, hliteral, rfl⟩ := literalText_of_literalFrom h
    exact ⟨_, by simp, .literal hliteral⟩
  · cases h

end Strings

end BusWindow.Toml
