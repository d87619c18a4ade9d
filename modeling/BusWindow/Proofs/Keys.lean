import BusWindow.Proofs.Spellings
import BusWindow.Toml.Reader

/-!
# Keys — what TOML keys are read from, and what stands around them

    A key is one part or several with points between them, and a part stands
    bare or like a string on one line. Around keys and values there are
    blanks, comments and the ends of lines: `TailText` behind an item on its
    line, `FillerText` in front of one. A reader passes over as much of them
    as there is, so each statement on what is passed over comes with what is
    left.
-/

namespace BusWindow.Toml

/-! ## Keys -/

/-- A character that may stand in a key without quotes. -/
def KeyChar (c : Char) : Prop := c.isAlphanum = true ∨ c = '_' ∨ c = '-'

/-- The texts of one part of a key. -/
inductive PartText : List Char → String → Prop where
  | bare {t : List Char} (nonempty : t ≠ []) (all : ∀ c ∈ t, KeyChar c) :
      PartText t (String.ofList t)
  | quoted {t xs : List Char} (quoted : QuotedText t xs) :
      PartText ('"' :: (t ++ ['"'])) (String.ofList xs)
  | literal {t : List Char} (literal : LiteralText t) :
      PartText ('\'' :: (t ++ ['\''])) (String.ofList t)

/-- The texts of a key: its parts with points between them. -/
inductive KeyText : List Char → List String → Prop where
  | one {t : List Char} {name : String} (part : PartText t name) : KeyText t [name]
  | dotted {t b b' u : List Char} {name : String} {path : List String} (part : PartText t name)
      (before : Spaces b) (behind : Spaces b') (more : KeyText u path) :
      KeyText (t ++ (b ++ '.' :: (b' ++ u))) (name :: path)

section Keys

variable {c : Char} {s t b b' rest : List Char} {name : String} {path : List String} {limit : Nat}

/-- The characters of bare keys. -/
theorem isKeyChar_iff : isKeyChar c = true ↔ KeyChar c := by
  have halphanum : c.isAlphanum = (decide ('A' ≤ c ∧ c ≤ 'Z')
      || (decide ('a' ≤ c) && decide (c ≤ 'z')) || (decide ('0' ≤ c) && decide (c ≤ '9'))) := rfl
  simp only [isKeyChar, KeyChar, halphanum, Bool.or_eq_true, Bool.and_eq_true, beq_iff_eq,
    decide_eq_true_eq]
  tauto

instance (c : Char) : Decidable (KeyChar c) := inferInstanceAs (Decidable (_ ∨ _))

/-- A spelled part is read up to what is not part of a bare key. -/
theorem keyPart_eq (h : PartText t name) (stop : ∀ c ∈ rest.head?, ¬ KeyChar c) :
    keyPart (t ++ rest) = some (name, rest) := by
  cases h with
  | @bare t nonempty all =>
      obtain ⟨htake, hdrop⟩ := (takeWhile_dropWhile_iff (p := isKeyChar)).mpr
        ⟨rfl, fun c hc => isKeyChar_iff.mpr (all c hc),
          fun c hc => Bool.eq_false_iff.mpr fun h => stop c hc (isKeyChar_iff.mp h)⟩
      obtain ⟨c, t, rfl⟩ := List.exists_cons_of_ne_nil nonempty
      have hc := all c List.mem_cons_self
      rw [keyPart]
      · simp only [htake, hdrop, List.isEmpty_cons, Bool.false_eq_true, if_false]
      · exact fun _ h => absurd ((List.cons.inj h).1 ▸ hc) (by decide)
      · exact fun _ h => absurd ((List.cons.inj h).1 ▸ hc) (by decide)
  | @quoted t xs hquoted =>
      rw [List.cons_append, List.append_assoc, keyPart]
      exact hquoted.quotedFrom_eq
  | @literal t hliteral =>
      rw [List.cons_append, List.append_assoc, keyPart]
      exact literalFrom_eq hliteral

/-- What is read as a part of a key is spelled as one. -/
theorem partText_of_keyPart (h : keyPart s = some (name, rest)) :
    ∃ t, s = t ++ rest ∧ PartText t name := by
  unfold keyPart at h
  split at h
  · obtain ⟨t, xs, rfl, hquoted, rfl⟩ := takesQuoted_of_quotedFrom h
    exact ⟨_, by simp, .quoted hquoted⟩
  · obtain ⟨t, rfl, hliteral, rfl⟩ := literalText_of_literalFrom h
    exact ⟨_, by simp, .literal hliteral⟩
  · obtain ⟨hempty, h⟩ := Option.ite_none_left_eq_some.mp h
    obtain ⟨rfl, rfl⟩ := Prod.mk.inj (Option.some.inj h)
    refine ⟨_, List.takeWhile_append_dropWhile.symm, .bare (mt List.isEmpty_iff.mpr hempty) ?_⟩
    exact fun c hc => isKeyChar_iff.mp (List.all_eq_true.mp List.all_takeWhile c hc)

/-- Nothing is passed over in front of a part. -/
theorem PartText.skipSpace_eq (h : PartText t name) : skipSpace (t ++ rest) = t ++ rest := by
  cases h with
  | bare nonempty all =>
      obtain ⟨c, t, rfl⟩ := List.exists_cons_of_ne_nil nonempty
      have hc := all c List.mem_cons_self
      refine skipSpace_cons ?_ ?_
      · rintro rfl
        exact absurd hc (by decide)
      · rintro rfl
        exact absurd hc (by decide)
  | quoted => rfl
  | literal => rfl

/-- What may stand behind a part ends it. -/
theorem not_keyChar_of_spaces (spaces : Spaces b) (mark : ¬ KeyChar c) (rest : List Char) :
    ∀ d ∈ (b ++ c :: rest).head?, ¬ KeyChar d := by
  cases b with
  | nil =>
      rintro d hd
      obtain rfl := Option.some.inj hd
      exact mark
  | cons e b =>
      rintro d hd
      obtain rfl := Option.some.inj hd
      obtain rfl | rfl := spaces _ List.mem_cons_self <;> decide

/-- Spelled parts are read with the dots between them, by induction on how they
    are spelled. -/
theorem keyFrom_eq (h : KeyText t path) (parts : path.length ≤ limit) (spaces : Spaces b)
    (spaces' : Spaces b') (mark : c = '=' ∨ c = ']') :
    keyFrom limit (b ++ (t ++ (b' ++ c :: rest))) = some (path, c :: rest) := by
  have hmark : ¬ KeyChar c ∧ c ≠ '.' ∧ c ≠ ' ' ∧ c ≠ '\t' := by
    obtain rfl | rfl := mark <;> decide
  induction h generalizing limit b with
  | @one t name hpart =>
      obtain ⟨limit, rfl⟩ : ∃ k, limit = k + 1 := Nat.exists_eq_add_one.mpr parts
      have hread := keyPart_eq hpart (not_keyChar_of_spaces spaces' hmark.1 rest)
      rw [keyFrom, skipSpace_append spaces, hpart.skipSpace_eq, hread]
      simp only [skipSpace_append spaces', skipSpace_cons hmark.2.2.1 hmark.2.2.2]
      split
      · next h => exact absurd (List.cons.inj h).1 hmark.2.1
      · rfl
  | @dotted t d d' u name path hpart before behind _ ih =>
      obtain ⟨limit, rfl⟩ : ∃ k, limit = k + 1 :=
        Nat.exists_eq_add_one.mpr (Nat.lt_of_lt_of_le (Nat.succ_pos _) parts)
      have hdot : ¬ KeyChar '.' := by decide
      have hread := keyPart_eq hpart
        (not_keyChar_of_spaces before hdot (d' ++ u ++ (b' ++ c :: rest)))
      have hmore := ih (Nat.le_of_succ_le_succ parts) behind
      have htext : t ++ (d ++ '.' :: (d' ++ u)) ++ (b' ++ c :: rest)
          = t ++ (d ++ '.' :: (d' ++ u ++ (b' ++ c :: rest))) := by simp
      rw [keyFrom, skipSpace_append spaces, htext, hpart.skipSpace_eq, hread]
      simp only [skipSpace_append before, skipSpace_cons (c := '.') (by decide) (by decide),
        List.append_assoc, hmore, Option.map_some]

/-- What is read as a key is spelled as one, and has no more parts than are
    allowed. -/
theorem keyText_of_keyFrom (h : keyFrom limit s = some (path, rest)) :
    path.length ≤ limit ∧ ∃ b t b', Spaces b ∧ KeyText t path ∧ Spaces b'
      ∧ s = b ++ (t ++ (b' ++ rest)) := by
  induction limit generalizing s path with
  | zero => cases h
  | succ limit ih =>
      obtain ⟨b, hb, hs⟩ := exists_spaces s
      rw [keyFrom] at h
      split at h
      · cases h
      · next name after hpart =>
        obtain ⟨t, ht, hpart⟩ := partText_of_keyPart hpart
        obtain ⟨b', hb', hafter⟩ := exists_spaces after
        split at h
        · next more hdot =>
          obtain ⟨⟨path', rest'⟩, hkey, hpath⟩ := Option.map_eq_some_iff.mp h
          obtain ⟨rfl, rfl⟩ := Prod.mk.inj hpath
          obtain ⟨hlength, d, u, d', hd, hmore, hd', rfl⟩ := ih hkey
          refine ⟨Nat.succ_le_succ hlength, b, _, d', hb, .dotted hpart hb' hd hmore, hd', ?_⟩
          rw [hs, ht, hafter, hdot]
          simp
        · obtain ⟨rfl, rfl⟩ := Prod.mk.inj (Option.some.inj h)
          refine ⟨Nat.succ_le_succ (Nat.zero_le _), b, t, b', hb, .one hpart, hb', ?_⟩
          rw [← hafter, ← ht]
          exact hs

/-- A spelled key is read up to the mark behind it. -/
theorem key_eq (h : KeyText t path) (parts : path.length ≤ 79) (spaces : Spaces b)
    (spaces' : Spaces b') (mark : c = '=' ∨ c = ']') :
    key (b ++ (t ++ (b' ++ c :: rest))) = some (path, c :: rest) :=
  keyFrom_eq h parts spaces spaces' mark

/-- What is read as a key is spelled as one. -/
theorem keyText_of_key (h : key s = some (path, rest)) :
    path.length ≤ 79 ∧ ∃ b t b', Spaces b ∧ KeyText t path ∧ Spaces b'
      ∧ s = b ++ (t ++ (b' ++ rest)) :=
  keyText_of_keyFrom h

end Keys

/-! ## Comments and blank lines -/

/-- A comment, or nothing. -/
inductive CommentText : List Char → Prop where
  | none : CommentText []
  | some {t : List Char} (printable : ∀ c ∈ t, Printable c) : CommentText ('#' :: t)

/-- What may stand behind an item on its line. -/
inductive TailText : List Char → Prop where
  | mk {b t : List Char} (spaces : Spaces b) (comment : CommentText t) : TailText (b ++ t)

/-- A line ends, or the whole text does. -/
inductive LineClose : List Char → List Char → Prop where
  | ended {e rest : List Char} (ends : LineEnd e) : LineClose e rest
  | finished : LineClose [] []

/-- Lines with nothing on them but comments. -/
inductive BlankLines : List Char → Prop where
  | nil : BlankLines []
  | line {t e u : List Char} (tail : TailText t) (ends : LineEnd e) (more : BlankLines u) :
      BlankLines (t ++ (e ++ u))

/-- What may stand in front of an item. -/
inductive FillerText : List Char → Prop where
  | mk {l b : List Char} (lines : BlankLines l) (spaces : Spaces b) : FillerText (l ++ b)

/-- An item begins here, or the text ends: nothing is passed over. -/
def Begins (rest : List Char) : Prop := ∀ c ∈ rest.head?, c ∉ [' ', '\t', '\n', '\r', '#']

section Fillers

variable {s t l b e rest : List Char} {fuel : Nat}

/-- A comment goes on to the end of its line. -/
theorem skipComment_eq_some_iff :
    skipComment s = some rest
      ↔ ∃ t c, (∀ x ∈ t, Printable x) ∧ LineClose c rest ∧ s = t ++ (c ++ rest) := by
  unfold skipComment
  constructor
  · intro h
    have hs : s = s.takeWhile isPrintable ++ s.dropWhile isPrintable :=
      List.takeWhile_append_dropWhile.symm
    refine ⟨s.takeWhile isPrintable, ?_⟩
    have hall : ∀ x ∈ s.takeWhile isPrintable, Printable x := fun x hx =>
      isPrintable_iff.mp (List.all_eq_true.mp List.all_takeWhile x hx)
    split at h
    · next hend =>
      obtain rfl := Option.some.inj h
      exact ⟨[], hall, .finished, by rw [hend] at hs; exact hs⟩
    · next more hend =>
      obtain rfl := Option.some.inj h
      exact ⟨['\n'], hall, .ended .lf, by rw [hend] at hs; exact hs⟩
    · next more hend =>
      obtain rfl := Option.some.inj h
      exact ⟨['\r', '\n'], hall, .ended .crlf, by rw [hend] at hs; exact hs⟩
    · cases h
  · rintro ⟨t, c, hall, hclose, rfl⟩
    have hstop : ∀ x ∈ (c ++ rest).head?, isPrintable x = false := by
      cases hclose with
      | ended ends =>
          cases ends with
          | lf => exact fun x hx => Option.some.inj hx ▸ rfl
          | crlf => exact fun x hx => Option.some.inj hx ▸ rfl
      | finished => exact nofun
    obtain ⟨-, hdrop⟩ := takeWhile_dropWhile_iff.mpr
      ⟨rfl, fun x hx => isPrintable_iff.mpr (hall x hx), hstop⟩
    rw [hdrop]
    cases hclose with
    | ended ends =>
        cases ends with
        | lf => rfl
        | crlf => rfl
    | finished => rfl

/-- Behind an item there may be blanks and a comment. -/
theorem skipLine_eq_some_iff :
    skipLine s = some rest ↔ ∃ t c, TailText t ∧ LineClose c rest ∧ s = t ++ (c ++ rest) := by
  unfold skipLine
  constructor
  · intro h
    obtain ⟨b, hb, hs⟩ := exists_spaces s
    split at h
    · next hend =>
      obtain rfl := Option.some.inj h
      rw [hend] at hs
      exact ⟨b ++ [], [], .mk hb .none, .finished, by simpa using hs⟩
    · next more hend =>
      obtain rfl := Option.some.inj h
      rw [hend] at hs
      exact ⟨b ++ [], ['\n'], .mk hb .none, .ended .lf, by simpa using hs⟩
    · next more hend =>
      obtain rfl := Option.some.inj h
      rw [hend] at hs
      exact ⟨b ++ [], ['\r', '\n'], .mk hb .none, .ended .crlf, by simpa using hs⟩
    · next more hend =>
      obtain ⟨t, c, hall, hclose, rfl⟩ := skipComment_eq_some_iff.mp h
      rw [hend] at hs
      exact ⟨b ++ '#' :: t, c, .mk hb (.some hall), hclose, by simpa using hs⟩
    · cases h
  · rintro ⟨t, c, @⟨b, u, hb, hcomment⟩, hclose, rfl⟩
    rw [List.append_assoc, skipSpace_append hb]
    cases hcomment with
    | some hall => exact skipComment_eq_some_iff.mpr ⟨_, c, hall, hclose, rfl⟩
    | none =>
        cases hclose with
        | ended ends =>
            cases ends with
            | lf => rfl
            | crlf => rfl
        | finished => rfl

theorem skipLines_nil : skipLines fuel [] = some [] := by
  cases fuel <;> rfl

/-- What is passed over in front of an item is blank, and a comment that the
    text ends with may be passed over too. -/
theorem exists_filler (h : skipLines fuel s = some rest) :
    ∃ l t, BlankLines l ∧ TailText t ∧ s = l ++ (t ++ rest) ∧ (rest ≠ [] → Spaces t) := by
  induction fuel generalizing s with
  | zero =>
      obtain rfl := Option.some.inj h
      exact ⟨[], [], .nil, .mk (b := []) nofun .none, rfl, fun _ => nofun⟩
  | succ fuel ih =>
      obtain ⟨b, hb, hs⟩ := exists_spaces s
      have hblank : TailText (b ++ []) := .mk hb .none
      rw [skipLines] at h
      split at h
      · next more hend =>
        obtain ⟨l, t, hl, ht, rfl, hspaces⟩ := ih h
        exact ⟨_, t, .line hblank .lf hl, ht, by rw [hs, hend]; simp, hspaces⟩
      · next more hend =>
        obtain ⟨l, t, hl, ht, rfl, hspaces⟩ := ih h
        exact ⟨_, t, .line hblank .crlf hl, ht, by rw [hs, hend]; simp, hspaces⟩
      · next more hend =>
        obtain ⟨more', hcomment, hmore⟩ := Option.bind_eq_some_iff.mp h
        obtain ⟨t, c, hall, hclose, rfl⟩ := skipComment_eq_some_iff.mp hcomment
        have htail : TailText (b ++ '#' :: t) := .mk hb (.some hall)
        cases hclose with
        | ended ends =>
            obtain ⟨l, t', hl, ht, rfl, hspaces⟩ := ih hmore
            exact ⟨_, t', .line htail ends hl, ht, by rw [hs, hend]; simp, hspaces⟩
        | finished =>
            obtain rfl := Option.some.inj (skipLines_nil.symm.trans hmore)
            exact ⟨[], _, .nil, htail, by rw [hs, hend]; simp, fun h => absurd rfl h⟩
      · cases h
      · obtain rfl := Option.some.inj h
        exact ⟨[], b ++ [], .nil, hblank, by simpa using hs, fun _ => by rwa [List.append_nil]⟩

/-- A line with nothing on it is passed over. -/
theorem skipLines_line (tail : TailText t) (ends : LineEnd e) (rest : List Char) :
    skipLines (fuel + 1) (t ++ (e ++ rest)) = skipLines fuel rest := by
  obtain ⟨spaces, comment⟩ := tail
  rw [List.append_assoc, skipLines, skipSpace_append spaces]
  cases comment with
  | none =>
      cases ends with
      | lf => rfl
      | crlf => rfl
  | some hall =>
      have hclose : LineClose e rest := .ended ends
      have hread := skipComment_eq_some_iff.mpr ⟨_, _, hall, hclose, rfl⟩
      rw [List.cons_append, skipSpace_cons (by decide) (by decide)]
      simp only [hread, Option.bind_some]

/-- What begins an item is not passed over. -/
theorem skipLines_begins (spaces : Spaces b) (begins : Begins rest) (enough : b.length ≤ fuel) :
    skipLines fuel (b ++ rest) = some rest := by
  cases fuel with
  | zero =>
      obtain rfl := List.length_eq_zero_iff.mp (Nat.le_zero.mp enough)
      rfl
  | succ fuel =>
      rw [skipLines, skipSpace_append spaces]
      cases rest with
      | nil => rfl
      | cons c rest =>
          have hc := begins c rfl
          simp only [List.mem_cons, List.not_mem_nil, or_false, not_or] at hc
          rw [skipSpace_cons hc.1 hc.2.1]
          split
          · next h => exact absurd (List.cons.inj h).1 hc.2.2.1
          · next h => exact absurd (List.cons.inj h).1 hc.2.2.2.1
          · next h => exact absurd (List.cons.inj h).1 hc.2.2.2.2
          · next h => exact absurd (List.cons.inj h).1 hc.2.2.2.1
          · rfl

theorem LineEnd.length_pos (h : LineEnd e) : 0 < e.length := by
  cases h <;> simp

/-- Everything is passed over in front of an item. -/
theorem skipLines_filler (h : FillerText t) (begins : Begins rest) (enough : t.length ≤ fuel) :
    skipLines fuel (t ++ rest) = some rest := by
  obtain @⟨l, b, lines, spaces⟩ := h
  rw [List.append_assoc]
  induction lines generalizing fuel with
  | nil => exact skipLines_begins spaces begins enough
  | line tail ends _ ih =>
      have hpos := ends.length_pos
      simp only [List.length_append] at enough
      obtain ⟨fuel, rfl⟩ : ∃ k, fuel = k + 1 := Nat.exists_eq_add_one.mpr (by omega)
      rw [List.append_assoc, List.append_assoc, skipLines_line tail ends,
        ih (by rw [List.length_append]; omega)]

/-- Everything is passed over at the end of a text. -/
theorem skipLines_end (lines : BlankLines l) (tail : TailText t)
    (enough : (l ++ t).length ≤ fuel) : skipLines fuel (l ++ t) = some [] := by
  induction lines generalizing fuel with
  | line tail' ends _ ih =>
      have hpos := ends.length_pos
      simp only [List.length_append] at enough
      obtain ⟨fuel, rfl⟩ : ∃ k, fuel = k + 1 := Nat.exists_eq_add_one.mpr (by omega)
      rw [List.append_assoc, List.append_assoc, skipLines_line tail' ends,
        ih (by rw [List.length_append]; omega)]
  | nil =>
      rw [List.nil_append] at enough ⊢
      obtain @⟨b, u, spaces, comment⟩ := tail
      cases comment with
      | none =>
          rw [List.append_nil] at enough
          exact skipLines_begins spaces nofun enough
      | some hall =>
          rw [List.length_append, List.length_cons] at enough
          obtain ⟨fuel, rfl⟩ : ∃ k, fuel = k + 1 := Nat.exists_eq_add_one.mpr (by omega)
          have hread := skipComment_eq_some_iff.mpr ⟨_, [], hall, .finished, rfl⟩
          rw [List.append_nil, List.append_nil] at hread
          rw [skipLines, skipSpace_append spaces, skipSpace_cons (by decide) (by decide)]
          simp only [hread, Option.bind_some, skipLines_nil]

end Fillers

end BusWindow.Toml
