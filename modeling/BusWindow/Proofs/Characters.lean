import Mathlib.Data.String.Basic
import BusWindow.Text.Utf8

/-!
# Characters — the bytes of a character read back as that character

    A character is written in one to four bytes, by the size of its code
    point. Each width has its own lemma, which reads the code point off the
    numbers of the bytes; `next?_encodeChar` puts the four together, and so
    the bytes of a whole text read back as the text (`lossy_ofString`). The
    other way round a character that is read stands there in its bytes, so
    that bytes can be decoded if and only if they are those of a text
    (`decode?_eq_some_iff`). A wider character begins with a greater byte,
    and so `ofString_lt_iff` finds texts in the same order by their code
    points as by their bytes.
-/

namespace BusWindow.Utf8

variable {a b c d : UInt8} {n : Nat}

theorem toNat_ofNat_of_lt (h : n < 256) : (UInt8.ofNat n).toNat = n := by
  rw [UInt8.toNat_ofNat']
  exact Nat.mod_eq_of_lt h

theorem toNat_ofNat_eq {k : Nat} (heq : k = n) (h : n < 256) : (UInt8.ofNat k).toNat = n := by
  rw [heq, toNat_ofNat_of_lt h]

/-! ## One lemma for each width -/

/-- Six bits behind the mark of a tail make a tail. -/
theorem isTail_of_toNat (h : b.toNat = 0x80 + n % 64) : isTail b = true := by
  simp only [isTail, UInt8.le_iff_toNat_le, UInt8.reduceToNat, h, Bool.and_eq_true,
    decide_eq_true_eq]
  omega

/-- A character of one byte is its byte. -/
theorem next?_one (ha : a.toNat = n) (below : n < 0x80) (rest : Bytes) :
    next? (a :: rest) = some (Char.ofNat n, rest) := by
  rw [next?.eq_def]
  simp only [UInt8.lt_iff_toNat_lt, UInt8.reduceToNat, ha]
  rw [if_pos below]

/-- Two bytes hold eleven bits between them. -/
theorem next?_two (ha : a.toNat = 0xC0 + n / 64) (hb : b.toNat = 0x80 + n % 64)
    (above : 0x80 ≤ n) (below : n < 0x800) (rest : Bytes) :
    next? (a :: b :: rest) = some (Char.ofNat n, rest) := by
  have hvalue : (0xC0 + n / 64 - 0xC0) * 64 + (0x80 + n % 64 - 0x80) = n := by omega
  rw [next?.eq_def]
  simp only [UInt8.lt_iff_toNat_lt, UInt8.reduceToNat, isTail_of_toNat hb, ha, hb, hvalue]
  rw [if_neg (by omega), if_neg (by omega), if_pos (by omega)]
  rfl

/-- The second byte of three has a narrower range after the first bytes of
    the least characters and of those next to the halves of a character. -/
theorem secondOfThree_of_toNat (ha : a.toNat = 0xE0 + n / 4096)
    (hb : b.toNat = 0x80 + n / 64 % 64) (above : 0x800 ≤ n)
    (scalar : n < 0xD800 ∨ 0xE000 ≤ n) : secondOfThree a b = true := by
  simp only [secondOfThree, isTail, ← UInt8.toNat_inj, UInt8.le_iff_toNat_le,
    UInt8.reduceToNat, ha, hb]
  split
  · simp only [Bool.and_eq_true, decide_eq_true_eq]
    omega
  · split <;> simp only [Bool.and_eq_true, decide_eq_true_eq] <;> omega

/-- Three bytes hold sixteen, surrogates apart. -/
theorem next?_three (ha : a.toNat = 0xE0 + n / 4096) (hb : b.toNat = 0x80 + n / 64 % 64)
    (hc : c.toNat = 0x80 + n % 64) (above : 0x800 ≤ n) (below : n < 0x10000)
    (scalar : n < 0xD800 ∨ 0xE000 ≤ n) (rest : Bytes) :
    next? (a :: b :: c :: rest) = some (Char.ofNat n, rest) := by
  have hvalue : (0xE0 + n / 4096 - 0xE0) * 4096 + (0x80 + n / 64 % 64 - 0x80) * 64
      + (0x80 + n % 64 - 0x80) = n := by omega
  have hsecond := secondOfThree_of_toNat ha hb above scalar
  rw [next?.eq_def]
  simp only [UInt8.lt_iff_toNat_lt, UInt8.reduceToNat, hsecond, isTail_of_toNat hc, ha, hb, hc,
    hvalue]
  rw [if_neg (by omega), if_neg (by omega), if_neg (by omega), if_pos (by omega)]
  rfl

theorem secondOfFour_of_toNat (ha : a.toNat = 0xF0 + n / 262144)
    (hb : b.toNat = 0x80 + n / 4096 % 64) (above : 0x10000 ≤ n) (below : n < 0x110000) :
    secondOfFour a b = true := by
  simp only [secondOfFour, isTail, ← UInt8.toNat_inj, UInt8.le_iff_toNat_le,
    UInt8.reduceToNat, ha, hb]
  split
  · simp only [Bool.and_eq_true, decide_eq_true_eq]
    omega
  · split <;> simp only [Bool.and_eq_true, decide_eq_true_eq] <;> omega

/-- Four bytes hold what is left of the characters. -/
theorem next?_four (ha : a.toNat = 0xF0 + n / 262144) (hb : b.toNat = 0x80 + n / 4096 % 64)
    (hc : c.toNat = 0x80 + n / 64 % 64) (hd : d.toNat = 0x80 + n % 64) (above : 0x10000 ≤ n)
    (below : n < 0x110000) (rest : Bytes) :
    next? (a :: b :: c :: d :: rest) = some (Char.ofNat n, rest) := by
  have hvalue : (0xF0 + n / 262144 - 0xF0) * 262144 + (0x80 + n / 4096 % 64 - 0x80) * 4096
      + (0x80 + n / 64 % 64 - 0x80) * 64 + (0x80 + n % 64 - 0x80) = n := by omega
  have hsecond := secondOfFour_of_toNat ha hb above below
  have hthird : isTail c = true := isTail_of_toNat hc
  rw [next?.eq_def]
  simp only [UInt8.lt_iff_toNat_lt, UInt8.reduceToNat, hsecond, hthird, isTail_of_toNat hd, ha, hb,
    hc, hd, hvalue]
  rw [if_neg (by omega), if_neg (by omega), if_neg (by omega), if_neg (by omega),
    if_pos (by omega)]
  rfl

/-! ## Characters and texts -/

/-- Where the code points of characters lie: not between the halves of a
    character, and not above the last plane. -/
theorem toNat_char_range (c : Char) :
    (c.toNat < 0xD800 ∨ 0xE000 ≤ c.toNat) ∧ c.toNat < 0x110000 := by
  have hvalid : c.toNat < 0xD800 ∨ 0xDFFF < c.toNat ∧ c.toNat < 0x110000 := c.valid
  omega

/-- The bytes of a character by the size of its code point. -/
theorem encodeChar_eq (c : Char) :
    String.utf8EncodeChar c
      = if c.toNat ≤ 0x7F then [UInt8.ofNat c.toNat]
        else if c.toNat ≤ 0x7FF then
          [UInt8.ofNat (c.toNat / 64 % 32 + 0xC0), UInt8.ofNat (c.toNat % 64 + 0x80)]
        else if c.toNat ≤ 0xFFFF then
          [UInt8.ofNat (c.toNat / 4096 % 16 + 0xE0), UInt8.ofNat (c.toNat / 64 % 64 + 0x80),
            UInt8.ofNat (c.toNat % 64 + 0x80)]
        else
          [UInt8.ofNat (c.toNat / 262144 % 8 + 0xF0), UInt8.ofNat (c.toNat / 4096 % 64 + 0x80),
            UInt8.ofNat (c.toNat / 64 % 64 + 0x80), UInt8.ofNat (c.toNat % 64 + 0x80)] :=
  rfl

/-- A character below `0x80` is its own byte; every other character begins
    with a byte from there on. -/
theorem encodeChar_cases (c : Char) :
    c.toNat < 0x80 ∧ String.utf8EncodeChar c = [UInt8.ofNat c.toNat]
      ∨ 0x80 ≤ c.toNat ∧ ∃ a more, String.utf8EncodeChar c = a :: more ∧ 0x80 ≤ a.toNat := by
  have hlast := (toNat_char_range c).2
  rw [encodeChar_eq]
  split
  · exact Or.inl ⟨by omega, rfl⟩
  · refine Or.inr ⟨by omega, ?_⟩
    split
    · refine ⟨_, _, rfl, ?_⟩
      rw [toNat_ofNat_of_lt (by omega)]
      omega
    · split
      · refine ⟨_, _, rfl, ?_⟩
        rw [toNat_ofNat_of_lt (by omega)]
        omega
      · refine ⟨_, _, rfl, ?_⟩
        rw [toNat_ofNat_of_lt (by omega)]
        omega

/-- The bytes of a character, whatever comes after them, read back as that
    character. -/
theorem next?_encodeChar (c : Char) (rest : Bytes) :
    next? (String.utf8EncodeChar c ++ rest) = some (c, rest) := by
  obtain ⟨hscalar, hlast⟩ := toNat_char_range c
  have hread : Char.ofNat c.toNat = c := Char.ofNat_toNat c
  rw [encodeChar_eq]
  generalize c.toNat = n at hscalar hlast hread ⊢
  rw [← hread]
  split
  · exact next?_one (toNat_ofNat_of_lt (by omega)) (by omega) rest
  · split
    · exact next?_two (toNat_ofNat_eq (by omega) (by omega))
        (toNat_ofNat_eq (by omega) (by omega)) (by omega) (by omega) rest
    · split
      · exact next?_three (toNat_ofNat_eq (by omega) (by omega))
          (toNat_ofNat_eq (by omega) (by omega)) (toNat_ofNat_eq (by omega) (by omega))
          (by omega) (by omega) hscalar rest
      · exact next?_four (toNat_ofNat_eq (by omega) (by omega))
          (toNat_ofNat_eq (by omega) (by omega)) (toNat_ofNat_eq (by omega) (by omega))
          (toNat_ofNat_eq (by omega) (by omega)) (by omega) hlast rest

@[simp] theorem encode_nil : encode [] = [] := rfl

theorem encode_cons (c : Char) (text : List Char) :
    encode (c :: text) = String.utf8EncodeChar c ++ encode text :=
  List.flatMap_cons

/-- A text is encoded character by character. -/
@[simp] theorem encode_append (text more : List Char) :
    encode (text ++ more) = encode text ++ encode more :=
  List.flatMap_append

@[simp] theorem ofString_append (text more : String) :
    ofString (text ++ more) = ofString text ++ ofString more := by
  rw [ofString, String.toList_append, encode_append]
  rfl

@[simp] theorem ofString_ofList (text : List Char) :
    ofString (String.ofList text) = encode text := by
  rw [ofString, String.toList_ofList]

/-! ## Texts read back -/

/-- The bytes of a text are read as its characters, behind those that were
    read before. -/
theorem lossyFrom_encode (text read : List Char) :
    lossyFrom read (encode text) = read.reverse ++ text := by
  induction text generalizing read with
  | nil =>
      rw [encode_nil, lossyFrom, List.append_nil]
  | cons c text ih =>
      have hnext := next?_encodeChar c (encode text)
      rw [encode_cons]
      rw [lossyFrom.eq_def]
      split
      · next heq =>
        rw [heq] at hnext
        cases hnext
      · next heq =>
        rw [heq] at hnext
        split
        · next h =>
          obtain ⟨rfl, rfl⟩ := Prod.mk.inj (Option.some.inj (hnext.symm.trans h))
          rw [ih, List.reverse_cons, List.append_assoc]
          rfl
        · next h => cases hnext.symm.trans h

/-- Nothing is replaced in the bytes of a text. -/
@[simp] theorem lossy_ofString (text : String) : lossy (ofString text) = text := by
  rw [lossy, ofString, lossyFrom_encode, List.reverse_nil, List.nil_append, String.ofList_toList]

/-! ## Bytes that are those of a text -/

/-- A number that is a scalar value is that of its character. -/
theorem toNat_charOfNat (scalar : n < 0xD800 ∨ 0xE000 ≤ n) (below : n < 0x110000) :
    (Char.ofNat n).toNat = n := by
  have hvalid : n.isValidChar := by
    rcases scalar with h | h
    · exact Or.inl h
    · exact Or.inr ⟨by omega, below⟩
  rw [Char.ofNat, dif_pos hvalid]
  rfl

theorem ofNat_eq_of_toNat (h : a.toNat = n) : UInt8.ofNat n = a := by
  rw [← h, UInt8.ofNat_toNat]

/-- The range of a tail. -/
theorem toNat_of_isTail (h : isTail b = true) : 0x80 ≤ b.toNat ∧ b.toNat ≤ 0xBF := by
  simpa [isTail, UInt8.le_iff_toNat_le] using h

/-- A second byte of three is a tail, and keeps to the narrower range behind
    the first bytes at the ends of the range. -/
theorem toNat_of_secondOfThree (h : secondOfThree a b = true) :
    0x80 ≤ b.toNat ∧ b.toNat ≤ 0xBF ∧ (a.toNat = 0xE0 → 0xA0 ≤ b.toNat)
      ∧ (a.toNat = 0xED → b.toNat ≤ 0x9F) := by
  simp only [secondOfThree, isTail, ← UInt8.toNat_inj, UInt8.le_iff_toNat_le,
    UInt8.reduceToNat] at h
  split at h
  · simp only [Bool.and_eq_true, decide_eq_true_eq] at h
    omega
  · split at h <;> simp only [Bool.and_eq_true, decide_eq_true_eq] at h <;> omega

theorem toNat_of_secondOfFour (h : secondOfFour a b = true) :
    0x80 ≤ b.toNat ∧ b.toNat ≤ 0xBF ∧ (a.toNat = 0xF0 → 0x90 ≤ b.toNat)
      ∧ (a.toNat = 0xF4 → b.toNat ≤ 0x8F) := by
  simp only [secondOfFour, isTail, ← UInt8.toNat_inj, UInt8.le_iff_toNat_le,
    UInt8.reduceToNat] at h
  split at h
  · simp only [Bool.and_eq_true, decide_eq_true_eq] at h
    omega
  · split at h <;> simp only [Bool.and_eq_true, decide_eq_true_eq] at h <;> omega

/-- The other way round, a character in the range of two bytes is encoded in
    these two. -/
theorem encodeChar_two (ha : a.toNat = 0xC0 + n / 64) (hb : b.toNat = 0x80 + n % 64)
    (above : 0x80 ≤ n) (below : n < 0x800) :
    String.utf8EncodeChar (Char.ofNat n) = [a, b] := by
  rw [encodeChar_eq, toNat_charOfNat (by omega) (by omega), if_neg (by omega), if_pos (by omega),
    ofNat_eq_of_toNat (a := a) (by omega), ofNat_eq_of_toNat (a := b) (by omega)]

/-- So is one in the range of three. -/
theorem encodeChar_three (ha : a.toNat = 0xE0 + n / 4096) (hb : b.toNat = 0x80 + n / 64 % 64)
    (hc : c.toNat = 0x80 + n % 64) (above : 0x800 ≤ n) (below : n < 0x10000)
    (scalar : n < 0xD800 ∨ 0xE000 ≤ n) :
    String.utf8EncodeChar (Char.ofNat n) = [a, b, c] := by
  rw [encodeChar_eq, toNat_charOfNat scalar (by omega), if_neg (by omega), if_neg (by omega),
    if_pos (by omega), ofNat_eq_of_toNat (a := a) (by omega), ofNat_eq_of_toNat (a := b) (by omega),
    ofNat_eq_of_toNat (a := c) (by omega)]

/-- And one in the range of four. -/
theorem encodeChar_four (ha : a.toNat = 0xF0 + n / 262144) (hb : b.toNat = 0x80 + n / 4096 % 64)
    (hc : c.toNat = 0x80 + n / 64 % 64) (hd : d.toNat = 0x80 + n % 64) (above : 0x10000 ≤ n)
    (below : n < 0x110000) : String.utf8EncodeChar (Char.ofNat n) = [a, b, c, d] := by
  rw [encodeChar_eq, toNat_charOfNat (by omega) below, if_neg (by omega), if_neg (by omega),
    if_neg (by omega), ofNat_eq_of_toNat (a := a) (by omega), ofNat_eq_of_toNat (a := b) (by omega),
    ofNat_eq_of_toNat (a := c) (by omega), ofNat_eq_of_toNat (a := d) (by omega)]

/-- A character that is read stands there in its bytes. -/
theorem eq_encodeChar_of_next? {s rest : Bytes} {x : Char} (h : next? s = some (x, rest)) :
    s = String.utf8EncodeChar x ++ rest := by
  rw [next?.eq_def] at h
  split at h
  · cases h
  · next a more =>
    simp only [UInt8.lt_iff_toNat_lt, UInt8.reduceToNat] at h
    split at h
    · next ha =>
      obtain ⟨rfl, rfl⟩ := Prod.mk.inj (Option.some.inj h)
      rw [encodeChar_eq, toNat_charOfNat (by omega) (by omega), if_pos (by omega),
        UInt8.ofNat_toNat]
      rfl
    split at h
    · cases h
    split at h
    · split at h
      · next b more =>
        split at h
        · next hb =>
          have hb := toNat_of_isTail hb
          obtain ⟨rfl, rfl⟩ := Prod.mk.inj (Option.some.inj h)
          rw [encodeChar_two (a := a) (b := b) (by omega) (by omega) (by omega) (by omega)]
          rfl
        · cases h
      · cases h
    split at h
    · split at h
      · next b c more =>
        split at h
        · next htails =>
          obtain ⟨hsecond, hthird⟩ := Bool.and_eq_true_iff.mp htails
          have hb := toNat_of_secondOfThree hsecond
          have hc := toNat_of_isTail hthird
          obtain ⟨rfl, rfl⟩ := Prod.mk.inj (Option.some.inj h)
          rw [encodeChar_three (a := a) (b := b) (c := c) (by omega) (by omega) (by omega)
            (by omega) (by omega) (by omega)]
          rfl
        · cases h
      · cases h
    split at h
    · split at h
      · next b c d more =>
        split at h
        · next htails =>
          obtain ⟨htwo, hfourth⟩ := Bool.and_eq_true_iff.mp htails
          obtain ⟨hsecond, hthird⟩ := Bool.and_eq_true_iff.mp htwo
          have hb := toNat_of_secondOfFour hsecond
          have hc := toNat_of_isTail hthird
          have hd := toNat_of_isTail hfourth
          obtain ⟨rfl, rfl⟩ := Prod.mk.inj (Option.some.inj h)
          rw [encodeChar_four (a := a) (b := b) (c := c) (d := d) (by omega) (by omega)
            (by omega) (by omega) (by omega) (by omega)]
          rfl
        · cases h
      · cases h
    · cases h

/-- Decoding goes on behind the first character. -/
theorem decodeFrom_of_next? {s rest : Bytes} {x : Char} (h : next? s = some (x, rest))
    (read : List Char) : decodeFrom read s = decodeFrom (x :: read) rest := by
  rw [decodeFrom.eq_def]
  split
  · cases h
  · split
    · next heq =>
      obtain ⟨rfl, rfl⟩ := Prod.mk.inj (Option.some.inj (h.symm.trans heq))
      rfl
    · next heq => cases h.symm.trans heq

/-- Decoding stops where no character begins. -/
theorem decodeFrom_of_none {s : Bytes} (nonempty : s ≠ []) (h : next? s = none)
    (read : List Char) : decodeFrom read s = none := by
  rw [decodeFrom.eq_def]
  split
  · exact absurd rfl nonempty
  · split
    · next heq => cases h.symm.trans heq
    · rfl

/-- The bytes of a text are decoded as its characters, behind those that were
    read before. -/
theorem decodeFrom_encode (text read : List Char) :
    decodeFrom read (encode text) = some (read.reverse ++ text) := by
  induction text generalizing read with
  | nil => rw [encode_nil, decodeFrom, List.append_nil]
  | cons c text ih =>
      rw [encode_cons, decodeFrom_of_next? (next?_encodeChar c _), ih, List.reverse_cons,
        List.append_assoc]
      rfl

/-- Bytes that can be decoded are those of the characters that are read. -/
theorem exists_of_decodeFrom {s : Bytes} {read text : List Char}
    (h : decodeFrom read s = some text) :
    ∃ more, text = read.reverse ++ more ∧ s = encode more := by
  induction read, s using decodeFrom.induct with
  | case1 read =>
      rw [decodeFrom] at h
      exact ⟨[], by rw [List.append_nil, Option.some.inj h], rfl⟩
  | case2 read a bytes c rest hnext _ ih =>
      rw [decodeFrom_of_next? hnext] at h
      obtain ⟨more, rfl, rfl⟩ := ih h
      refine ⟨c :: more, by simp, ?_⟩
      rw [encode_cons, eq_encodeChar_of_next? hnext]
  | case3 read a bytes hnext =>
      rw [decodeFrom_of_none (List.cons_ne_nil a bytes) hnext] at h
      exact nomatch h

/-- Bytes are decoded as a text if and only if they are its bytes. -/
theorem decode?_eq_some_iff {s : Bytes} {text : String} :
    decode? s = some text ↔ ofString text = s := by
  rw [decode?, Option.map_eq_some_iff]
  constructor
  · rintro ⟨read, hread, rfl⟩
    obtain ⟨more, rfl, rfl⟩ := exists_of_decodeFrom hread
    exact ofString_ofList _
  · rintro rfl
    exact ⟨text.toList, decodeFrom_encode text.toList [], String.ofList_toList⟩

/-- What is written of a text is read back. -/
theorem decode?_ofString (text : String) : decode? (ofString text) = some text :=
  decode?_eq_some_iff.mpr rfl

/-! ## The order of texts -/

/-- Lists whose first bytes are in order, and that are in order behind them if
    those are the same. -/
theorem cons_lt_cons {m n : Nat} {x y : Bytes} (le : m ≤ n) (small : n < 256)
    (behind : m = n → x < y) : UInt8.ofNat m :: x < UInt8.ofNat n :: y := by
  rw [List.cons_lt_cons_iff]
  rcases Nat.lt_or_eq_of_le le with hlt | heq
  · refine Or.inl ?_
    rwa [UInt8.lt_iff_toNat_lt, toNat_ofNat_of_lt (hlt.trans small), toNat_ofNat_of_lt small]
  · exact Or.inr ⟨congrArg UInt8.ofNat heq, behind heq⟩

/-- Of two characters, the bytes of the one with the lesser code point come
    first, whatever stands behind them. -/
theorem encodeChar_append_lt {c d : Char} (h : c < d) (x y : Bytes) :
    String.utf8EncodeChar c ++ x < String.utf8EncodeChar d ++ y := by
  have hlt : c.toNat < d.toNat := h
  have hlast := (toNat_char_range d).2
  rw [encodeChar_eq, encodeChar_eq]
  generalize c.toNat = m at hlt
  generalize d.toNat = n at hlt hlast
  -- a wider character begins with a greater byte; in the same width the
  -- digits to the base 64 decide, from the first one on
  split
  · split
    · exact cons_lt_cons (by omega) (by omega) fun _ => by omega
    · split
      · exact cons_lt_cons (by omega) (by omega) fun _ => by omega
      · split <;> exact cons_lt_cons (by omega) (by omega) fun _ => by omega
  · rw [if_neg (show ¬ n ≤ 0x7F by omega)]
    split
    · split
      · exact cons_lt_cons (by omega) (by omega) fun _ =>
          cons_lt_cons (by omega) (by omega) fun _ => by omega
      · split <;> exact cons_lt_cons (by omega) (by omega) fun _ => by omega
    · rw [if_neg (show ¬ n ≤ 0x7FF by omega)]
      split
      · split
        · exact cons_lt_cons (by omega) (by omega) fun _ =>
            cons_lt_cons (by omega) (by omega) fun _ =>
            cons_lt_cons (by omega) (by omega) fun _ => by omega
        · exact cons_lt_cons (by omega) (by omega) fun _ => by omega
      · rw [if_neg (show ¬ n ≤ 0xFFFF by omega)]
        exact cons_lt_cons (by omega) (by omega) fun _ =>
          cons_lt_cons (by omega) (by omega) fun _ =>
          cons_lt_cons (by omega) (by omega) fun _ =>
          cons_lt_cons (by omega) (by omega) fun _ => by omega

/-- Texts are in the order of their bytes. -/
theorem encode_lt_encode {a b : List Char} (h : a < b) : encode a < encode b := by
  induction h with
  | @nil d more =>
      rw [encode_cons]
      rcases encodeChar_cases d with ⟨-, heq⟩ | ⟨-, a, rest, heq, -⟩
      · rw [heq]
        exact List.nil_lt_cons _ _
      · rw [heq]
        exact List.nil_lt_cons _ _
  | rel h =>
      rw [encode_cons, encode_cons]
      exact encodeChar_append_lt h _ _
  | cons h ih =>
      rw [encode_cons, encode_cons]
      exact List.append_left_lt ih

/-- Strings are ordered as their bytes are. -/
theorem ofString_lt_iff {a b : String} : ofString a < ofString b ↔ a < b := by
  refine ⟨fun h => ?_, fun h => encode_lt_encode h⟩
  rcases lt_trichotomy a b with hlt | rfl | hgt
  · exact hlt
  · exact absurd h (List.lt_irrefl _)
  · exact absurd h (List.lt_asymm (encode_lt_encode hgt))

end BusWindow.Utf8
