import BusWindow.Proofs.Calendar

/-!
# Times — the exact text of a timestamp is read as that timestamp

    A number that is padded to its width is read back, because the digits are
    taken up to the width or up to what is no digit. Date and time of day are
    put together of such numbers, the fraction is written in the shortest of
    four widths, and the calendar leads from the date back to the day
    (`toDays_ofDays`).

    * `datePart_dateText`, `timePart_text` and `fractionPart_fractionText`
      read the parts;
    * `ofString_text` is the whole statement, for the years with four digits
      and outside of leap seconds.
-/

namespace BusWindow.Timestamp

/-! ## Digits -/

theorem decimal_eq (ds : List Char) : decimal ds = Nat.ofDigitChars 10 ds 0 := by
  have hstep : (fun (n : Nat) (c : Char) => n * 10 + (c.toNat - 48))
      = fun n c => 10 * n + (c.toNat - '0'.toNat) := by
    funext n c
    rw [Nat.mul_comm]
    rfl
  rw [decimal, hstep]
  rfl

theorem trimStart_cons {c : Char} (h : Text.isBlank c = false) (rest : List Char) :
    Text.trimStart (c :: rest) = c :: rest := by
  rw [Text.trimStart, List.dropWhile_cons, h]
  rfl

section Padded

variable {width n : Nat} (pos : 0 < width) (fits : n < 10 ^ width)

include pos fits in
theorem length_padded : (padded width n).length = width := by
  have hle : (Nat.toDigits 10 n).length ≤ width :=
    (Nat.length_toDigits_le_iff (by decide) pos).mpr fits
  rw [padded, List.length_append, List.length_replicate]
  omega

theorem isDigit_of_mem_padded {c : Char} (h : c ∈ padded width n) : isDigit c = true := by
  rcases List.mem_append.mp h with hzero | hdigit
  · rw [List.eq_of_mem_replicate hzero]
    rfl
  · exact Nat.isDigit_of_mem_toDigits (by decide) (by decide) hdigit

/-- The zeros in front do not change the number. -/
theorem decimal_padded : decimal (padded width n) = n := by
  rw [decimal_eq, padded, Nat.ofDigitChars_append, Nat.ofDigitChars_replicate_zero, Nat.mul_zero,
    Nat.ofDigitChars_toDigits (by decide) (by decide)]

include pos fits in
theorem exists_padded_eq : ∃ c more, padded width n = c :: more ∧ isDigit c = true := by
  have hlength := length_padded pos fits
  cases hpadded : padded width n with
  | nil =>
      rw [hpadded] at hlength
      exact absurd hlength (Nat.ne_of_lt pos)
  | cons c more =>
      exact ⟨c, more, rfl, isDigit_of_mem_padded (hpadded ▸ List.mem_cons_self)⟩

include pos fits in
theorem trimStart_padded (rest : List Char) :
    Text.trimStart (padded width n ++ rest) = padded width n ++ rest := by
  obtain ⟨c, more, heq, hc⟩ := exists_padded_eq pos fits
  rw [heq, List.cons_append, trimStart_cons (Text.isBlank_of_isDigit hc)]

include pos fits in
/-- A padded number is taken to its end, if its width is all there is room
    for or what follows is no digit. -/
theorem digits_padded {room : Nat} (le : width ≤ room) {rest : List Char}
    (ends : width = room ∨ ∀ c ∈ rest.head?, isDigit c = false) :
    digits room (padded width n ++ rest) = .ok (padded width n, rest) := by
  have hall : ∀ c ∈ padded width n, isDigit c = true := fun c hc => isDigit_of_mem_padded hc
  have hlength := length_padded pos fits
  have hmore : (rest.take (room - width)).takeWhile isDigit = [] := by
    rcases ends with rfl | hends
    · rw [Nat.sub_self]
      rfl
    · cases rest with
      | nil => rw [List.take_nil, List.takeWhile_nil]
      | cons c more =>
          have hc : isDigit c = false := hends c rfl
          cases room - width with
          | zero => rfl
          | succ k => simp [hc]
  have htaken : ((padded width n ++ rest).take room).takeWhile isDigit = padded width n := by
    rw [List.take_append, List.take_of_length_le (by omega), hlength,
      List.takeWhile_append_of_pos hall, hmore, List.append_nil]
  obtain ⟨c, more, heq, hc⟩ := exists_padded_eq pos fits
  have hdigits : digits room (c :: (more ++ rest))
      = .ok (((c :: (more ++ rest)).take room).takeWhile isDigit,
          (c :: (more ++ rest)).drop
            (((c :: (more ++ rest)).take room).takeWhile isDigit).length) := if_pos hc
  rw [← List.cons_append, ← heq, htaken, List.drop_left] at hdigits
  exact hdigits

end Padded

/-! ## The parts of a text -/

theorem sign_cons {c : Char} (h : Text.isBlank c = false) (rest : List Char) :
    sign c (c :: rest) = .ok ((), rest) := by
  rw [sign, trimStart_cons h]
  exact if_pos rfl

/-- A number of two digits within its bounds is read. -/
theorem part_padded {low high n : Nat} (hlow : low ≤ n) (hhigh : n ≤ high) (fits : n < 100)
    (rest : List Char) : part low high (padded 2 n ++ rest) = .ok (n, rest) := by
  have hdigits : digits 2 (padded 2 n ++ rest) = .ok (padded 2 n, rest) :=
    digits_padded (by decide) fits (Nat.le_refl 2) (Or.inl rfl)
  rw [part, trimStart_padded (by decide) fits, hdigits]
  simp only [decimal_padded]
  exact if_pos ⟨hlow, hhigh⟩

/-- A year without a sign has at most four digits. -/
theorem year_digit {c : Char} (h : isDigit c = true) {more rest ds : List Char}
    (hdigits : digits 4 (c :: more) = .ok (ds, rest)) (held : isYearHeld (decimal ds) = true) :
    year (c :: more) = .ok ((decimal ds : Int), rest) := by
  rw [year, trimStart_cons (Text.isBlank_of_isDigit h)]
  split
  · next heq =>
    obtain ⟨rfl, -⟩ := List.cons.inj heq
    exact absurd h (by decide)
  · next heq =>
    obtain ⟨rfl, -⟩ := List.cons.inj heq
    exact absurd h (by decide)
  · rw [hdigits, Except.bind]
    show (if isYearHeld (decimal ds) = true then Except.ok ((decimal ds : Int), rest) else _) = _
    rw [if_pos held]

/-- A year of four digits is read. -/
theorem year_yearText {y : Int} (low : 0 ≤ y) (high : y ≤ 9999) (rest : List Char) :
    year (yearText y ++ rest) = .ok (y, rest) := by
  have fits : y.toNat < 10 ^ 4 := by omega
  have hdigits : digits 4 (padded 4 y.toNat ++ rest) = .ok (padded 4 y.toNat, rest) :=
    digits_padded (by decide) fits (Nat.le_refl 4) (Or.inl rfl)
  have hheld : isYearHeld (decimal (padded 4 y.toNat)) = true := by
    simp only [isYearHeld, decimal_padded, Bool.and_eq_true, decide_eq_true_eq]
    omega
  obtain ⟨c, more, heq, hc⟩ := exists_padded_eq (by decide) fits
  rw [yearText, if_pos ⟨low, high⟩]
  rw [heq, List.cons_append] at hdigits ⊢
  rw [year_digit hc hdigits (heq ▸ hheld), ← heq, decimal_padded, Int.toNat_of_nonneg low]

/-- Digits behind a point are read, and count as so many nanoseconds. -/
theorem fractionPart_padded {width n : Nat} (pos : 0 < width) (le : width ≤ 9)
    (fits : n < 10 ^ width) (rest : List Char) :
    fractionPart ('.' :: (padded width n ++ 'Z' :: rest))
      = .ok (n * 10 ^ (9 - width), 'Z' :: rest) := by
  have hdigits : digits 9 (padded width n ++ 'Z' :: rest) = .ok (padded width n, 'Z' :: rest) := by
    refine digits_padded pos fits le (Or.inr ?_)
    intro c hc
    obtain rfl := Option.some.inj hc
    rfl
  rw [fractionPart, hdigits]
  simp only [decimal_padded, length_padded pos fits]
  rfl

variable {t : Timestamp}

/-- Whichever of its widths a fraction has, it is read. -/
theorem fractionPart_fractionText (t : Timestamp) (rest : List Char) :
    fractionPart (t.fractionText ++ 'Z' :: rest) = .ok (t.fraction, 'Z' :: rest) := by
  have hlt : t.fraction < 1000000000 := Nat.mod_lt _ (by decide)
  rw [fractionText]
  split
  · next hzero =>
    rw [hzero]
    rfl
  · split
    · next hmillis =>
      have hread := fractionPart_padded (n := t.fraction / 1000000) (by decide) (by decide)
        (show _ < 10 ^ 3 by omega) rest
      rw [show t.fraction / 1000000 * 10 ^ (9 - 3) = t.fraction by omega] at hread
      exact hread
    · split
      · next hmicros =>
        have hread := fractionPart_padded (n := t.fraction / 1000) (by decide) (by decide)
          (show _ < 10 ^ 6 by omega) rest
        rw [show t.fraction / 1000 * 10 ^ (9 - 6) = t.fraction by omega] at hread
        exact hread
      · have hread := fractionPart_padded (n := t.fraction) (by decide) (by decide)
          (show _ < 10 ^ 9 by omega) rest
        rw [show t.fraction * 10 ^ (9 - 9) = t.fraction by omega] at hread
        exact hread

/-! ## Date and time of day -/

theorem isDate_date (t : Timestamp) : t.date.IsDate := Date.isDate_ofDays _

/-- The date that was written is read. -/
theorem datePart_dateText (low : 0 ≤ t.date.year) (high : t.date.year ≤ 9999)
    (rest : List Char) : datePart (t.dateText ++ rest) = .ok (t.date, rest) := by
  obtain ⟨hmonth, hmonth', hday, hday'⟩ := t.isDate_date
  have hlast : t.date.day ≤ 31 := Nat.le_trans hday' (Date.daysInMonth_le _ _)
  have hdash (s : List Char) : sign '-' ('-' :: s) = .ok ((), s) := sign_cons rfl s
  have hreadMonth (s : List Char) :
      part 1 12 (padded 2 t.date.month ++ s) = .ok (t.date.month, s) :=
    part_padded hmonth hmonth' (by omega) s
  have hreadDay (s : List Char) : part 1 31 (padded 2 t.date.day ++ s) = .ok (t.date.day, s) :=
    part_padded hday hlast (by omega) s
  simp only [dateText, datePart, List.append_assoc, List.cons_append, year_yearText low high, hdash,
    hreadMonth, hreadDay, bind, Except.bind, pure, Except.pure]

/-- The time of day that was written is read, down to the nanosecond. -/
theorem timePart_text (below : t.nanos < 1000000000) (rest : List Char) :
    timePart (t.clockText ++ (t.fractionText ++ 'Z' :: rest))
      = .ok ((t.secondOfDay, t.nanos), 'Z' :: rest) := by
  have hday : t.secondOfDay < 86400 := by
    rw [secondOfDay]
    omega
  have hcolon (s : List Char) : sign ':' (':' :: s) = .ok ((), s) := sign_cons rfl s
  have hpart {high n : Nat} (hn : n ≤ high) (fits : n < 100) (s : List Char) :
      part 0 high (padded 2 n ++ s) = .ok (n, s) := part_padded (Nat.zero_le n) hn fits s
  have hfraction : t.fraction = t.nanos := Nat.mod_eq_of_lt below
  -- outside of a leap second no second is the sixtieth
  have hwhole : t.nanos / 1000000000 = 0 := Nat.div_eq_of_lt below
  have hsecond : ¬ t.secondOfDay % 60 = 60 := by omega
  have htogether : t.secondOfDay / 3600 * 3600 + t.secondOfDay / 60 % 60 * 60
      + t.secondOfDay % 60 = t.secondOfDay := by omega
  simp only [clockText, timePart, hwhole, Nat.add_zero, List.append_assoc, List.cons_append,
    hpart (show t.secondOfDay / 3600 ≤ 23 by omega) (by omega), hcolon,
    hpart (show t.secondOfDay / 60 % 60 ≤ 59 by omega) (by omega),
    hpart (show t.secondOfDay % 60 ≤ 60 by omega) (by omega), fractionPart_fractionText,
    hfraction, if_neg hsecond, Nat.sub_zero, Nat.zero_mul, htogether, bind, Except.bind, pure,
    Except.pure]

/-! ## Whole timestamps -/

/-- The date of a timestamp and its time of day make the timestamp. -/
theorem assemble_date (low : 0 ≤ t.date.year) (high : t.date.year ≤ 9999) :
    assemble t.date t.secondOfDay t.nanos 0 = .ok t := by
  have hreal : isRealDate t.date = true := by
    rw [isRealDate, decide_eq_true t.isDate_date.day_le, Bool.and_true, isYearInRange,
      decide_eq_true (by omega), decide_eq_true (by omega)]
    rfl
  have hback : (⟨t.date.toDays * 86400 + t.secondOfDay - 0 * 60, t.nanos⟩ : Timestamp) = t := by
    have hdays : t.date.toDays = t.seconds / 86400 := Date.toDays_ofDays _
    have hseconds : t.date.toDays * 86400 + t.secondOfDay - 0 * 60 = t.seconds := by
      rw [hdays, secondOfDay]
      omega
    rw [hseconds]
  have hinRange : isYearInRange t.date.year = true := by
    rw [isYearInRange, decide_eq_true (by omega), decide_eq_true (by omega)]
    rfl
  simp only [assemble, hreal, hback, hinRange]
  rfl

/-- **TIMES READ BACK**: the exact text of a timestamp in the years from 0 to
    9999, outside of leap seconds, is read as that timestamp. -/
theorem ofString_text (low : 0 ≤ t.date.year) (high : t.date.year ≤ 9999)
    (below : t.nanos < 1000000000) : ofString t.text = .ok t := by
  have hseparator (s : List Char) : separator ('T' :: s) = .ok ((), s) := rfl
  have hoffset : offset (Text.trimStart ['Z']) = .ok (0, []) := rfl
  have hend : Text.allBlank [] = true := rfl
  rw [ofString, text, String.toList_ofList]
  simp only [ofChars, List.append_assoc, List.cons_append, datePart_dateText low high, hseparator,
    timePart_text below, hoffset, hend, if_true, assemble_date low high, bind, Except.bind]

end BusWindow.Timestamp
