import BusWindow.Proofs.Quantities

/-!
# Moments — the texts that TOML dates and times are read from

    A date stands in ten characters, a time in eight with or without a
    fraction of the second, and both together may have an offset. Nothing is
    kept of any of them, but where they end matters for what follows, and a
    text with one that the calendar does not have is no document at all.

    * `MomentText` says which texts those are;
    * `moment_eq` and `momentText_of_moment` are the two directions;
    * `NumberText.moment_eq_none` keeps numbers and moments apart, which
      begin with the same digits.
-/

namespace BusWindow.Toml

open Json (Value)

/-! ## The texts -/

/-- The texts of a date of the calendar. -/
inductive DateText : List Char → Prop where
  | mk {y₁ y₂ y₃ y₄ m₁ m₂ d₁ d₂ : Char} {year month day : Nat}
      (year_denotes : Positional 10 [y₁, y₂, y₃, y₄] year)
      (month_denotes : Positional 10 [m₁, m₂] month) (month_fits : 1 ≤ month ∧ month ≤ 12)
      (day_denotes : Positional 10 [d₁, d₂] day)
      (day_fits : 1 ≤ day ∧ day ≤ Date.daysInMonth year month) :
      DateText [y₁, y₂, y₃, y₄, '-', m₁, m₂, '-', d₁, d₂]

/-- The fraction of a second. -/
inductive SecondsText : List Char → Prop where
  | none : SecondsText []
  | some {c : Char} {t : List Char} (digits : ∀ d ∈ c :: t, ∃ n, Digit 10 d n) :
      SecondsText ('.' :: c :: t)

/-- The texts of a time of a day. -/
inductive TimeText : List Char → Prop where
  | mk {h₁ h₂ m₁ m₂ s₁ s₂ : Char} {hour minute second : Nat} {f : List Char}
      (hour_denotes : Positional 10 [h₁, h₂] hour) (hour_fits : hour ≤ 23)
      (minute_denotes : Positional 10 [m₁, m₂] minute) (minute_fits : minute ≤ 59)
      (second_denotes : Positional 10 [s₁, s₂] second) (second_fits : second ≤ 60)
      (fraction : SecondsText f) :
      TimeText ([h₁, h₂, ':', m₁, m₂, ':', s₁, s₂] ++ f)

/-- The texts of an offset. -/
inductive OffsetText : List Char → Prop where
  | none : OffsetText []
  | utc {c : Char} (mark : c = 'Z' ∨ c = 'z') : OffsetText [c]
  | hours {c h₁ h₂ m₁ m₂ : Char} {hour minute : Nat} (mark : c = '+' ∨ c = '-')
      (hour_denotes : Positional 10 [h₁, h₂] hour) (hour_fits : hour ≤ 23)
      (minute_denotes : Positional 10 [m₁, m₂] minute) (minute_fits : minute ≤ 59) :
      OffsetText [c, h₁, h₂, ':', m₁, m₂]

/-- The texts of a date, a time, or both. -/
inductive MomentText : List Char → Prop where
  | date {t : List Char} (date : DateText t) : MomentText t
  | time {t : List Char} (time : TimeText t) : MomentText t
  | both {c : Char} {t u o : List Char} (date : DateText t) (mark : c = 'T' ∨ c = 't' ∨ c = ' ')
      (time : TimeText u) (offset : OffsetText o) : MomentText (t ++ c :: (u ++ o))

/-! ## Parts of dates and times -/

section Parts

variable {s t rest : List Char} {low high n : Nat} {mark : Char}

/-- A number of two digits is read if it lies between its bounds. -/
theorem twoDigits_eq_some_iff :
    twoDigits low high s = some (n, rest)
      ↔ ∃ a b, s = a :: b :: rest ∧ Positional 10 [a, b] n ∧ low ≤ n ∧ n ≤ high := by
  unfold twoDigits
  split
  · next a b more =>
    simp only [Option.ite_none_right_eq_some, Bool.and_eq_true, decide_eq_true_eq, isDigit_iff,
      Option.some_inj, Prod.mk.injEq]
    constructor
    · rintro ⟨⟨⟨⟨ha, hb⟩, hlow⟩, hhigh⟩, rfl, rfl⟩
      have hall : ∀ c ∈ [a, b], ∃ n, Digit 10 c n := by simp [ha, hb]
      obtain ⟨m, hm⟩ := exists_positional hall
      rw [tomlNumber_eq (by decide) hm] at hlow hhigh ⊢
      exact ⟨a, b, rfl, hm, hlow, hhigh⟩
    · rintro ⟨a', b', hs, hn, hlow, hhigh⟩
      obtain ⟨rfl, hs'⟩ := List.cons.inj hs
      obtain ⟨rfl, rfl⟩ := List.cons.inj hs'
      rw [tomlNumber_eq (by decide) hn]
      exact ⟨⟨⟨⟨hn.digit _ (by simp), hn.digit _ (by simp)⟩, hlow⟩, hhigh⟩, rfl, rfl⟩
  · next hshort =>
    constructor
    · exact nofun
    · rintro ⟨a, b, rfl, -⟩
      exact absurd rfl (hshort a b rest)

/-- So is one behind a mark. -/
theorem behind_eq_some_iff :
    behind mark low high s = some (n, rest)
      ↔ ∃ a b, s = mark :: a :: b :: rest ∧ Positional 10 [a, b] n ∧ low ≤ n ∧ n ≤ high := by
  unfold behind
  split
  · next c s =>
    rw [Option.ite_none_right_eq_some, twoDigits_eq_some_iff]
    constructor
    · rintro ⟨rfl, a, b, rfl, h⟩
      exact ⟨a, b, rfl, h⟩
    · rintro ⟨a, b, hs, h⟩
      obtain ⟨rfl, rfl⟩ := List.cons.inj hs
      exact ⟨rfl, a, b, rfl, h⟩
  · exact ⟨nofun, nofun⟩

theorem twoDigits_eq {a b : Char} (denotes : Positional 10 [a, b] n) (fits : low ≤ n ∧ n ≤ high)
    (rest : List Char) : twoDigits low high (a :: b :: rest) = some (n, rest) :=
  twoDigits_eq_some_iff.mpr ⟨a, b, rfl, denotes, fits⟩

theorem behind_eq {a b : Char} (mark : Char) (denotes : Positional 10 [a, b] n)
    (fits : low ≤ n ∧ n ≤ high) (rest : List Char) :
    behind mark low high (mark :: a :: b :: rest) = some (n, rest) :=
  behind_eq_some_iff.mpr ⟨a, b, rfl, denotes, fits⟩

/-- What is read as a date is spelled as one. -/
theorem dateText_of_date (h : date s = some ((), rest)) : ∃ t, s = t ++ rest ∧ DateText t := by
  unfold date at h
  split at h
  · next a b c d more =>
    obtain ⟨hdigits, h⟩ := Option.ite_none_right_eq_some.mp h
    simp only [List.all_eq_true, isDigit_iff] at hdigits
    obtain ⟨year, hyear⟩ := exists_positional hdigits
    rw [tomlNumber_eq (by decide) hyear] at h
    split at h
    · cases h
    · next month after hmonth =>
      obtain ⟨⟨day, after'⟩, hday, hrest⟩ := Option.map_eq_some_iff.mp h
      obtain rfl := (Prod.mk.inj hrest).2
      obtain ⟨m₁, m₂, rfl, hm, hmonth_fits⟩ := behind_eq_some_iff.mp hmonth
      obtain ⟨d₁, d₂, rfl, hd, hday_fits⟩ := behind_eq_some_iff.mp hday
      exact ⟨_, rfl, .mk hyear hm hmonth_fits hd hday_fits⟩
  · cases h

/-- A spelled date is read whatever stands behind it. -/
theorem date_eq (h : DateText t) (rest : List Char) : date (t ++ rest) = some ((), rest) := by
  obtain @⟨y₁, y₂, y₃, y₄, _, _, _, _, _, _, _, hyear, hmonth, hmonth_fits, hday, hday_fits⟩ := h
  have hdigits : [y₁, y₂, y₃, y₄].all isDigit = true :=
    List.all_eq_true.mpr fun c hc => isDigit_iff.mpr (hyear.digit c hc)
  simp only [List.cons_append, List.nil_append, date, hdigits, if_true,
    tomlNumber_eq (by decide) hyear, behind_eq '-' hmonth hmonth_fits, behind_eq '-' hday hday_fits,
    Option.map_some]

/-- What a fraction of a second is cut off from. -/
theorem exists_seconds (s : List Char) : ∃ f, SecondsText f ∧ s = f ++ skipFraction s := by
  unfold skipFraction
  split
  · next c more =>
    split
    · next hc =>
      refine ⟨'.' :: c :: more.takeWhile isDigit, .some fun d hd => ?_, ?_⟩
      · rcases List.mem_cons.mp hd with rfl | hd
        · exact isDigit_iff.mp hc
        · exact isDigit_iff.mp (List.all_eq_true.mp List.all_takeWhile d hd)
      · rw [List.cons_append, List.cons_append, List.takeWhile_append_dropWhile]
    · exact ⟨[], .none, rfl⟩
  · exact ⟨[], .none, rfl⟩

/-- Neither a digit nor a point is at the front. -/
def EndsSeconds (rest : List Char) : Prop := ∀ c ∈ rest.head?, c ≠ '.' ∧ ∀ n, ¬ Digit 10 c n

/-- Seconds may have a fraction. -/
theorem skipFraction_eq {f : List Char} (h : SecondsText f) (stop : EndsSeconds rest) :
    skipFraction (f ++ rest) = rest := by
  cases h with
  | none =>
      rw [List.nil_append]
      unfold skipFraction
      split
      · exact absurd rfl (stop _ rfl).1
      · rfl
  | @some c t digits =>
      have hc := isDigit_iff.mpr (digits c List.mem_cons_self)
      obtain ⟨-, hdrop⟩ := (takeWhile_dropWhile_iff (p := isDigit) (s := t ++ rest)).mpr
        ⟨rfl, fun d hd => isDigit_iff.mpr (digits d (List.mem_cons_of_mem _ hd)),
          fun d hd => Bool.eq_false_iff.mpr fun h => by
            obtain ⟨n, hn⟩ := isDigit_iff.mp h
            exact (stop d hd).2 n hn⟩
      rw [List.cons_append, List.cons_append, skipFraction, if_pos hc, hdrop]

/-- What is read as a time is spelled as one. -/
theorem timeText_of_time (h : time s = some ((), rest)) : ∃ t, s = t ++ rest ∧ TimeText t := by
  unfold time at h
  split at h
  · cases h
  · next hour after hhour =>
    split at h
    · cases h
    · next minute after' hminute =>
      obtain ⟨⟨second, after''⟩, hsecond, hrest⟩ := Option.map_eq_some_iff.mp h
      obtain rfl := (Prod.mk.inj hrest).2
      obtain ⟨h₁, h₂, rfl, hh, -, hhour_fits⟩ := twoDigits_eq_some_iff.mp hhour
      obtain ⟨m₁, m₂, rfl, hm, -, hminute_fits⟩ := behind_eq_some_iff.mp hminute
      obtain ⟨s₁, s₂, rfl, hs, -, hsecond_fits⟩ := behind_eq_some_iff.mp hsecond
      obtain ⟨f, hf, hafter⟩ := exists_seconds after''
      refine ⟨_, ?_, .mk hh hhour_fits hm hminute_fits hs hsecond_fits hf⟩
      rw [List.append_assoc, ← hafter]
      rfl

/-- A spelled time is read up to what does not go on with its seconds. -/
theorem time_eq (h : TimeText t) (stop : EndsSeconds rest) :
    time (t ++ rest) = some ((), rest) := by
  obtain ⟨hhour, hhour_fits, hminute, hminute_fits, hsecond, hsecond_fits, hf⟩ := h
  simp only [List.cons_append, List.nil_append, time,
    twoDigits_eq hhour ⟨Nat.zero_le _, hhour_fits⟩,
    behind_eq ':' hminute ⟨Nat.zero_le _, hminute_fits⟩,
    behind_eq ':' hsecond ⟨Nat.zero_le _, hsecond_fits⟩, Option.map_some, skipFraction_eq hf stop]

/-- What is passed over behind a time is an offset, or nothing. -/
theorem exists_offset (s : List Char) : ∃ o, OffsetText o ∧ s = o ++ skipOffset s := by
  unfold skipOffset
  split
  · exact ⟨[], .none, rfl⟩
  · next c more =>
    split
    · next hmark =>
      rw [Bool.or_eq_true, beq_iff_eq, beq_iff_eq] at hmark
      exact ⟨[c], .utc hmark, rfl⟩
    split
    · next hmark =>
      rw [Bool.or_eq_true, beq_iff_eq, beq_iff_eq] at hmark
      split
      · exact ⟨[], .none, rfl⟩
      · next hour after hhour =>
        split
        · exact ⟨[], .none, rfl⟩
        · next minute after' hminute =>
          obtain ⟨h₁, h₂, rfl, hh, -, hhour_fits⟩ := twoDigits_eq_some_iff.mp hhour
          obtain ⟨m₁, m₂, rfl, hm, -, hminute_fits⟩ := behind_eq_some_iff.mp hminute
          exact ⟨_, .hours hmark hh hhour_fits hm hminute_fits, rfl⟩
    · exact ⟨[], .none, rfl⟩

/-- A spelled offset is passed over. -/
theorem skipOffset_eq {o : List Char} (h : OffsetText o) (ends : Delimited rest) :
    skipOffset (o ++ rest) = rest := by
  cases h with
  | none =>
      have hall : ∀ c ∈ ' ' :: '\t' :: delimiters,
          ¬ (c == 'Z' || c == 'z') = true ∧ ¬ (c == '+' || c == '-') = true :=
        List.forall_iff_forall_mem.mp (by decide)
      cases rest with
      | nil => rfl
      | cons c rest =>
          obtain ⟨hutc, hsign⟩ := hall c (ends.head c rfl)
          rw [List.nil_append, skipOffset, if_neg hutc, if_neg hsign]
  | utc mark => obtain rfl | rfl := mark <;> rfl
  | hours mark hhour hhour_fits hminute hminute_fits =>
      have hhour := twoDigits_eq hhour ⟨Nat.zero_le _, hhour_fits⟩
      have hminute := behind_eq ':' hminute ⟨Nat.zero_le _, hminute_fits⟩
      obtain rfl | rfl := mark
      · simp [skipOffset, hhour, hminute]
      · simp [skipOffset, hhour, hminute]

end Parts

/-! ## Moments -/

section Whole

variable {s t u rest : List Char} {v : Value}

/-- Digits with a hyphen or a colon behind them. -/
def Marked (t : List Char) : Prop :=
  ∃ ds c more, t = ds ++ c :: more ∧ ds ≠ [] ∧ (∀ d ∈ ds, ∃ n, Digit 10 d n) ∧ (c = '-' ∨ c = ':')

/-- A date has its mark behind four digits. -/
theorem DateText.marked (h : DateText t) : Marked t := by
  obtain @⟨y₁, y₂, y₃, y₄, _, _, _, _, _, _, _, hyear, -⟩ := h
  exact ⟨[y₁, y₂, y₃, y₄], '-', _, rfl, List.cons_ne_nil _ _, hyear.digit, Or.inl rfl⟩

/-- A time has its mark behind two digits. -/
theorem TimeText.marked (h : TimeText t) : Marked t := by
  obtain @⟨h₁, h₂, _, _, _, _, _, _, _, _, hhour, -⟩ := h
  exact ⟨[h₁, h₂], ':', _, rfl, List.cons_ne_nil _ _, hhour.digit, Or.inr rfl⟩

theorem Marked.append (h : Marked t) (u : List Char) : Marked (t ++ u) := by
  obtain ⟨ds, c, more, rfl, h⟩ := h
  exact ⟨ds, c, more ++ u, by simp, h⟩

/-- Every moment begins with digits and a hyphen or a colon behind them. -/
theorem MomentText.marked (h : MomentText t) : Marked t := by
  cases h with
  | date date => exact date.marked
  | time time => exact time.marked
  | both date _ _ _ => exact date.marked.append _

/-- A text that begins with no digit is not marked. -/
theorem not_marked_of_head (h : ∀ c ∈ s.head?, ∀ n, ¬ Digit 10 c n) : ¬ Marked s := by
  rintro ⟨ds, c, more, rfl, hnonempty, hdigits, -⟩
  obtain ⟨d, ds, rfl⟩ := List.exists_cons_of_ne_nil hnonempty
  obtain ⟨n, hn⟩ := hdigits d List.mem_cons_self
  exact h d rfl n hn

/-- Digits and underscores with something else behind them are not marked. -/
theorem not_marked_append (all : ∀ c ∈ t, c = '_' ∨ ∃ n, Digit 10 c n)
    (stop : Apart 10 u) (mark : ∀ c ∈ u.head?, c ≠ '-' ∧ c ≠ ':') : ¬ Marked (t ++ u) := by
  rintro ⟨ds, c, more, heq, -, hdigits, hmark⟩
  have hc : c ∉ u.head? := fun hc => hmark.elim (mark c hc).1 (mark c hc).2
  -- the mark is beyond the digits and underscores, or one of them
  rcases List.append_eq_append_iff.mp heq with ⟨more', rfl, hu⟩ | ⟨more', rfl, hu'⟩
  · cases more' with
    | nil => exact hc (hu ▸ rfl)
    | cons d more' =>
        obtain ⟨n, hn⟩ := hdigits d (List.mem_append_right _ List.mem_cons_self)
        exact (stop d (hu ▸ rfl)).2 n hn
  · cases more' with
    | nil =>
        have hu : c :: more = u := hu'
        exact hc (hu ▸ rfl)
    | cons d more' =>
        obtain ⟨rfl, -⟩ := List.cons.inj hu'
        rcases all c (List.mem_append_right _ List.mem_cons_self) with rfl | ⟨n, hn⟩
        · exact absurd hmark (by decide)
        · obtain rfl | rfl := hmark
          · exact hn.ne (by decide) (by decide) rfl
          · exact hn.ne (by decide) (by decide) rfl

/-- What may stand behind an item does not go on with seconds. -/
theorem Delimited.endsSeconds (ends : Delimited rest) : EndsSeconds rest :=
  fun c hc => ⟨(ends.ne_marks c hc).1, (ends.apart (by decide) c hc).2⟩

/-- Nor has it the mark of a moment. -/
theorem Delimited.not_marked (ends : Delimited rest) : ¬ Marked rest :=
  not_marked_of_head fun c hc => (ends.apart (by decide) c hc).2

/-- Behind a date and a blank there is no time unless there are digits. -/
theorem skipTime_of_delimited (ends : Delimited rest) : skipTime rest = rest := by
  cases rest with
  | nil => rfl
  | cons c rest =>
      have hall : ∀ c ∈ ' ' :: '\t' :: delimiters,
          c = ' ' ∨ ¬ (c == 'T' || c == 't' || c == ' ') = true :=
        List.forall_iff_forall_mem.mp (by decide)
      obtain rfl | hmark := hall c (ends.head c rfl)
      · have hnone : time rest = none := by
          rw [Option.eq_none_iff_forall_ne_some]
          rintro ⟨⟨⟩, after⟩ htime
          obtain ⟨t, rfl, ht⟩ := timeText_of_time htime
          have hdelimited : Delimited (t ++ after) := ends
          exact hdelimited.not_marked (ht.marked.append after)
        simp only [skipTime, hnone]
        rfl
      · rw [skipTime, if_neg hmark]

/-- An offset does not go on with seconds either. -/
theorem OffsetText.endsSeconds (h : OffsetText t) (ends : Delimited rest) :
    EndsSeconds (t ++ rest) := by
  cases h with
  | none => exact ends.endsSeconds
  | utc mark =>
      rintro c hc
      obtain rfl := Option.some.inj hc
      obtain rfl | rfl := mark
      · exact ⟨by decide, fun n hn => hn.ne (by decide) (by decide) rfl⟩
      · exact ⟨by decide, fun n hn => hn.ne (by decide) (by decide) rfl⟩
  | hours mark _ _ _ _ =>
      rintro c hc
      obtain rfl := Option.some.inj hc
      obtain rfl | rfl := mark
      · exact ⟨by decide, fun n hn => hn.ne (by decide) (by decide) rfl⟩
      · exact ⟨by decide, fun n hn => hn.ne (by decide) (by decide) rfl⟩

/-- A time is not read as a date: its third character is no digit. -/
theorem TimeText.date_eq_none (h : TimeText t) (rest : List Char) : date (t ++ rest) = none := by
  rw [Option.eq_none_iff_forall_ne_some]
  rintro ⟨⟨⟩, after⟩ hdate
  obtain ⟨u, hu, hdate⟩ := dateText_of_date hdate
  obtain @⟨y₁, y₂, y₃, y₄, _, _, _, _, _, _, _, hyear, -⟩ := hdate
  obtain ⟨-⟩ := h
  obtain ⟨n, hn⟩ := hyear.digit y₃ (by simp)
  have hcolon : ':' = y₃ := (List.cons.inj (List.cons.inj (List.cons.inj hu).2).2).1
  exact hn.ne (by decide) (by decide) hcolon.symm

/-- A spelled moment is read. -/
theorem moment_eq (h : MomentText t) (ends : Delimited rest) :
    moment (t ++ rest) = some (momentValue, rest) := by
  cases h with
  | date hdate => simp only [moment, date_eq hdate, skipTime_of_delimited ends]
  | time htime =>
      simp only [moment, htime.date_eq_none, time_eq htime ends.endsSeconds, Option.map_some]
  | @both c t u o hdate hmark htime hoffset =>
      have hc : (c == 'T' || c == 't' || c == ' ') = true := by
        obtain rfl | rfl | rfl := hmark <;> decide
      simp only [List.append_assoc, List.cons_append, moment, date_eq hdate, skipTime, hc, if_true,
        time_eq htime (hoffset.endsSeconds ends), skipOffset_eq hoffset ends]

/-- What is read as a moment is spelled as one. -/
theorem momentText_of_moment (h : moment s = some (v, rest)) :
    v = momentValue ∧ ∃ t, s = t ++ rest ∧ MomentText t := by
  unfold moment at h
  split at h
  · next after hdate =>
    obtain ⟨rfl, rfl⟩ := Prod.mk.inj (Option.some.inj h)
    obtain ⟨t, rfl, ht⟩ := dateText_of_date hdate
    refine ⟨rfl, ?_⟩
    unfold skipTime
    split
    · next c more =>
      split
      · next hmark =>
        simp only [Bool.or_eq_true, beq_iff_eq, or_assoc] at hmark
        split
        · next more' htime =>
          obtain ⟨u, rfl, hu⟩ := timeText_of_time htime
          obtain ⟨o, ho, hmore⟩ := exists_offset more'
          refine ⟨t ++ c :: (u ++ o), ?_, .both ht hmark hu ho⟩
          rw [List.append_assoc, List.cons_append, List.append_assoc, ← hmore]
        · exact ⟨t, rfl, .date ht⟩
      · exact ⟨t, rfl, .date ht⟩
    · exact ⟨t, rfl, .date ht⟩
  · obtain ⟨⟨⟨⟩, after⟩, htime, hrest⟩ := Option.map_eq_some_iff.mp h
    obtain ⟨rfl, rfl⟩ := Prod.mk.inj hrest
    obtain ⟨t, rfl, ht⟩ := timeText_of_time htime
    exact ⟨rfl, t, rfl, .time ht⟩

theorem Unmarked.ne (h : Unmarked u) : ∀ c ∈ u.head?, c ≠ '-' ∧ c ≠ ':' := by
  intro c hc
  constructor
  · rintro rfl
    exact h _ hc (by decide)
  · rintro rfl
    exact h _ hc (by decide)

/-- A sign in front makes no moment of a number. -/
theorem SignText.not_marked {negative : Bool} (h : SignText t negative) (hu : ¬ Marked u) :
    ¬ Marked (t ++ u) := by
  cases h with
  | none => exact hu
  | plus =>
      refine not_marked_of_head fun c hc n hn => ?_
      exact hn.ne (by decide) (by decide) (Option.some.inj hc).symm
  | minus =>
      refine not_marked_of_head fun c hc n hn => ?_
      exact hn.ne (by decide) (by decide) (Option.some.inj hc).symm

/-- A number has none of the marks that a moment has. -/
theorem NumberText.not_marked (h : NumberText t v) (ends : Delimited rest) :
    ¬ Marked (t ++ rest) := by
  cases h with
  | integer sign whole _ _ =>
      rw [List.append_assoc]
      exact sign.not_marked
        (not_marked_append whole.digits.digit.2 (ends.apart (by decide)) ends.unmarked.ne)
  | @inRadix m _ t _ _ mark _ _ _ =>
      have hmarks : ∀ p ∈ radices, (p.1 ≠ '_' ∧ isDigit p.1 = false) ∧ p.1 ≠ '-' ∧ p.1 ≠ ':' := by
        decide
      obtain ⟨⟨hunderscore, hdigit⟩, hmark⟩ := hmarks _ mark
      refine not_marked_append (t := ['0']) (u := m :: (t ++ rest)) ?_ ?_ ?_
      · exact fun c hc => Or.inr ⟨0, by rw [List.mem_singleton.mp hc]; decide⟩
      · rintro c hc
        obtain rfl := Option.some.inj hc
        exact ⟨hunderscore, fun n hn => by
          rw [isDigit_iff.mpr ⟨n, hn⟩] at hdigit
          cases hdigit⟩
      · rintro c hc
        obtain rfl := Option.some.inj hc
        exact hmark
  | double sign whole fraction exponent _ _ _ =>
      obtain ⟨hstop, hmark⟩ := fraction.apart exponent ends
      rw [List.append_assoc, List.append_assoc, List.append_assoc]
      exact sign.not_marked (not_marked_append whole.digits.digit.2 hstop hmark.ne)
  | special sign word =>
      rw [List.append_assoc]
      refine sign.not_marked (not_marked_of_head fun c hc n hn => ?_)
      obtain rfl | rfl := word
      · exact hn.ne (by decide) (by decide) (Option.some.inj hc).symm
      · exact hn.ne (by decide) (by decide) (Option.some.inj hc).symm

/-- A number is no moment: no hyphen and no colon stands behind its digits. -/
theorem NumberText.moment_eq_none (h : NumberText t v) (ends : Delimited rest) :
    moment (t ++ rest) = none := by
  rw [Option.eq_none_iff_forall_ne_some]
  rintro ⟨w, after⟩ hmoment
  obtain ⟨-, m, hm, hmoment⟩ := momentText_of_moment hmoment
  exact h.not_marked ends (hm ▸ hmoment.marked.append after)

end Whole

end BusWindow.Toml
