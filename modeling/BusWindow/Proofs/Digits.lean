import Mathlib.Data.Nat.Digits.Lemmas
import BusWindow.Address
import BusWindow.Toml.Number

/-!
# Digits — the numbers that are written with them

    A digit of a radix up to 16 is the character that its value is written
    with, in lower or in upper case, and a list of digits denotes a number in
    which the first of them counts most. Every reader of digits is compared
    with these two notions once, here.

    * `Digit` and `Positional` say what digits are and what they denote;
    * `hexValue?_eq_some_iff` is the comparison for one digit, and
      `Positional.foldl_eq` the one for a list.
-/

namespace BusWindow

/-- A character is the digit of a value in a radix. -/
def Digit (radix : Nat) (c : Char) (n : Nat) : Prop :=
  n < radix ∧ (c = n.digitChar ∨ c = n.digitChar.toUpper)

/-- Digits denote a number in a radix, the first one counting most. -/
def Positional (radix : Nat) (ds : List Char) (n : Nat) : Prop :=
  ∃ values, List.Forall₂ (Digit radix) ds.reverse values ∧ n = Nat.ofDigits radix values

instance (radix : Nat) (c : Char) (n : Nat) : Decidable (Digit radix c n) :=
  inferInstanceAs (Decidable (_ ∧ _))

/-- Where a reader stops that takes characters of some kind as long as there
    are any: everything taken is of the kind, and what is left begins with no
    such character. -/
theorem takeWhile_dropWhile_iff {p : Char → Bool} {s front rest : List Char} :
    s.takeWhile p = front ∧ s.dropWhile p = rest
      ↔ s = front ++ rest ∧ (∀ c ∈ front, p c = true) ∧ ∀ c ∈ rest.head?, p c = false := by
  constructor
  · rintro ⟨rfl, rfl⟩
    refine ⟨List.takeWhile_append_dropWhile.symm, List.all_eq_true.mp List.all_takeWhile,
      fun c hc => ?_⟩
    have hstop := List.head?_dropWhile_not p s
    rw [Option.mem_def.mp hc] at hstop
    exact hstop
  · rintro ⟨rfl, hall, hstop⟩
    rw [List.takeWhile_append_of_pos hall, List.dropWhile_append_of_pos hall]
    cases rest with
    | nil => exact ⟨List.append_nil _, rfl⟩
    | cons c rest =>
        have hc : ¬ p c = true := Bool.eq_false_iff.mp (hstop c rfl)
        rw [List.takeWhile_cons_of_neg hc, List.dropWhile_cons_of_neg hc]
        exact ⟨List.append_nil _, rfl⟩

section Digit

variable {radix n : Nat} {c : Char}

/-- The readers look at a table of at most 128 characters. -/
theorem forall_of_ascii {p : Char → Prop} (h : ∀ k < 128, p (Char.ofNat k)) (c : Char)
    (ascii : c.toNat < 128) : p c := by
  rw [← Char.ofNat_toNat c]
  exact h _ ascii

/-- Digits are ASCII, so a table of 128 characters decides what they are. -/
theorem toNat_lt_of_hexValue? (h : Toml.hexValue? c = some n) : c.toNat < 128 := by
  simp only [Toml.hexValue?] at h
  split at h
  · omega
  split at h
  · omega
  split at h
  · omega
  · exact nomatch h

/-- What is read from a hexadecimal digit is the value that it has. -/
theorem hexValue?_eq_some_iff : Toml.hexValue? c = some n ↔ Digit 16 c n := by
  constructor
  · intro h
    have hall := forall_of_ascii (p := fun c => ∀ n ∈ Toml.hexValue? c, Digit 16 c n) (by decide)
    exact hall c (toNat_lt_of_hexValue? h) n h
  · rintro ⟨below, hchar⟩
    have hall : ∀ n < 16, Toml.hexValue? n.digitChar = some n
        ∧ Toml.hexValue? n.digitChar.toUpper = some n := by decide
    obtain rfl | rfl := hchar
    · exact (hall n below).1
    · exact (hall n below).2

/-- A digit of one radix is one of every greater radix. -/
theorem Digit.widen {radix' : Nat} (h : Digit radix c n) (le : radix ≤ radix') :
    Digit radix' c n :=
  ⟨Nat.lt_of_lt_of_le h.1 le, h.2⟩

/-- A digit is none of the other characters. -/
theorem Digit.ne (small : radix ≤ 16) (h : Digit radix c n) {d : Char}
    (other : Toml.hexValue? d = none) : c ≠ d := by
  rintro rfl
  cases other.symm.trans (hexValue?_eq_some_iff.mpr (h.widen small))

/-- The digits of addresses are these. -/
theorem digitValue?_eq_some_iff (small : radix ≤ 16) :
    Address.digitValue? radix c = some n ↔ Digit radix c n := by
  have hvalue : Address.digitValue? radix c = some n ↔ Toml.hexValue? c = some n ∧ n < radix := by
    simp only [Address.digitValue?, Toml.hexValue?]
    grind
  rw [hvalue, hexValue?_eq_some_iff]
  exact ⟨fun h => ⟨h.2, h.1.2⟩, fun h => ⟨h.widen small, h.1⟩⟩

/-- So are those of documents, of each radix. -/
theorem isDigitOf_iff (small : radix ≤ 16) :
    Toml.isDigitOf radix c = true ↔ ∃ n, Digit radix c n := by
  unfold Toml.isDigitOf
  constructor
  · intro h
    split at h
    · next n hn => exact ⟨n, of_decide_eq_true h, (hexValue?_eq_some_iff.mp hn).2⟩
    · cases h
  · rintro ⟨n, h⟩
    rw [hexValue?_eq_some_iff.mpr (h.widen small)]
    exact decide_eq_true h.1

theorem isDigit_iff : Toml.isDigit c = true ↔ ∃ n, Digit 10 c n := by
  have hrange : Toml.isDigit c = true ↔ 48 ≤ c.toNat ∧ c.toNat ≤ 57 := by
    rw [Toml.isDigit, Bool.and_eq_true, decide_eq_true_eq, decide_eq_true_eq]
    rfl
  rw [hrange, ← isDigitOf_iff (by decide), Toml.isDigitOf]
  simp only [Toml.hexValue?]
  grind

end Digit

section Positional

variable {radix n : Nat} {ds : List Char} {c : Char}

theorem positional_nil : Positional radix [] n ↔ n = 0 := by
  constructor
  · rintro ⟨values, hdigits, rfl⟩
    cases hdigits
    rfl
  · rintro rfl
    exact ⟨[], .nil, rfl⟩

/-- One more digit behind the others. -/
theorem positional_concat :
    Positional radix (ds ++ [c]) n
      ↔ ∃ m v, Positional radix ds m ∧ Digit radix c v ∧ n = radix * m + v := by
  unfold Positional
  rw [List.reverse_append, List.reverse_singleton, List.singleton_append]
  constructor
  · rintro ⟨values, hdigits, rfl⟩
    cases hdigits with
    | @cons _ v _ values hdigit hmore =>
        exact ⟨_, v, ⟨values, hmore, rfl⟩, hdigit, by rw [Nat.ofDigits_cons]; omega⟩
  · rintro ⟨m, v, ⟨values, hmore, rfl⟩, hdigit, rfl⟩
    exact ⟨v :: values, .cons hdigit hmore, by rw [Nat.ofDigits_cons]; omega⟩

/-- One digit denotes its value. -/
theorem positional_singleton : Positional radix [c] n ↔ Digit radix c n := by
  rw [← List.nil_append [c], positional_concat]
  simp only [positional_nil]
  constructor
  · rintro ⟨m, v, rfl, hdigit, rfl⟩
    rwa [Nat.mul_zero, Nat.zero_add]
  · exact fun h => ⟨0, n, rfl, h, by omega⟩

/-- What is read digit by digit is the number that the digits denote. -/
theorem Positional.foldl_eq {value : Char → Nat} (reads : ∀ c n, Digit radix c n → value c = n)
    (h : Positional radix ds n) : ds.foldl (fun n c => n * radix + value c) 0 = n := by
  induction ds using List.reverseRecOn generalizing n with
  | nil => exact (positional_nil.mp h).symm
  | append_singleton ds c ih =>
      obtain ⟨m, v, hmore, hdigit, rfl⟩ := positional_concat.mp h
      rw [List.foldl_append, ih hmore, List.foldl_cons, List.foldl_nil, reads _ _ hdigit,
        Nat.mul_comm]

/-- Addresses take digits for the number that they denote. -/
theorem addressNumber_eq (small : radix ≤ 16) (h : Positional radix ds n) :
    Address.number radix ds = n :=
  h.foldl_eq fun c k hk => by rw [(digitValue?_eq_some_iff small).mpr hk, Option.getD_some]

/-- So do documents. -/
theorem tomlNumber_eq (small : radix ≤ 16) (h : Positional radix ds n) : Toml.number radix ds = n :=
  h.foldl_eq fun c k hk => by
    rw [hexValue?_eq_some_iff.mpr (hk.widen small), Option.getD_some]

/-- Digits denote one number. -/
theorem Positional.unique {m : Nat} (small : radix ≤ 16) (h : Positional radix ds n)
    (h' : Positional radix ds m) : m = n :=
  (tomlNumber_eq small h').symm.trans (tomlNumber_eq small h)

/-- Any digits denote a number. -/
theorem exists_positional (all : ∀ c ∈ ds, ∃ n, Digit radix c n) : ∃ n, Positional radix ds n := by
  induction ds using List.reverseRecOn with
  | nil => exact ⟨0, positional_nil.mpr rfl⟩
  | append_singleton ds c ih =>
      obtain ⟨m, hmore⟩ := ih fun d hd => all d (List.mem_append_left _ hd)
      obtain ⟨v, hdigit⟩ := all c (List.mem_append_right _ List.mem_cons_self)
      exact ⟨_, positional_concat.mpr ⟨m, v, hmore, hdigit, rfl⟩⟩

/-- Only digits denote a number. -/
theorem Positional.digit (h : Positional radix ds n) : ∀ c ∈ ds, ∃ n, Digit radix c n := by
  induction ds using List.reverseRecOn generalizing n with
  | nil => exact nofun
  | append_singleton ds c ih =>
      obtain ⟨m, v, hmore, hdigit, rfl⟩ := positional_concat.mp h
      intro d hd
      rcases List.mem_append.mp hd with hd | hd
      · exact ih hmore d hd
      · rw [List.mem_singleton.mp hd]
        exact ⟨v, hdigit⟩

/-- Digits denote a number below the power of the radix that they have room
    for. -/
theorem Positional.lt_pow (h : Positional radix ds n) : n < radix ^ ds.length := by
  induction ds using List.reverseRecOn generalizing n with
  | nil =>
      rw [positional_nil.mp h]
      exact Nat.one_pos
  | append_singleton ds c ih =>
      obtain ⟨m, v, hmore, hdigit, rfl⟩ := positional_concat.mp h
      have hm := ih hmore
      rw [List.length_append, List.length_singleton, Nat.pow_succ]
      calc radix * m + v < radix * (m + 1) := by rw [Nat.mul_succ]; have := hdigit.1; omega
        _ ≤ radix * radix ^ ds.length := Nat.mul_le_mul_left _ hm
        _ = radix ^ ds.length * radix := Nat.mul_comm _ _

/-- Digits without zeros in front denote a positive number. -/
theorem Positional.pos (h : Positional radix ds n) (nonempty : ds ≠ [])
    (lead : ds.head? ≠ some '0') : 0 < n := by
  induction ds using List.reverseRecOn generalizing n with
  | nil => exact absurd rfl nonempty
  | append_singleton ds c ih =>
      obtain ⟨m, v, hmore, hdigit, rfl⟩ := positional_concat.mp h
      have hradix : 0 < radix := Nat.lt_of_le_of_lt (Nat.zero_le _) hdigit.1
      cases ds with
      | nil =>
          have hv : v ≠ 0 := by
            rintro rfl
            obtain ⟨-, rfl | rfl⟩ := hdigit
            · exact lead rfl
            · exact lead rfl
          omega
      | cons d ds =>
          have hm := Nat.mul_pos hradix (ih hmore (List.cons_ne_nil _ _) lead)
          omega

theorem digit_digitChar {v : Nat} (below : v < radix) : Digit radix v.digitChar v :=
  ⟨below, Or.inl rfl⟩

/-- The digits that a number is written with denote it. -/
theorem positional_toDigits (large : 1 < radix) (n : Nat) :
    Positional radix (Nat.toDigits radix n) n := by
  induction n using Nat.strongRecOn with
  | ind n ih =>
      rw [Nat.toDigits_eq_if large]
      split
      · next below => exact positional_singleton.mpr (digit_digitChar below)
      · next above =>
        have hsmaller : n / radix < n := Nat.div_lt_self (by omega) large
        exact positional_concat.mpr ⟨_, _, ih _ hsmaller,
          digit_digitChar (Nat.mod_lt _ (by omega)), (Nat.div_add_mod n radix).symm⟩

/-- The digits of a number begin with a zero only if it is the number. -/
theorem toDigits_cases (n : Nat) :
    n = 0 ∧ Nat.toDigits 10 n = ['0']
      ∨ ∃ c digits, Nat.toDigits 10 n = c :: digits ∧ c ≠ '0' := by
  induction n using Nat.strongRecOn with
  | ind n ih =>
      by_cases hlt : n < 10
      · rw [Nat.toDigits_of_lt_base hlt]
        by_cases hzero : n = 0
        · exact Or.inl ⟨hzero, by rw [hzero]; rfl⟩
        · refine Or.inr ⟨_, _, rfl, ?_⟩
          have hdigits : ∀ k < 10, k ≠ 0 → k.digitChar ≠ '0' := by decide
          exact hdigits n hlt hzero
      · -- the first digit is that of the number without its last digit
        rw [Nat.toDigits_of_base_le (by omega) (by omega)]
        rcases ih (n / 10) (by omega) with ⟨hzero, -⟩ | ⟨c, digits, heq, hc⟩
        · omega
        · rw [heq]
          exact Or.inr ⟨c, _, rfl, hc⟩

/-- Decimal digits without zeros in front are those that the number is
    written with. -/
theorem Positional.eq_toDigits (h : Positional 10 ds n) (nonempty : ds ≠ [])
    (lead : 1 < ds.length → ds.head? ≠ some '0') : ds = Nat.toDigits 10 n := by
  induction ds using List.reverseRecOn generalizing n with
  | nil => exact absurd rfl nonempty
  | append_singleton ds c ih =>
      obtain ⟨m, v, hmore, ⟨below, hc⟩, rfl⟩ := positional_concat.mp h
      obtain rfl : c = v.digitChar := by
        have hupper : ∀ v < 10, v.digitChar.toUpper = v.digitChar := by decide
        exact hc.elim id fun hc => hc.trans (hupper v below)
      cases ds with
      | nil =>
          obtain rfl := positional_nil.mp hmore
          rw [Nat.mul_zero, Nat.zero_add, Nat.toDigits_of_lt_base below, List.nil_append]
      | cons d ds =>
          have hlead : d ≠ '0' := by
            rintro rfl
            exact lead (by simp) rfl
          have hhead : (d :: ds).head? ≠ some '0' := fun h => hlead (Option.some.inj h)
          have hm := hmore.pos (List.cons_ne_nil _ _) hhead
          rw [Nat.toDigits_of_base_le (by decide) (by omega), ih hmore (List.cons_ne_nil _ _)
            fun _ => hhead]
          congr 2
          · rw [Nat.mul_add_div (by decide), Nat.div_eq_of_lt below, Nat.add_zero]
          · rw [Nat.mul_add_mod, Nat.mod_eq_of_lt below]

end Positional

end BusWindow
