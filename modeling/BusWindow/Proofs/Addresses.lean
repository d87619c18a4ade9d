import BusWindow.Proofs.Digits

/-!
# Addresses — the texts that denote them

    An address of version 4 is written in one way, as four octets in decimal
    digits. One of version 6 is written as eight groups, or with a run of
    zero groups left out between two lists of groups of at most seven
    together; the last two groups may stand there as four octets, though not
    in front of the run. `Spells` says so without a word on how a text is
    read, and `ofString?_eq_some_iff` that what is read is what is spelled.
    So the text that an address is written as is read back
    (`ofString?_text_of_read`), and many other texts are refused
    (`ofString?_eq_none_of_mem`).

    Each reader has the text that it takes and the text that it leaves: the
    first is spelled, and the second begins with nothing that could have
    been taken too (`Past`, `Stops`).
-/

namespace BusWindow.Address

/-! ## The texts of addresses -/

/-- Four octets in decimal digits, with points between them. -/
def fourChars (a b c d : UInt8) : List Char :=
  Nat.toDigits 10 a.toNat ++ '.' :: (Nat.toDigits 10 b.toNat ++ '.' ::
    (Nat.toDigits 10 c.toNat ++ '.' :: Nat.toDigits 10 d.toNat))

/-- A group is one to four hexadecimal digits. -/
structure GroupText (t : List Char) (g : UInt16) : Prop where
  nonempty : t ≠ []
  length : t.length ≤ 4
  denotes : Positional 16 t g.toNat

/-- Groups with colons between them. The last two may be written as four
    octets, and `four` says whether they are. -/
inductive GroupsText : (four : Bool) → List Char → List UInt16 → Prop where
  | one {t : List Char} {g : UInt16} (group : GroupText t g) : GroupsText false t [g]
  | octets {a b c d : UInt8} {g h : UInt16} (first : g.toNat = 256 * a.toNat + b.toNat)
      (second : h.toNat = 256 * c.toNat + d.toNat) : GroupsText true (fourChars a b c d) [g, h]
  | more {four : Bool} {t u : List Char} {g : UInt16} {gs : List UInt16} (group : GroupText t g)
      (groups : GroupsText four u gs) : GroupsText four (t ++ ':' :: u) (g :: gs)

/-- The groups at one side of a run of zeros; there may be none. -/
inductive SideText : (four : Bool) → List Char → List UInt16 → Prop where
  | none : SideText false [] []
  | some {four : Bool} {t : List Char} {gs : List UInt16} (groups : GroupsText four t gs) :
      SideText four t gs

/-- The texts of an address. -/
inductive Spells : List Char → Address → Prop where
  | four (a b c d : UInt8) : Spells (fourChars a b c d) (.v4 a b c d)
  | eight {four : Bool} {t : List Char} {gs : List UInt16} (groups : GroupsText four t gs)
      (all : gs.length = 8) : Spells t (.v6 gs)
  | cut {four : Bool} {t u : List Char} {gs hs : List UInt16} (front : SideText false t gs)
      (back : SideText four u hs) (fits : gs.length + hs.length ≤ 7) :
      Spells (t ++ ':' :: ':' :: u)
        (.v6 (gs ++ List.replicate (8 - gs.length - hs.length) 0 ++ hs))

/-! ## Digits and octets -/

/-- No digit of a radix is at the front. -/
def Past (radix : Nat) (rest : List Char) : Prop := ∀ c ∈ rest.head?, ∀ n, ¬ Digit radix c n

section Octets

variable {radix : Nat} {s rest ds : List Char} {a b c d : UInt8}

theorem past_nil : Past radix [] := nofun

/-- A number ends in front of what is no digit. -/
theorem past_cons {c : Char} : Past radix (c :: rest) ↔ ∀ n, ¬ Digit radix c n := by
  simp [Past]

/-- A character that is none of the hexadecimal digits ends digits of every
    radix. -/
theorem past_of_hexValue? {c : Char} (small : radix ≤ 16) (h : Toml.hexValue? c = none) :
    Past radix (c :: rest) :=
  past_cons.mpr fun _ hn => hn.ne small h rfl

/-- As many digits are read as there are. -/
theorem digits_eq_iff (small : radix ≤ 16) :
    digits radix s = (ds, rest)
      ↔ s = ds ++ rest ∧ (∀ c ∈ ds, ∃ n, Digit radix c n) ∧ Past radix rest := by
  have hdigit (c : Char) : (digitValue? radix c).isSome = true ↔ ∃ n, Digit radix c n := by
    simp only [Option.isSome_iff_exists, digitValue?_eq_some_iff small]
  rw [digits, List.span_eq_takeWhile_dropWhile, Prod.mk.injEq, takeWhile_dropWhile_iff]
  simp only [hdigit, Bool.eq_false_iff, ne_eq, Past, not_exists]

/-- An octet is read from the digits that it is written with. -/
theorem octet_eq_some_iff :
    octet s = some (a, rest) ↔ s = Nat.toDigits 10 a.toNat ++ rest ∧ Past 10 rest := by
  obtain ⟨ds, after, hdigits⟩ : ∃ ds after, digits 10 s = (ds, after) := ⟨_, _, rfl⟩
  obtain ⟨rfl, hall, hpast⟩ := (digits_eq_iff (by decide)).mp hdigits
  obtain ⟨n, hn⟩ := exists_positional hall
  have hoctet : octet (ds ++ after) = some (a, rest)
      ↔ ¬ (ds.isEmpty ∨ 3 < ds.length ∨ (1 < ds.length ∧ ds.head? = some '0') ∨ 255 < n)
        ∧ UInt8.ofNat n = a ∧ after = rest := by
    rw [octet, hdigits, addressNumber_eq (by decide) hn, Option.ite_none_left_eq_some,
      Option.some_inj, Prod.mk.injEq]
  rw [hoctet]
  constructor
  · rintro ⟨hfits, rfl, rfl⟩
    simp only [List.isEmpty_iff, not_or, not_and, Nat.not_lt] at hfits
    obtain ⟨hnonempty, -, hlead, hbound⟩ := hfits
    rw [UInt8.toNat_ofNat_of_lt' (by omega : n < 256), ← hn.eq_toDigits hnonempty hlead]
    exact ⟨rfl, hpast⟩
  · rintro ⟨hs, hpast'⟩
    have hwritten : digits 10 (ds ++ after) = (Nat.toDigits 10 a.toNat, rest) :=
      (digits_eq_iff (by decide)).mpr
        ⟨hs, (positional_toDigits (by decide) _).digit, hpast'⟩
    obtain ⟨rfl, rfl⟩ := Prod.mk.inj (hdigits.symm.trans hwritten)
    obtain rfl := (positional_toDigits (by decide) _).unique (by decide) hn
    have hbound : a.toNat < 256 := a.toNat_lt
    refine ⟨?_, UInt8.ofNat_toNat, rfl⟩
    simp only [List.isEmpty_iff, not_or, not_and, Nat.not_lt]
    refine ⟨Nat.toDigits_ne_nil, Nat.toDigits_length 10 _ 3 (by decide) (by omega), fun hlong => ?_,
      by omega⟩
    rcases toDigits_cases a.toNat with ⟨-, hzero⟩ | ⟨c, more, hmore, hc⟩
    · rw [hzero] at hlong
      exact absurd hlong (by decide)
    · rw [hmore]
      exact fun h => hc (Option.some.inj h)

/-- An octet behind a point is written without zeros in front. -/
theorem pointOctet_eq_some_iff :
    pointOctet s = some (a, rest)
      ↔ s = '.' :: (Nat.toDigits 10 a.toNat ++ rest) ∧ Past 10 rest := by
  unfold pointOctet
  split
  · rw [octet_eq_some_iff, List.cons.injEq]
    exact ⟨fun h => ⟨⟨rfl, h.1⟩, h.2⟩, fun h => ⟨h.1.2, h.2⟩⟩
  · next hpoint =>
    exact ⟨nofun, fun h => absurd h.1 (hpoint _)⟩

theorem past_point : Past 10 ('.' :: rest) := past_of_hexValue? (by decide) (by decide)

/-- Four octets are read from the text that they are written as. -/
theorem four_eq_some_iff :
    four s = some ((a, b, c, d), rest) ↔ s = fourChars a b c d ++ rest ∧ Past 10 rest := by
  simp only [four, Option.bind_eq_bind, Option.pure_def, Option.bind_eq_some_iff,
    Option.some_inj, Prod.exists, Prod.mk.injEq]
  constructor
  · rintro ⟨_, _, ha, _, _, hb, _, _, hc, _, _, hd, ⟨rfl, rfl, rfl, rfl⟩, rfl⟩
    obtain ⟨rfl, -⟩ := octet_eq_some_iff.mp ha
    obtain ⟨rfl, -⟩ := pointOctet_eq_some_iff.mp hb
    obtain ⟨rfl, -⟩ := pointOctet_eq_some_iff.mp hc
    obtain ⟨rfl, hpast⟩ := pointOctet_eq_some_iff.mp hd
    exact ⟨by simp [fourChars], hpast⟩
  · rintro ⟨rfl, hpast⟩
    refine ⟨a, _, octet_eq_some_iff.mpr ⟨?_, past_point⟩, b, _,
      pointOctet_eq_some_iff.mpr ⟨rfl, past_point⟩, c, _,
      pointOctet_eq_some_iff.mpr ⟨rfl, past_point⟩, d, _,
      pointOctet_eq_some_iff.mpr ⟨rfl, hpast⟩, ⟨rfl, rfl, rfl, rfl⟩, rfl⟩
    simp [fourChars]

end Octets

/-! ## Groups -/

section Groups

variable {s t u rest : List Char} {g : UInt16} {gs hs : List UInt16} {quad : Bool}

/-- A group is read up to what is no digit, and is spelled as one. -/
theorem group_eq_some_iff :
    group s = some (g, rest) ↔ ∃ t, s = t ++ rest ∧ GroupText t g ∧ Past 16 rest := by
  obtain ⟨ds, after, hdigits⟩ : ∃ ds after, digits 16 s = (ds, after) := ⟨_, _, rfl⟩
  obtain ⟨rfl, hall, hpast⟩ := (digits_eq_iff (by decide)).mp hdigits
  obtain ⟨n, hn⟩ := exists_positional hall
  have hread : group (ds ++ after) = some (g, rest)
      ↔ ¬ (ds.isEmpty ∨ 4 < ds.length) ∧ UInt16.ofNat n = g ∧ after = rest := by
    rw [group, hdigits, addressNumber_eq (by decide) hn, Option.ite_none_left_eq_some,
      Option.some_inj, Prod.mk.injEq]
  rw [hread]
  constructor
  · rintro ⟨hfits, rfl, rfl⟩
    simp only [List.isEmpty_iff, not_or, Nat.not_lt] at hfits
    have hbound : n < 65536 := calc
      n < 16 ^ ds.length := hn.lt_pow
      _ ≤ 16 ^ 4 := Nat.pow_le_pow_right (by decide) hfits.2
      _ = 65536 := by decide
    exact ⟨ds, rfl, ⟨hfits.1, hfits.2, by rwa [UInt16.toNat_ofNat_of_lt' hbound]⟩, hpast⟩
  · rintro ⟨t, hs, hgroup, hpast'⟩
    have hwritten : digits 16 (ds ++ after) = (t, rest) :=
      (digits_eq_iff (by decide)).mpr ⟨hs, hgroup.denotes.digit, hpast'⟩
    obtain ⟨rfl, rfl⟩ := Prod.mk.inj (hdigits.symm.trans hwritten)
    obtain rfl := hgroup.denotes.unique (by decide) hn
    refine ⟨?_, UInt16.ofNat_toNat, rfl⟩
    simp only [List.isEmpty_iff, not_or, Nat.not_lt]
    exact ⟨hgroup.nonempty, hgroup.length⟩

/-- Behind a group there is no point, so it does not begin four octets. -/
theorem four_eq_none (hgroup : GroupText t g) (past : Past 16 rest)
    (point : rest.head? ≠ some '.') : four (t ++ rest) = none := by
  rw [Option.eq_none_iff_forall_ne_some]
  rintro ⟨⟨a, b, c, d⟩, after⟩ hfour
  obtain ⟨hs, -⟩ := four_eq_some_iff.mp hfour
  obtain ⟨more, hmore⟩ : ∃ more, t ++ rest = Nat.toDigits 10 a.toNat ++ '.' :: more := by
    rw [hs, fourChars, List.append_assoc, List.cons_append]
    exact ⟨_, rfl⟩
  -- the hexadecimal digits end at the point, and they end behind the group
  have hdecimal : ∀ c ∈ Nat.toDigits 10 a.toNat, ∃ n, Digit 16 c n := fun c hc => by
    obtain ⟨n, hn⟩ := (positional_toDigits (by decide) a.toNat).digit c hc
    exact ⟨n, hn.widen (by decide)⟩
  have hpoint : digits 16 (t ++ rest) = (Nat.toDigits 10 a.toNat, '.' :: more) :=
    (digits_eq_iff (by decide)).mpr
      ⟨hmore, hdecimal, past_of_hexValue? (by decide) (by decide)⟩
  have hend : digits 16 (t ++ rest) = (t, rest) :=
    (digits_eq_iff (by decide)).mpr ⟨rfl, hgroup.denotes.digit, past⟩
  obtain ⟨-, rfl⟩ := Prod.mk.inj (hend.symm.trans hpoint)
  exact point rfl

/-- What ends a list of groups: the end of the text, or two colons. -/
def Stops (rest : List Char) : Prop := rest = [] ∨ ∃ more, rest = ':' :: ':' :: more

/-- A text with the colon in front of every group but the first. -/
def led (first : Bool) (t : List Char) : List Char := if first then t else ':' :: t

/-- Groups but the first stand behind a colon. -/
theorem separator_eq_some_iff {first : Bool} {inner : List Char} :
    separator first s = some inner ↔ s = led first inner := by
  unfold separator led
  cases first with
  | true => exact Option.some_inj
  | false =>
      simp only [Bool.false_eq_true, if_false]
      split
      · rw [Option.some_inj, List.cons.injEq, eq_self, true_and]
      · next hcolon => exact ⟨nofun, fun h => absurd h (hcolon _)⟩

/-- A colon ends a number. -/
theorem past_colon {radix : Nat} (small : radix ≤ 16) (rest : List Char) :
    Past radix (':' :: rest) :=
  past_of_hexValue? small (by decide)

/-- What ends the groups ends the last of them. -/
theorem Stops.past {radix : Nat} (h : Stops rest) (small : radix ≤ 16) : Past radix rest := by
  obtain rfl | ⟨more, rfl⟩ := h
  · exact past_nil
  · exact past_colon small _

/-- No group begins with a colon, and none is empty. -/
theorem group_eq_none (h : rest = [] ∨ ∃ more, rest = ':' :: more) : group rest = none := by
  obtain rfl | ⟨more, rfl⟩ := h
  · rfl
  · rw [Option.eq_none_iff_forall_ne_some]
    rintro ⟨g, after⟩ hgroup
    obtain ⟨t, ht, hgroup, -⟩ := group_eq_some_iff.mp hgroup
    cases t with
    | nil => exact hgroup.nonempty rfl
    | cons c t =>
        obtain ⟨rfl, -⟩ := List.cons.inj ht
        obtain ⟨n, hn⟩ := hgroup.denotes.digit ':' List.mem_cons_self
        exact past_cons.mp (past_colon (by decide) []) n hn

theorem four_eq_none_of_stops (h : rest = [] ∨ ∃ more, rest = ':' :: more) :
    four rest = none := by
  obtain rfl | ⟨more, rfl⟩ := h
  · rfl
  · rfl

/-- Where the groups end none is read. -/
theorem groups_of_stops {first : Bool} {limit : Nat} (h : Stops rest) :
    groups first limit rest = ([], false, rest) := by
  cases limit with
  | zero => rfl
  | succ limit =>
      rw [groups]
      cases hinner : separator first rest with
      | none => rfl
      | some inner =>
          have hrest := separator_eq_some_iff.mp hinner
          have hcolon : inner = [] ∨ ∃ more, inner = ':' :: more := by
            obtain hnil | ⟨more, hmore⟩ := h <;> cases first <;> simp_all [led]
          simp only [four_eq_none_of_stops hcolon, group_eq_none hcolon, ite_self]

/-- What is read as groups is spelled as groups. -/
theorem spelled_of_groups {first : Bool} {limit : Nat}
    (h : groups first limit s = (gs, quad, rest)) :
    gs.length ≤ limit ∧ ((gs = [] ∧ quad = false ∧ s = rest)
      ∨ ∃ t, GroupsText quad t gs ∧ s = led first t ++ rest) := by
  induction limit generalizing first s gs quad with
  | zero =>
      obtain ⟨rfl, rfl, rfl⟩ := h
      exact ⟨Nat.le_refl _, Or.inl ⟨rfl, rfl, rfl⟩⟩
  | succ limit ih =>
      have hnone (h : ([], false, s) = (gs, quad, rest)) :
          gs.length ≤ limit + 1 ∧ ((gs = [] ∧ quad = false ∧ s = rest)
            ∨ ∃ t, GroupsText quad t gs ∧ s = led first t ++ rest) := by
        obtain ⟨rfl, rfl, rfl⟩ := h
        exact ⟨Nat.zero_le _, Or.inl ⟨rfl, rfl, rfl⟩⟩
      have hled (t : List Char) : led first (t ++ rest) = led first t ++ rest := by
        cases first <;> rfl
      rw [groups] at h
      split at h
      · exact hnone h
      · next inner hinner =>
        obtain rfl := separator_eq_some_iff.mp hinner
        split at h
        · next a b c d after hfour =>
          obtain ⟨rfl, rfl, rfl⟩ := h
          obtain ⟨hlimit, hfour⟩ := Option.ite_none_left_eq_some.mp hfour
          obtain ⟨rfl, -⟩ := four_eq_some_iff.mp hfour
          have hpair (x y : UInt8) : (pair x y).toNat = 256 * x.toNat + y.toNat := by
            have hx : x.toNat < 256 := x.toNat_lt
            have hy : y.toNat < 256 := y.toNat_lt
            have hfits : x.toNat * 256 + y.toNat < UInt16.size := by
              have hsize : UInt16.size = 65536 := rfl
              omega
            rw [pair, UInt16.toNat_ofNat_of_lt' hfits, Nat.mul_comm]
          exact ⟨by simp; omega, Or.inr ⟨_, .octets (hpair a b) (hpair c d), hled _⟩⟩
        · split at h
          · exact hnone h
          · next g after hgroup =>
            obtain ⟨t, rfl, hgroup, -⟩ := group_eq_some_iff.mp hgroup
            obtain ⟨rfl, rfl, rfl⟩ := h
            obtain ⟨hlength, hmore⟩ := ih (rfl : groups false limit after = (_, _, _))
            refine ⟨Nat.succ_le_succ hlength, Or.inr ?_⟩
            obtain ⟨hnil, hquad, hafter⟩ | ⟨u, hgroups, hafter⟩ := hmore
            · rw [hnil, hquad, ← hafter]
              exact ⟨t, .one hgroup, by cases first <;> rfl⟩
            · refine ⟨t ++ ':' :: u, .more hgroup hgroups, ?_⟩
              rw [← hled, List.append_assoc]
              exact congrArg (fun u => led first (t ++ u)) hafter

/-- What is spelled as groups is read as groups. -/
theorem GroupsText.groups_eq (h : GroupsText quad t gs) {first : Bool} {limit : Nat}
    (fits : gs.length ≤ limit) (stops : Stops rest) :
    Address.groups first limit (led first t ++ rest) = (gs, quad, rest) := by
  have hinner (first : Bool) (t : List Char) :
      separator first (led first t ++ rest) = some (t ++ rest) :=
    separator_eq_some_iff.mpr (by cases first <;> rfl)
  induction h generalizing first limit with
  | @one t g hgroup =>
      obtain ⟨limit, rfl⟩ : ∃ k, limit = k + 1 := Nat.exists_eq_add_one.mpr fits
      have hpoint : rest.head? ≠ some '.' := by
        obtain rfl | ⟨more, rfl⟩ := stops
        · exact nofun
        · exact nofun
      have hread := group_eq_some_iff.mpr ⟨t, rfl, hgroup, stops.past (by decide)⟩
      simp only [Address.groups, hinner, four_eq_none hgroup (stops.past (by decide)) hpoint,
        ite_self, hread, groups_of_stops stops]
  | @octets a b c d g h hfirst hsecond =>
      obtain ⟨limit, rfl⟩ : ∃ k, limit = k + 2 := ⟨limit - 2, by simp at fits; omega⟩
      have hread : four (fourChars a b c d ++ rest) = some ((a, b, c, d), rest) :=
        four_eq_some_iff.mpr ⟨rfl, stops.past (by decide)⟩
      have hpair {x y : UInt8} {k : UInt16} (hk : k.toNat = 256 * x.toNat + y.toNat) :
          pair x y = k := by
        rw [pair, Nat.mul_comm, ← hk, UInt16.ofNat_toNat]
      simp only [Address.groups, hinner, if_neg (Nat.succ_ne_zero limit), hread, hpair hfirst,
        hpair hsecond]
  | @more quad t u g gs hgroup hgroups ih =>
      obtain ⟨limit, rfl⟩ : ∃ k, limit = k + 1 :=
        Nat.exists_eq_add_one.mpr (Nat.lt_of_lt_of_le (Nat.succ_pos _) fits)
      have hread := group_eq_some_iff.mpr
        ⟨t, rfl, hgroup, past_colon (by decide) (u ++ rest)⟩
      have hmore : Address.groups false limit (':' :: u ++ rest) = (gs, quad, rest) :=
        ih (Nat.le_of_succ_le_succ fits)
      have hnone := four_eq_none hgroup (past_colon (by decide) (u ++ rest)) nofun
      rw [List.cons_append] at hmore
      simp only [Address.groups, hinner, List.append_assoc, List.cons_append, hnone, ite_self,
        hread, hmore]

/-- Spelled groups are read up to where they end. -/
theorem SideText.groups_eq (h : SideText quad t gs) {limit : Nat} (fits : gs.length ≤ limit)
    (stops : Stops rest) : Address.groups true limit (t ++ rest) = (gs, quad, rest) := by
  cases h with
  | none => exact groups_of_stops stops
  | some h => exact h.groups_eq fits stops

/-- What is read as groups is spelled so, and there are no more than asked for. -/
theorem sideText_of_groups {limit : Nat} (h : groups true limit s = (gs, quad, rest)) :
    gs.length ≤ limit ∧ ∃ t, SideText quad t gs ∧ s = t ++ rest := by
  obtain ⟨hlength, ⟨rfl, rfl, rfl⟩ | ⟨t, hgroups, rfl⟩⟩ := spelled_of_groups h
  · exact ⟨hlength, [], .none, rfl⟩
  · exact ⟨hlength, t, .some hgroups, rfl⟩

end Groups

/-! ## Addresses -/

section Whole

variable {s t : List Char} {gs : List UInt16} {quad : Bool}

/-- What is read as eight groups spells an address. -/
theorem spells_of_eight (h : eight s = some (gs, [])) : Spells s (.v6 gs) := by
  obtain ⟨gs', quad, after, hfront⟩ : ∃ gs' quad after, groups true 8 s = (gs', quad, after) :=
    ⟨_, _, _, rfl⟩
  obtain ⟨-, t, hside, rfl⟩ := sideText_of_groups hfront
  simp only [eight, hfront] at h
  split at h
  · next hall =>
    obtain ⟨rfl, rfl⟩ := Prod.mk.inj (Option.some.inj h)
    cases hside with
    | none => exact nomatch hall
    | some hgroups => exact .eight (by rwa [List.append_nil]) hall
  split at h
  · exact nomatch h
  · next hshort hquad =>
    obtain rfl : quad = false := Bool.eq_false_iff.mpr hquad
    split at h
    · next more =>
      obtain ⟨hs, quad', after', hback⟩ :
          ∃ hs quad' after', groups true (7 - gs'.length) more = (hs, quad', after') :=
        ⟨_, _, _, rfl⟩
      obtain ⟨hlength, u, hside', rfl⟩ := sideText_of_groups hback
      simp only [hback, Option.some_inj, Prod.mk.injEq] at h
      obtain ⟨rfl, rfl⟩ := h
      rw [List.append_nil]
      exact .cut hside hside' (by have := (sideText_of_groups hfront).1; omega)
    · exact nomatch h

/-- Three groups or more have a colon between them. -/
theorem GroupsText.colon (h : GroupsText quad t gs) (many : 3 ≤ gs.length) : ':' ∈ t := by
  cases h with
  | one => exact absurd many (by simp)
  | octets => exact absurd many (by simp)
  | more => exact List.mem_append_right _ List.mem_cons_self

/-- Four octets are written without a colon. -/
theorem colon_notMem_fourChars (a b c d : UInt8) : ':' ∉ fourChars a b c d := by
  have hdigits (n : Nat) : ':' ∉ Nat.toDigits 10 n := fun h => by
    obtain ⟨v, hv⟩ := (positional_toDigits (by decide) n).digit ':' h
    exact past_cons.mp (past_colon (by decide) []) v hv
  simp [fourChars, hdigits]

/-- With a colon in it a text is no address of four octets. -/
theorem ofChars?_eq_of_colon (colon : ':' ∈ s) (h : eight s = some (gs, [])) :
    ofChars? s = some (.v6 gs) := by
  unfold ofChars?
  split
  · next a b c d hfour =>
    obtain ⟨rfl, -⟩ := four_eq_some_iff.mp hfour
    rw [List.append_nil] at colon
    exact absurd colon (colon_notMem_fourChars a b c d)
  · rw [h]

/-- **WHAT IS READ AS AN ADDRESS IS WHAT IS SPELLED AS ONE.** -/
theorem ofChars?_eq_some_iff {a : Address} : ofChars? s = some a ↔ Spells s a := by
  constructor
  · intro h
    unfold ofChars? at h
    split at h
    · next a b c d hfour =>
      obtain ⟨rfl, -⟩ := four_eq_some_iff.mp hfour
      obtain rfl := Option.some.inj h
      rw [List.append_nil]
      exact .four a b c d
    · split at h
      · next gs height =>
        obtain rfl := Option.some.inj h
        exact spells_of_eight height
      · exact nomatch h
  · intro h
    cases h with
    | four a b c d =>
        have hfour : four (fourChars a b c d) = some ((a, b, c, d), []) :=
          four_eq_some_iff.mpr ⟨(List.append_nil _).symm, past_nil⟩
        rw [ofChars?, hfour]
    | eight hgroups hall =>
        refine ofChars?_eq_of_colon (hgroups.colon (by omega)) ?_
        have hread := (SideText.some hgroups).groups_eq (Nat.le_of_eq hall) (Or.inl rfl)
        rw [List.append_nil] at hread
        rw [eight, hread, if_pos hall]
    | @cut quad t u gs hs hfront hback hfits =>
        refine ofChars?_eq_of_colon (List.mem_append_right _ List.mem_cons_self) ?_
        have hread : groups true 8 (t ++ ':' :: ':' :: u) = (gs, false, ':' :: ':' :: u) :=
          hfront.groups_eq (by omega) (Or.inr ⟨u, rfl⟩)
        have hread' : groups true (7 - gs.length) (u ++ []) = (hs, quad, []) :=
          hback.groups_eq (by omega) (Or.inl rfl)
        rw [List.append_nil] at hread'
        simp only [eight, hread, hread', Bool.false_eq_true, if_false]
        rw [if_neg (by omega)]

/-- The same for strings. -/
theorem ofString?_eq_some_iff {text : String} {a : Address} :
    ofString? text = some a ↔ Spells text.toList a :=
  ofChars?_eq_some_iff

/-- The characters that addresses are spelled with. -/
def Spelling (c : Char) : Prop := (∃ n, Digit 16 c n) ∨ c = ':' ∨ c = '.'

theorem spelling_fourChars (a b c d : UInt8) : ∀ x ∈ fourChars a b c d, Spelling x := by
  have hdigits (n : Nat) : ∀ x ∈ Nat.toDigits 10 n, Spelling x := fun x hx => by
    obtain ⟨v, hv⟩ := (positional_toDigits (by decide) n).digit x hx
    exact Or.inl ⟨v, hv.widen (by decide)⟩
  have hpoint : Spelling '.' := Or.inr (Or.inr rfl)
  simp only [fourChars, List.forall_mem_append, List.forall_mem_cons]
  exact ⟨hdigits _, hpoint, hdigits _, hpoint, hdigits _, hpoint, hdigits _⟩

theorem GroupText.spelling {g : UInt16} (h : GroupText t g) : ∀ x ∈ t, Spelling x :=
  fun x hx => Or.inl (h.denotes.digit x hx)

theorem GroupsText.spelling (h : GroupsText quad t gs) : ∀ x ∈ t, Spelling x := by
  induction h with
  | one group => exact group.spelling
  | octets => exact spelling_fourChars _ _ _ _
  | more group _ ih =>
      have hcolon : Spelling ':' := Or.inr (Or.inl rfl)
      exact List.forall_mem_append.mpr ⟨group.spelling, List.forall_mem_cons.mpr ⟨hcolon, ih⟩⟩

theorem SideText.spelling (h : SideText quad t gs) : ∀ x ∈ t, Spelling x := by
  cases h with
  | none => exact nofun
  | some groups => exact groups.spelling

/-- An address is spelled with nothing but digits, colons and points. -/
theorem Spells.spelling {a : Address} (h : Spells s a) : ∀ x ∈ s, Spelling x := by
  cases h with
  | four => exact spelling_fourChars _ _ _ _
  | eight groups => exact groups.spelling
  | cut front back =>
      have hcolon : Spelling ':' := Or.inr (Or.inl rfl)
      refine List.forall_mem_append.mpr ⟨front.spelling, ?_⟩
      exact List.forall_mem_cons.mpr ⟨hcolon, List.forall_mem_cons.mpr ⟨hcolon, back.spelling⟩⟩

/-- A text with any other character in it is no address: no name with another
    letter in it, no brackets around an address and no zone behind one. -/
theorem ofString?_eq_none_of_mem {text : String} {c : Char} (mem : c ∈ text.toList)
    (other : ¬ Spelling c) : ofString? text = none := by
  rw [Option.eq_none_iff_forall_ne_some]
  intro a hread
  exact other ((ofString?_eq_some_iff.mp hread).spelling c mem)

end Whole

/-! ## Addresses as they are written -/

section Written

variable {gs : List UInt16}

/-- A group is spelled as it is written. -/
theorem groupText_written (g : UInt16) : GroupText (Nat.toDigits 16 g.toNat) g where
  nonempty := Nat.toDigits_ne_nil
  length := Nat.toDigits_length 16 _ 4 (by decide) g.toNat_lt
  denotes := positional_toDigits (by decide) _

/-- Groups are spelled as they are written, with colons between them. -/
theorem groupsText_written (nonempty : gs ≠ []) : GroupsText false (groupsText gs).toList gs := by
  induction gs with
  | nil => exact absurd rfl nonempty
  | cons g gs ih =>
      have hone : (groupText g).toList = Nat.toDigits 16 g.toNat := String.toList_ofList
      cases gs with
      | nil =>
          have htext : groupsText [g] = groupText g := rfl
          rw [htext, hone]
          exact .one (groupText_written g)
      | cons h gs =>
          have htext : (groupsText (g :: h :: gs)).toList
              = Nat.toDigits 16 g.toNat ++ ':' :: (groupsText (h :: gs)).toList := by
            rw [groupsText, List.map_cons, List.map_cons, String.intercalate_cons_cons,
              String.toList_append, String.toList_append, hone, List.append_assoc]
            rfl
          rw [htext]
          exact .more (groupText_written g) (ih (List.cons_ne_nil _ _))

/-- So are the groups on one side of a gap, or none. -/
theorem sideText_written (gs : List UInt16) : SideText false (groupsText gs).toList gs := by
  cases gs with
  | nil => exact .none
  | cons g gs => exact .some (groupsText_written (List.cons_ne_nil _ _))

theorem toList_fourText (a b c d : UInt8) : (fourText a b c d).toList = fourChars a b c d := by
  simp [fourText, fourChars]

/-- The run of zeros that is left out stands where it is said to stand. -/
theorem longestZeros_spec (gs : List UInt16) (start : Nat) :
    ∃ front back, gs = front ++ List.replicate (longestZeros start gs).2 0 ++ back
      ∧ (longestZeros start gs).1 = start + front.length := by
  induction gs generalizing start with
  | nil => exact ⟨[], [], rfl, rfl⟩
  | cons g gs ih =>
      rw [longestZeros]
      split
      · obtain ⟨front, back, hgs, hstart⟩ := ih (start + 1)
        refine ⟨g :: front, back, congrArg (g :: ·) hgs, ?_⟩
        rw [hstart, List.length_cons]
        omega
      · have hzeros : List.takeWhile (· == 0) (g :: gs)
            = List.replicate (zerosAhead (g :: gs)) 0 := by
          refine List.eq_replicate_iff.mpr ⟨rfl, fun h hh => ?_⟩
          exact beq_iff_eq.mp (List.all_eq_true.mp List.all_takeWhile h hh)
        refine ⟨[], (g :: gs).dropWhile (· == 0), ?_, rfl⟩
        rw [List.nil_append, ← hzeros, List.takeWhile_append_dropWhile]

/-- A group is made of two octets. -/
theorem toNat_halves (g : UInt16) :
    g.toNat = 256 * (g >>> 8).toUInt8.toNat + g.toUInt8.toNat := by
  have hbound : g.toNat < 65536 := g.toNat_lt
  have hshift : (g >>> 8).toNat = g.toNat / 256 := by
    rw [UInt16.toNat_shiftRight, Nat.shiftRight_eq_div_pow]
    rfl
  rw [UInt16.toNat_toUInt8, UInt16.toNat_toUInt8, hshift]
  omega

/-- An address is spelled as it is written. -/
theorem spells_text {a : Address} (formed : ∀ gs, a = .v6 gs → gs.length = 8) :
    Spells a.text.toList a := by
  unfold text
  split
  · next a b c d =>
    rw [toList_fourText]
    exact .four a b c d
  · next g h =>
    rw [String.toList_append, toList_fourText]
    have hffff : GroupText ['f', 'f', 'f', 'f'] 0xFFFF := groupText_written 0xFFFF
    have hback := GroupsText.more hffff (.octets (toNat_halves g) (toNat_halves h))
    exact .cut .none (.some hback) (by simp)
  · next gs hplain =>
    have hall := formed gs rfl
    obtain ⟨front, back, hgs, hstart⟩ := longestZeros_spec gs 0
    generalize longestZeros 0 gs = zeros at hgs hstart
    simp only
    split
    · refine .eight (groupsText_written ?_) hall
      rintro rfl
      exact nomatch hall
    · next hlong =>
      rw [Nat.zero_add] at hstart
      have hfront : gs.take zeros.1 = front := by
        rw [hgs, hstart, List.append_assoc, List.take_left]
      have hback : gs.drop (zeros.1 + zeros.2) = back := by
        rw [hgs, List.drop_left' (by rw [List.length_append, List.length_replicate, hstart])]
      have hlength : front.length + zeros.2 + back.length = 8 := by
        rw [← hall, hgs]
        simp only [List.length_append, List.length_replicate]
      have hcut := Spells.cut (sideText_written front) (sideText_written back) (by omega)
      rw [(by omega : 8 - front.length - back.length = zeros.2), ← hgs] at hcut
      rw [hfront, hback, String.toList_append, String.toList_append, List.append_assoc]
      exact hcut

/-- What is spelled as an address of version 6 has eight groups. -/
theorem Spells.length_eq {s : List Char} (h : Spells s (.v6 gs)) : gs.length = 8 := by
  cases h with
  | eight _ hall => exact hall
  | cut _ _ hfits =>
      simp only [List.length_append, List.length_replicate]
      omega

/-- An address that was read is read back from the text it is written as. -/
theorem ofString?_text_of_read {text : String} {a : Address} (h : ofString? text = some a) :
    ofString? a.text = some a :=
  ofString?_eq_some_iff.mpr <| spells_text fun gs hgs =>
    (hgs ▸ ofString?_eq_some_iff.mp h : Spells text.toList (.v6 gs)).length_eq

end Written

end BusWindow.Address
