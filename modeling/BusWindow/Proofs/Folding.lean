import Mathlib.Data.List.Infix
import BusWindow.RoutingKey

/-!
# Folding — identifiers replaced from left to right

    A text is parted at its identifiers: the first one of it, the first one
    of what is behind that, and so on until none is left. There is one way
    to do this, and folding puts the mark in the place of each identifier.

    * `beginsWithIdentifier_iff` says what the scan looks for at one place;
    * `exists_first` finds the first identifier of a text, by induction on
      the text, and `exists_parted` all of them;
    * `Parted.unique` says that there is no choice, and `Parted.foldFrom_eq`
      what folding makes of the parts, by induction on them;
    * `free_of_append_cons` is the boundary argument: an identifier has
      neither bracket of a mark, so it cannot reach across one;
    * `fold_replaces_identifiers` is the whole statement.
-/

namespace BusWindow.RoutingKey

/-- A group of so many hexadecimal digits. -/
structure HexGroup (length : Nat) (text : List Char) : Prop where
  length_eq : text.length = length
  digits : ∀ c ∈ text, isHexDigit c = true

/-- An identifier: groups of 8, 4, 4, 4 and 12 hexadecimal digits, joined by
    hyphens. -/
def IsIdentifier (text : List Char) : Prop :=
  ∃ a b c d e, text = a ++ '-' :: (b ++ '-' :: (c ++ '-' :: (d ++ '-' :: e)))
    ∧ HexGroup 8 a ∧ HexGroup 4 b ∧ HexGroup 4 c ∧ HexGroup 4 d ∧ HexGroup 12 e

/-- No part of a text is an identifier. -/
def Free (text : List Char) : Prop := ∀ u, IsIdentifier u → ¬ u <:+: text

/-- An identifier stands behind the first characters of a text, and none
    stands further to the left. -/
structure First (text before u rest : List Char) : Prop where
  eq : text = before ++ u ++ rest
  identifier : IsIdentifier u
  leftmost : ∀ before' u' rest', text = before' ++ u' ++ rest' → IsIdentifier u' →
    before.length ≤ before'.length

/-- A text parted at its identifiers: pairs of an identifier and the text
    between it and the one before, and the text behind the last identifier. -/
inductive Parted : List Char → List (List Char × List Char) → List Char → Prop where
  | last {text : List Char} (free : Free text) : Parted text [] text
  | next {text before u rest last : List Char} {parts : List (List Char × List Char)}
      (first : First text before u rest) (more : Parted rest parts last) :
      Parted text ((before, u) :: parts) last

variable {text before u rest last : List Char} {parts : List (List Char × List Char)}

/-! ## What the scan looks for -/

theorem beginsLike_hexGroup_iff (n : Nat) (kinds : List (Char → Bool)) :
    beginsLike (List.replicate n isHexDigit ++ kinds) text = true
      ↔ ∃ group rest, text = group ++ rest ∧ HexGroup n group ∧ beginsLike kinds rest = true := by
  induction n generalizing text with
  | zero =>
      constructor
      · exact fun h => ⟨[], text, rfl, ⟨rfl, fun _ hc => nomatch hc⟩, h⟩
      · rintro ⟨group, rest, rfl, ⟨hlength, -⟩, h⟩
        rwa [List.eq_nil_of_length_eq_zero hlength]
  | succ n ih =>
      rw [List.replicate_succ, List.cons_append]
      cases text with
      | nil =>
          refine ⟨nofun, ?_⟩
          rintro ⟨group, rest, heq, ⟨hlength, -⟩, -⟩
          rw [(List.append_eq_nil_iff.mp heq.symm).1] at hlength
          exact nomatch hlength
      | cons c text =>
          rw [beginsLike, Bool.and_eq_true, ih]
          constructor
          · rintro ⟨hc, group, rest, rfl, ⟨hlength, hgroup⟩, h⟩
            exact ⟨c :: group, rest, rfl, ⟨congrArg (· + 1) hlength,
              List.forall_mem_cons.mpr ⟨hc, hgroup⟩⟩, h⟩
          · rintro ⟨group, rest, heq, ⟨hlength, hgroup⟩, h⟩
            cases group with
            | nil => exact nomatch hlength
            | cons c' group =>
                obtain ⟨rfl, rfl⟩ := List.cons.inj heq
                obtain ⟨hc, hgroup⟩ := List.forall_mem_cons.mp hgroup
                exact ⟨hc, group, rest, rfl, ⟨Nat.succ.inj hlength, hgroup⟩, h⟩

theorem beginsLike_hyphen_iff (kinds : List (Char → Bool)) :
    beginsLike ((· == '-') :: kinds) text = true
      ↔ ∃ rest, text = '-' :: rest ∧ beginsLike kinds rest = true := by
  cases text with
  | nil => exact ⟨nofun, nofun⟩
  | cons c text =>
      rw [beginsLike, Bool.and_eq_true, beq_iff_eq]
      constructor
      · rintro ⟨rfl, h⟩
        exact ⟨text, rfl, h⟩
      · rintro ⟨rest, heq, h⟩
        obtain ⟨rfl, rfl⟩ := List.cons.inj heq
        exact ⟨rfl, h⟩

/-- The scan finds an identifier at the beginning of a text if there is
    one. -/
theorem beginsWithIdentifier_iff :
    beginsWithIdentifier text = true ↔ ∃ u rest, text = u ++ rest ∧ IsIdentifier u := by
  have hshape : identifierShape
      = List.replicate 8 isHexDigit ++ (· == '-') :: (List.replicate 4 isHexDigit
        ++ (· == '-') :: (List.replicate 4 isHexDigit
        ++ (· == '-') :: (List.replicate 4 isHexDigit
        ++ (· == '-') :: (List.replicate 12 isHexDigit ++ [])))) := rfl
  rw [beginsWithIdentifier, hshape]
  simp only [beginsLike_hexGroup_iff, beginsLike_hyphen_iff]
  constructor
  · rintro ⟨a, _, rfl, ha, _, rfl, b, _, rfl, hb, _, rfl, c, _, rfl, hc, _, rfl, d, _, rfl, hd,
      _, rfl, e, rest, rfl, he, -⟩
    exact ⟨_, rest, by simp, a, b, c, d, e, rfl, ha, hb, hc, hd, he⟩
  · rintro ⟨_, rest, rfl, a, b, c, d, e, rfl, ha, hb, hc, hd, he⟩
    exact ⟨a, _, by simp, ha, _, rfl, b, _, rfl, hb, _, rfl, c, _, rfl, hc, _, rfl, d, _, rfl, hd,
      _, rfl, e, rest, rfl, he, rfl⟩

theorem IsIdentifier.length_eq {u : List Char} (h : IsIdentifier u) : u.length = 36 := by
  obtain ⟨a, b, c, d, e, rfl, ⟨ha, -⟩, ⟨hb, -⟩, ⟨hc, -⟩, ⟨hd, -⟩, he, -⟩ := h
  simp [ha, hb, hc, hd, he]

/-- Only hexadecimal digits and hyphens stand in an identifier. -/
theorem IsIdentifier.mem {u : List Char} (h : IsIdentifier u) {c : Char} (hc : c ∈ u) :
    isHexDigit c = true ∨ c = '-' := by
  obtain ⟨a, b, c, d, e, rfl, ⟨-, ha⟩, ⟨-, hb⟩, ⟨-, hc'⟩, ⟨-, hd⟩, -, he⟩ := h
  simp only [List.mem_append, List.mem_cons] at hc
  rcases hc with h | h | h | h | h | h | h | h | h
  exacts [.inl (ha _ h), .inr h, .inl (hb _ h), .inr h, .inl (hc' _ h), .inr h, .inl (hd _ h),
    .inr h, .inl (he _ h)]

/-! ## The first identifier of a text -/

theorem free_nil : Free [] := by
  intro u hu h
  have hlength := hu.length_eq
  rw [List.infix_nil.mp h] at hlength
  exact nomatch hlength

theorem free_cons_iff {c : Char} :
    Free (c :: text) ↔ beginsWithIdentifier (c :: text) = false ∧ Free text := by
  rw [← Bool.not_eq_true, beginsWithIdentifier_iff]
  constructor
  · intro h
    constructor
    · rintro ⟨u, rest, heq, hu⟩
      exact h u hu ⟨[], rest, heq.symm⟩
    · exact fun u hu hpart => h u hu (hpart.trans (List.suffix_cons c text).isInfix)
  · rintro ⟨hbegins, hfree⟩ u hu hpart
    rcases List.infix_cons_iff.mp hpart with ⟨rest, heq⟩ | hpart
    · exact hbegins ⟨u, rest, heq.symm, hu⟩
    · exact hfree u hu hpart

theorem first_append (h : IsIdentifier u) (rest : List Char) : First (u ++ rest) [] u rest :=
  ⟨rfl, h, fun _ _ _ _ _ => Nat.zero_le _⟩

theorem first_cons_iff {c c' : Char} :
    First (c :: text) (c' :: before) u rest
      ↔ c' = c ∧ beginsWithIdentifier (c :: text) = false ∧ First text before u rest := by
  rw [← Bool.not_eq_true, beginsWithIdentifier_iff]
  constructor
  · rintro ⟨heq, hu, hleft⟩
    obtain ⟨rfl, htext⟩ := List.cons.inj heq
    refine ⟨rfl, ?_, htext, hu, ?_⟩
    · rintro ⟨u', rest', heq', hu'⟩
      exact absurd (hleft [] u' rest' heq' hu') (Nat.not_succ_le_zero _)
    · intro before' u' rest' heq' hu'
      exact Nat.le_of_succ_le_succ (hleft (c :: before') u' rest' (congrArg (c :: ·) heq') hu')
  · rintro ⟨rfl, hbegins, htext, hu, hleft⟩
    refine ⟨congrArg (c' :: ·) htext, hu, ?_⟩
    intro before' u' rest' heq' hu'
    cases before' with
    | nil => exact absurd ⟨u', rest', heq', hu'⟩ hbegins
    | cons d before' =>
        exact Nat.succ_le_succ (hleft before' u' rest' (List.cons.inj heq').2 hu')

/-- A text that has an identifier has a first one. -/
theorem exists_first (h : ¬ Free text) : ∃ before u rest, First text before u rest := by
  induction text with
  | nil => exact absurd free_nil h
  | cons c text ih =>
      cases hbegins : beginsWithIdentifier (c :: text) with
      | true =>
          obtain ⟨u, rest, heq, hu⟩ := beginsWithIdentifier_iff.mp hbegins
          exact ⟨[], u, rest, heq ▸ first_append hu rest⟩
      | false =>
          rw [free_cons_iff, and_iff_right hbegins] at h
          obtain ⟨before, u, rest, hfirst⟩ := ih h
          exact ⟨c :: before, u, rest, first_cons_iff.mpr ⟨rfl, hbegins, hfirst⟩⟩

theorem First.length_rest_lt (h : First text before u rest) : rest.length < text.length := by
  have hu := h.identifier.length_eq
  rw [h.eq, List.length_append, List.length_append]
  omega

/-- There is only one first identifier. -/
theorem First.unique {before' u' rest' : List Char} (h : First text before u rest)
    (h' : First text before' u' rest') : before = before' ∧ u = u' ∧ rest = rest' := by
  have hlength : before.length = before'.length :=
    Nat.le_antisymm (h.leftmost _ _ _ h'.eq h'.identifier) (h'.leftmost _ _ _ h.eq h.identifier)
  have heq := h.eq.symm.trans h'.eq
  rw [List.append_assoc, List.append_assoc] at heq
  obtain ⟨hbefore, heq⟩ := List.append_inj heq hlength
  obtain ⟨hu, hrest⟩ := List.append_inj heq
    (h.identifier.length_eq.trans h'.identifier.length_eq.symm)
  exact ⟨hbefore, hu, hrest⟩

/-- What stands in front of the first identifier has none. -/
theorem First.free_before (h : First text before u rest) : Free before := by
  rintro u' hu' ⟨start, more, heq⟩
  have hle := h.leftmost start u' (more ++ u ++ rest) (by rw [h.eq, ← heq]; simp) hu'
  have hlength := congrArg List.length heq
  rw [List.length_append, List.length_append, hu'.length_eq] at hlength
  omega

/-! ## All identifiers of a text -/

/-- Every text can be parted. -/
theorem exists_parted (text : List Char) : ∃ parts last, Parted text parts last := by
  by_cases h : Free text
  · exact ⟨[], text, .last h⟩
  · obtain ⟨before, u, rest, hfirst⟩ := exists_first h
    have hlt := hfirst.length_rest_lt
    obtain ⟨parts, last, hmore⟩ := exists_parted rest
    exact ⟨_, last, .next hfirst hmore⟩
termination_by text.length

namespace Parted

theorem free_iff (h : Parted text parts last) : Free text ↔ parts = [] := by
  cases h with
  | last free => exact ⟨fun _ => rfl, fun _ => free⟩
  | next first more =>
      refine ⟨fun hfree => ?_, nofun⟩
      exact absurd ⟨_, _, first.eq.symm⟩ (hfree _ first.identifier)

/-- A text can be parted in one way only. -/
theorem unique {parts' : List (List Char × List Char)} {last' : List Char}
    (h : Parted text parts last) (h' : Parted text parts' last') :
    parts = parts' ∧ last = last' := by
  induction h generalizing parts' last' with
  | last free =>
      cases h' with
      | last free' => exact ⟨rfl, rfl⟩
      | next first' more' => exact nomatch (Parted.next first' more').free_iff.mp free
  | next first more ih =>
      cases h' with
      | last free' => exact nomatch (Parted.next first more).free_iff.mp free'
      | next first' more' =>
          obtain ⟨rfl, rfl, rfl⟩ := first.unique first'
          obtain ⟨rfl, rfl⟩ := ih more'
          exact ⟨rfl, rfl⟩

/-- The parts make up the text. -/
theorem text_eq (h : Parted text parts last) :
    text = (parts.flatMap fun p => p.1 ++ p.2) ++ last := by
  induction h with
  | last free => rfl
  | next first more ih => rw [first.eq, ih]; simp

end Parted

/-! ## What folding makes of a text -/

/-- Characters that are covered do not count. -/
theorem foldFrom_eq_drop (covered : Nat) (text : List Char) :
    foldFrom covered text = foldFrom 0 (text.drop covered) := by
  induction covered generalizing text with
  | zero => rw [List.drop_zero]
  | succ n ih =>
      cases text with
      | nil => rw [List.drop_nil, foldFrom, foldFrom]
      | cons c rest => rw [foldFrom, ih, List.drop_succ_cons]

theorem foldFrom_append (h : IsIdentifier u) (rest : List Char) :
    foldFrom 0 (u ++ rest) = mark ++ foldFrom 0 rest := by
  have hbegins : beginsWithIdentifier (u ++ rest) = true :=
    beginsWithIdentifier_iff.mpr ⟨u, rest, rfl, h⟩
  have hlength := h.length_eq
  cases u with
  | nil => exact nomatch hlength
  | cons c u =>
      rw [List.cons_append] at hbegins ⊢
      rw [foldFrom, if_pos hbegins, foldFrom_eq_drop, List.drop_left' (Nat.succ.inj hlength)]

theorem foldFrom_of_free (h : Free text) : foldFrom 0 text = text := by
  induction text with
  | nil => rfl
  | cons c rest ih =>
      obtain ⟨hbegins, hrest⟩ := free_cons_iff.mp h
      rw [foldFrom, hbegins, if_neg Bool.false_ne_true, ih hrest]

theorem First.foldFrom_eq (h : First text before u rest) :
    foldFrom 0 text = before ++ mark ++ foldFrom 0 rest := by
  induction before generalizing text with
  | nil =>
      rw [h.eq]
      exact foldFrom_append h.identifier rest
  | cons c before ih =>
      obtain ⟨text', rfl⟩ : ∃ text', text = c :: text' := ⟨before ++ u ++ rest, h.eq⟩
      obtain ⟨-, hbegins, hfirst⟩ := first_cons_iff.mp h
      rw [foldFrom, hbegins, if_neg Bool.false_ne_true, ih hfirst]
      rfl

/-- The mark takes the place of each identifier. -/
theorem Parted.foldFrom_eq (h : Parted text parts last) :
    foldFrom 0 text = (parts.flatMap fun p => p.1 ++ mark) ++ last := by
  induction h with
  | last free => exact foldFrom_of_free free
  | next first more ih => rw [first.foldFrom_eq, ih]; simp

/-! ## No identifier is left -/

theorem prefix_of_prefix_append_cons {v xs ys : List Char} {c : Char} (hc : c ∉ v)
    (h : v <+: xs ++ c :: ys) : v <+: xs := by
  rcases List.prefix_or_prefix_of_prefix h (List.prefix_append xs (c :: ys)) with hv | ⟨w, rfl⟩
  · exact hv
  · cases w with
    | nil => rw [List.append_nil]
    | cons d w =>
        rw [List.prefix_append_right_inj, List.cons_prefix_cons] at h
        exact absurd (List.mem_append_right xs (h.1 ▸ List.mem_cons_self)) hc

/-- A part of a text that does not have some character lies on one side of
    it. -/
theorem infix_or_infix_of_notMem {v xs ys : List Char} {c : Char} (hc : c ∉ v)
    (h : v <:+: xs ++ c :: ys) : v <:+: xs ∨ v <:+: ys := by
  induction xs with
  | nil =>
      rcases List.infix_cons_iff.mp h with hfront | hpart
      · have hleft : v <+: [] := prefix_of_prefix_append_cons hc hfront
        exact Or.inl hleft.isInfix
      · exact Or.inr hpart
  | cons d xs ih =>
      rcases List.infix_cons_iff.mp h with hfront | hpart
      · have hleft : v <+: d :: xs := prefix_of_prefix_append_cons hc hfront
        exact Or.inl hleft.isInfix
      · exact (ih hpart).imp_left fun hleft => hleft.trans (List.suffix_cons d xs).isInfix

/-- Between two texts without identifiers, a character that no identifier
    has. -/
theorem free_of_append_cons {text' : List Char} {c : Char} (h : Free text) (h' : Free text')
    (hc : isHexDigit c = false ∧ c ≠ '-') : Free (text ++ c :: text') := by
  intro u hu hpart
  have hmem : c ∉ u := by
    intro hmem
    rcases hu.mem hmem with hdigit | hhyphen
    · exact nomatch hc.1.symm.trans hdigit
    · exact hc.2 hhyphen
  rcases infix_or_infix_of_notMem hmem hpart with hleft | hright
  · exact h u hu hleft
  · exact h' u hu hright

/-- A text that is too short. -/
theorem free_of_length_lt (h : text.length < 36) : Free text := by
  intro u hu hpart
  have hle := hpart.length_le
  rw [hu.length_eq] at hle
  omega

/-- No identifier reaches into a mark, or across it. -/
theorem free_append_mark {text' : List Char} (h : Free text) (h' : Free text') :
    Free (text ++ mark ++ text') := by
  have hmark : text ++ mark ++ text' = text ++ '<' :: (['u', 'u', 'i', 'd'] ++ '>' :: text') := by
    simp [mark]
  rw [hmark]
  have hname : Free ['u', 'u', 'i', 'd'] := free_of_length_lt (by decide)
  exact free_of_append_cons h (free_of_append_cons hname h' (by decide)) (by decide)

theorem Parted.free_foldFrom (h : Parted text parts last) : Free (foldFrom 0 text) := by
  induction h with
  | last free => rwa [foldFrom_of_free free]
  | next first more ih =>
      rw [first.foldFrom_eq]
      exact free_append_mark first.free_before ih

/-- **FOLDING A ROUTING KEY**: a key is parted at its identifiers, from left
    to right, in exactly one way. The folded key has the mark in the place of
    each identifier, and no identifier is left in it, so that it is folded
    already, as is every key that has no identifier. -/
theorem fold_replaces_identifiers (key : String) :
    (∃! p : List (List Char × List Char) × List Char, Parted key.toList p.1 p.2)
      ∧ (∀ parts last, Parted key.toList parts last →
          key.toList = (parts.flatMap fun p => p.1 ++ p.2) ++ last
            ∧ (fold key).toList = (parts.flatMap fun p => p.1 ++ "<uuid>".toList) ++ last)
      ∧ Free (fold key).toList
      ∧ fold (fold key) = fold key
      ∧ (Free key.toList → fold key = key) := by
  have hunchanged (key : String) (h : Free key.toList) : fold key = key := by
    rw [fold, foldFrom_of_free h, String.ofList_toList]
  obtain ⟨parts, last, hparted⟩ := exists_parted key.toList
  have hfree : Free (fold key).toList := by
    rw [fold, String.toList_ofList]
    exact hparted.free_foldFrom
  refine ⟨⟨(parts, last), hparted, ?_⟩, ?_, hfree, hunchanged _ hfree, hunchanged key⟩
  · rintro ⟨parts', last'⟩ hparted'
    obtain ⟨rfl, rfl⟩ := hparted.unique hparted'
    rfl
  · intro parts last hparted
    refine ⟨hparted.text_eq, ?_⟩
    rw [fold, String.toList_ofList]
    exact hparted.foldFrom_eq

/-- Two candidates overlap here. The left one is folded, and the digit in front
    of it is kept. -/
example :
    fold "f00112233-0011-2233-4455-66778899AABB-2233-4455-6677-8899aabbccdd"
      = "f<uuid>-2233-4455-6677-8899aabbccdd" := by
  decide

end BusWindow.RoutingKey
