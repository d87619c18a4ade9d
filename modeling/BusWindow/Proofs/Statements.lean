import BusWindow.Proofs.Growth
import BusWindow.Proofs.Keys
import BusWindow.Proofs.Moments

/-!
# Statements — what TOML documents are read from

    A document is a list of statements, each on its own line: headers and
    keys with values. `DocumentText` says which texts spell which statements,
    and `Denotes` that the statements of a text build a document with a
    value. There is no reader in either of them.

    The readers are compared with the grammar from the inside out: scalars
    (`scalar_eq`, `scalarText_of_scalar`), the items of an array and the
    entries of a table for any reader of what is inside (`itemsFrom_eq`,
    `bracedFrom_eq`), values by induction on the depth that is left
    (`value_eq`, `valueText_of_value`), lines (`line_eq_some_iff`) and whole
    texts. A reader has as much fuel as its text has characters, and what is
    spelled is never longer than that. `parse?_eq_some_iff` is the sum of it,
    and `Spells.parse?_eq_none_of_twice` one of the texts that are refused.
-/

namespace BusWindow.Toml

open Json (Value)

/-! ## Values that are neither arrays nor tables -/

/-- The texts of a value that is neither an array nor a table. -/
inductive ScalarText : List Char → Value → Prop where
  | true : ScalarText ['t', 'r', 'u', 'e'] (.boolean true)
  | false : ScalarText ['f', 'a', 'l', 's', 'e'] (.boolean false)
  | string {t : List Char} {a : String} (string : StringText t a) : ScalarText t (.string a)
  | moment {t : List Char} (moment : MomentText t) : ScalarText t momentValue
  | number {t : List Char} {v : Value} (number : NumberText t v) : ScalarText t v

/-- What is read from no text at all, and what could be taken for blanks or
    for the end of an array, begins no value. -/
def BeginsValue (t : List Char) : Prop :=
  ∃ c more, t = c :: more ∧ c ∉ [' ', '\t', '\n', '\r', '#', ']']

section Scalars

variable {c : Char} {s t rest others more : List Char} {v : Value}

/-- What a number may begin with. -/
def BeginsNumber (c : Char) : Prop := (∃ n, Digit 10 c n) ∨ c ∈ ['+', '-', 'i', 'n']

/-- What a number may begin with is kept apart from other marks. -/
theorem BeginsNumber.notMem (h : BeginsNumber c)
    (apart : ∀ d ∈ others, isDigit d = false ∧ d ∉ ['+', '-', 'i', 'n']) : c ∉ others := by
  intro hmem
  obtain ⟨hdigit, hother⟩ := apart c hmem
  rcases h with h | h
  · exact absurd (isDigit_iff.mpr h) (Bool.eq_false_iff.mp hdigit)
  · exact hother h

/-- A sign may stand in front of what begins a number. -/
theorem SignText.begins {g u : List Char} {negative : Bool} (h : SignText g negative)
    (begins : ∃ c more, u = c :: more ∧ BeginsNumber c) :
    ∃ c more, g ++ u = c :: more ∧ BeginsNumber c := by
  cases h with
  | none => exact begins
  | plus => exact ⟨_, _, rfl, Or.inr (by decide)⟩
  | minus => exact ⟨_, _, rfl, Or.inr (by decide)⟩

theorem WholeText.begins {ds u : List Char} (h : WholeText t ds) :
    ∃ c more, t ++ u = c :: more ∧ BeginsNumber c := by
  obtain ⟨⟨digit, -⟩, -⟩ := h
  exact ⟨_, _, rfl, Or.inl digit⟩

/-- A number begins with a digit, a sign or one of the two words. -/
theorem NumberText.begins (h : NumberText t v) : ∃ c more, t = c :: more ∧ BeginsNumber c := by
  cases h with
  | integer sign whole _ _ => simpa using sign.begins (whole.begins (u := []))
  | inRadix => exact ⟨_, _, rfl, Or.inl ⟨0, by decide⟩⟩
  | double sign whole _ _ _ _ _ => exact sign.begins whole.begins
  | special sign word =>
      obtain rfl | rfl := word
      · exact sign.begins ⟨_, _, rfl, Or.inr (by decide)⟩
      · exact sign.begins ⟨_, _, rfl, Or.inr (by decide)⟩

/-- A moment begins with a digit. -/
theorem MomentText.begins (h : MomentText t) : ∃ c more, t = c :: more ∧ BeginsNumber c := by
  obtain ⟨ds, c, more, rfl, hnonempty, hdigits, -⟩ := h.marked
  obtain ⟨d, ds, rfl⟩ := List.exists_cons_of_ne_nil hnonempty
  exact ⟨d, _, rfl, Or.inl (hdigits d List.mem_cons_self)⟩

/-- A string begins with a quote or an apostrophe. -/
theorem StringText.begins {a : String} (h : StringText t a) :
    ∃ c more, t = c :: more ∧ (c = '"' ∨ c = '\'') := by
  cases h with
  | quoted => exact ⟨_, _, rfl, Or.inl rfl⟩
  | literal => exact ⟨_, _, rfl, Or.inr rfl⟩
  | lines => exact ⟨_, _, rfl, Or.inl rfl⟩
  | literalLines => exact ⟨_, _, rfl, Or.inr rfl⟩

/-- A value that is neither an array nor a table begins with none of the
    marks around values. -/
theorem ScalarText.begins (h : ScalarText t v) :
    ∃ c more, t = c :: more ∧ c ∉ [' ', '\t', '\n', '\r', '#', ']', '[', '{'] := by
  cases h with
  | true => exact ⟨_, _, rfl, by decide⟩
  | false => exact ⟨_, _, rfl, by decide⟩
  | string string =>
      obtain ⟨c, more, rfl, rfl | rfl⟩ := string.begins
      · exact ⟨_, _, rfl, by decide⟩
      · exact ⟨_, _, rfl, by decide⟩
  | moment moment =>
      obtain ⟨c, more, rfl, hc⟩ := moment.begins
      exact ⟨c, more, rfl, hc.notMem (List.forall_iff_forall_mem.mp (by decide))⟩
  | number number =>
      obtain ⟨c, more, rfl, hc⟩ := number.begins
      exact ⟨c, more, rfl, hc.notMem (List.forall_iff_forall_mem.mp (by decide))⟩

/-- Behind a quote a string is read. -/
theorem scalar_string (quote : c = '"' ∨ c = '\'') :
    scalar (c :: more) = (text (c :: more)).map fun r => (.string r.1, r.2) := by
  obtain rfl | rfl := quote <;> rfl

/-- Behind a digit a moment is tried first and then a number. -/
theorem scalar_number (begins : BeginsNumber c) :
    scalar (c :: more)
      = match moment (c :: more) with
        | some r => some r
        | none => numeral (c :: more) := by
  have hother : c ∉ ['t', 'f', '"', '\''] :=
    begins.notMem (List.forall_iff_forall_mem.mp (by decide))
  simp only [List.mem_cons, List.not_mem_nil, or_false, not_or] at hother
  unfold scalar
  split
  · next h => exact absurd (List.cons.inj h).1 hother.1
  · next h => exact absurd (List.cons.inj h).1 hother.2.1
  · next h => exact absurd (List.cons.inj h).1 hother.2.2.1
  · next h => exact absurd (List.cons.inj h).1 hother.2.2.2
  · rfl

/-- A spelled scalar is read up to what may stand behind it. -/
theorem scalar_eq (h : ScalarText t v) (ends : Delimited rest) :
    scalar (t ++ rest) = some (v, rest) := by
  cases h with
  | true => rfl
  | false => rfl
  | @string t a string =>
      have hread : text (t ++ rest) = some (a, rest) :=
        text_eq string (fun hhead => absurd (ends.head _ hhead) (by decide))
          (fun hhead => absurd (ends.head _ hhead) (by decide))
      obtain ⟨c, more, rfl, hquote⟩ := string.begins
      rw [List.cons_append] at hread ⊢
      rw [scalar_string hquote, hread, Option.map_some]
  | moment moment =>
      have hread := moment_eq moment ends
      obtain ⟨c, more, rfl, hc⟩ := moment.begins
      rw [List.cons_append] at hread ⊢
      simp only [scalar_number hc, hread]
  | number number =>
      have hmoment := number.moment_eq_none ends
      have hread := numeral_eq number ends
      obtain ⟨c, more, rfl, hc⟩ := number.begins
      rw [List.cons_append] at hmoment hread ⊢
      simp only [scalar_number hc, hmoment, hread]

theorem stringText_of_map (h : (text s).map (fun r => (Value.string r.1, r.2)) = some (v, rest)) :
    ∃ t, s = t ++ rest ∧ ScalarText t v := by
  obtain ⟨⟨a, rest'⟩, hread, heq⟩ := Option.map_eq_some_iff.mp h
  obtain ⟨rfl, rfl⟩ := Prod.mk.inj heq
  obtain ⟨t, rfl, hstring⟩ := stringText_of_text hread
  exact ⟨t, rfl, .string hstring⟩

/-- What is read as a scalar is spelled as one. -/
theorem scalarText_of_scalar (h : scalar s = some (v, rest)) :
    ∃ t, s = t ++ rest ∧ ScalarText t v := by
  unfold scalar at h
  split at h
  · obtain ⟨rfl, rfl⟩ := Prod.mk.inj (Option.some.inj h)
    exact ⟨_, rfl, .true⟩
  · obtain ⟨rfl, rfl⟩ := Prod.mk.inj (Option.some.inj h)
    exact ⟨_, rfl, .false⟩
  · exact stringText_of_map h
  · exact stringText_of_map h
  · split at h
    · next r hread =>
      obtain rfl := Option.some.inj h
      obtain ⟨rfl, t, rfl, hmoment⟩ := momentText_of_moment hread
      exact ⟨t, rfl, .moment hmoment⟩
    · obtain ⟨t, rfl, hnumber⟩ := numberText_of_numeral h
      exact ⟨t, rfl, .number hnumber⟩

end Scalars

/-! ## Arrays and tables between braces -/

/-- The items of an array from behind its opening bracket on, where `Item`
    says what an item is. Lines and comments may stand between them, and a
    comma behind the last. -/
inductive ItemsText (Item : List Char → Value → Prop) : List Char → List Value → Prop where
  | close {f : List Char} (filler : FillerText f) : ItemsText Item (f ++ [']']) []
  | last {f t g : List Char} {v : Value} (before : FillerText f) (item : Item t v)
      (behind : FillerText g) : ItemsText Item (f ++ (t ++ (g ++ [']']))) [v]
  | more {f t g u : List Char} {v : Value} {vs : List Value} (before : FillerText f)
      (item : Item t v) (behind : FillerText g) (more : ItemsText Item u vs) :
      ItemsText Item (f ++ (t ++ (g ++ ',' :: u))) (v :: vs)

/-- A key with its value. A key has fewer than eighty parts. -/
inductive KeyValueText (Item : List Char → Value → Prop) :
    List Char → List String → Value → Prop where
  | mk {k b b' t : List Char} {path : List String} {v : Value} (key : KeyText k path)
      (parts : path.length < 80) (before : Spaces b) (behind : Spaces b') (value : Item t v) :
      KeyValueText Item (k ++ (b ++ '=' :: (b' ++ t))) path v

/-- The entries of a table between braces up to its closing brace, and how the
    table grows with them. -/
inductive EntriesText (Item : List Char → Value → Prop) :
    List Char → Entries → Entries → Prop where
  | last {b t b' : List Char} {path : List String} {v : Value} {es es' : Entries}
      (before : Spaces b) (entry : KeyValueText Item t path v)
      (puts : Puts path v .headed es es') (behind : Spaces b') :
      EntriesText Item (b ++ (t ++ (b' ++ ['}']))) es es'
  | more {b t b' u : List Char} {path : List String} {v : Value} {es es' es'' : Entries}
      (before : Spaces b) (entry : KeyValueText Item t path v)
      (puts : Puts path v .headed es es') (behind : Spaces b')
      (more : EntriesText Item u es' es'') :
      EntriesText Item (b ++ (t ++ (b' ++ ',' :: u))) es es''

/-- The texts of a value in which at most `depth` arrays and tables are open at
    once. -/
def ValueText : (depth : Nat) → List Char → Value → Prop
  | 0, t, v => ScalarText t v
  | depth + 1, t, v =>
    ScalarText t v
      ∨ (∃ u vs, t = '[' :: u ∧ v = .array vs ∧ ItemsText (ValueText depth) u vs)
      ∨ (∃ b, Spaces b ∧ t = '{' :: (b ++ ['}']) ∧ v = .object [])
      ∨ ∃ u es, t = '{' :: u ∧ v = .object (entriesValue es) ∧ EntriesText (ValueText depth) u [] es

/-! ## What may follow an item -/

section Ends

variable {c : Char} {s t b e g rest : List Char} {fuel : Nat}

/-- An item may be followed by blanks and a mark. -/
theorem delimited_of_spaces (spaces : Spaces b) (mark : c ∈ delimiters) :
    Delimited (b ++ c :: rest) := by
  have hall : ∀ d ∈ delimiters, d ≠ ' ' ∧ d ≠ '\t' :=
    List.forall_iff_forall_mem.mp (by decide)
  obtain ⟨hspace, htab⟩ := hall c mark
  rw [Delimited, skipSpace_append spaces, skipSpace_cons hspace htab]
  rintro d hd
  obtain rfl := Option.some.inj hd
  exact mark

/-- An item may be followed by the end of its line. -/
theorem TailText.delimited (h : TailText t) (close : LineClose e rest) :
    Delimited (t ++ (e ++ rest)) := by
  obtain @⟨b, t, spaces, comment⟩ := h
  rw [List.append_assoc]
  cases comment with
  | some => exact delimited_of_spaces spaces (by decide)
  | none =>
      cases close with
      | ended ends =>
          cases ends with
          | lf => exact delimited_of_spaces spaces (by decide)
          | crlf => exact delimited_of_spaces spaces (by decide)
      | finished =>
          rw [Delimited, skipSpace_append spaces]
          rintro c ⟨⟩

/-- An item may be followed by lines and then a comma or a bracket. -/
theorem FillerText.delimited (h : FillerText g) (mark : c ∈ delimiters) :
    Delimited (g ++ c :: rest) := by
  obtain ⟨lines, spaces⟩ := h
  cases lines with
  | nil => exact delimited_of_spaces spaces mark
  | line tail ends more =>
      simp only [List.append_assoc]
      exact tail.delimited (.ended ends)

/-- Lines are passed over in front of an item. -/
theorem exists_fillerText (h : skipLines fuel s = some rest) (nonempty : rest ≠ []) :
    ∃ f, FillerText f ∧ s = f ++ rest := by
  obtain ⟨l, t, hl, -, rfl, hspaces⟩ := exists_filler h
  exact ⟨l ++ t, .mk hl (hspaces nonempty), (List.append_assoc l t rest).symm⟩

end Ends

section Values

variable {Item : List Char → Value → Prop} {item : List Char → Scan Value} {c : Char}
  {f s t u rest more : List Char} {v : Value} {vs read : List Value} {path : List String}
  {es es' : Entries} {lines fuel depth : Nat} {r : Value × List Char}

/-- A reader takes what is spelled as an item, if the text of the item is no
    longer than a bound and something fit to follow follows it. -/
structure Takes (bound : Nat) (Item : List Char → Value → Prop) (item : List Char → Scan Value) :
    Prop where
  begins : ∀ {t v}, Item t v → BeginsValue t
  reads : ∀ {t v rest}, Item t v → t.length ≤ bound → Delimited rest →
    item (t ++ rest) = some (v, rest)

/-- A reader takes nothing but what is spelled as an item. -/
def TakesOnly (Item : List Char → Value → Prop) (item : List Char → Scan Value) : Prop :=
  ∀ {s v rest}, item s = some (v, rest) → ∃ t, s = t ++ rest ∧ Item t v

/-- Nothing is passed over in front of a value. -/
theorem BeginsValue.begins (h : BeginsValue t) : Begins (t ++ rest) := by
  obtain ⟨c, more, rfl, hc⟩ := h
  rintro d hd
  obtain rfl := Option.some.inj hd
  simp only [List.mem_cons, not_or] at hc ⊢
  tauto

/-- A reader of items reads the next item, unless the array ends here. -/
theorem itemsFrom_item (begins : BeginsValue t) (filler : FillerText f)
    (enough : f.length ≤ lines) :
    itemsFrom item lines (fuel + 1) read (f ++ (t ++ s))
      = match item (t ++ s) with
        | none => none
        | some (v, rest) =>
          match skipLines lines rest with
          | some (',' :: rest) => itemsFrom item lines fuel (v :: read) rest
          | some (']' :: rest) => some (.array (v :: read).reverse, rest)
          | _ => none := by
  rw [itemsFrom, skipLines_filler filler begins.begins enough]
  obtain ⟨c, more, rfl, hc⟩ := begins
  split
  · next h => cases h
  · next h =>
    obtain rfl := (List.cons.inj (Option.some.inj h)).1
    exact absurd hc (by decide)
  · next h =>
    obtain rfl := Option.some.inj h
    rfl

/-- Spelled items are read up to the closing bracket, by induction on how they
    are spelled. -/
theorem itemsFrom_eq (takes : Takes lines Item item) (h : ItemsText Item u vs)
    (enough : u.length ≤ lines) (enough' : u.length ≤ fuel) :
    itemsFrom item lines fuel read (u ++ rest) = some (.array (read.reverse ++ vs), rest) := by
  induction h generalizing read fuel with
  | @close f filler =>
      simp only [List.length_append, List.length_singleton] at enough enough'
      obtain ⟨fuel, rfl⟩ : ∃ k, fuel = k + 1 := Nat.exists_eq_add_one.mpr (by omega)
      have hskip : skipLines lines (f ++ ']' :: rest) = some (']' :: rest) :=
        skipLines_filler filler (by simp [Begins]) (by omega)
      rw [List.append_assoc, List.singleton_append, List.append_nil, itemsFrom, hskip]
      rfl
  | @last f t g v before hitem behind =>
      simp only [List.length_append, List.length_singleton] at enough enough'
      obtain ⟨fuel, rfl⟩ : ∃ k, fuel = k + 1 := Nat.exists_eq_add_one.mpr (by omega)
      have hends : Delimited (g ++ ']' :: rest) := behind.delimited (by decide)
      have hread := takes.reads hitem (by omega) hends
      have hskip : skipLines lines (g ++ ']' :: rest) = some (']' :: rest) :=
        skipLines_filler behind (by simp [Begins]) (by omega)
      simp only [List.append_assoc, List.singleton_append]
      rw [itemsFrom_item (takes.begins hitem) before (by omega), hread]
      simp only [hskip, List.reverse_cons]
  | @more f t g u v vs before hitem behind _ ih =>
      simp only [List.length_append, List.length_cons] at enough enough'
      obtain ⟨fuel, rfl⟩ : ∃ k, fuel = k + 1 := Nat.exists_eq_add_one.mpr (by omega)
      have hends : Delimited (g ++ ',' :: (u ++ rest)) := behind.delimited (by decide)
      have hread := takes.reads hitem (by omega) hends
      have hskip : skipLines lines (g ++ ',' :: (u ++ rest)) = some (',' :: (u ++ rest)) :=
        skipLines_filler behind (by simp [Begins]) (by omega)
      simp only [List.append_assoc, List.cons_append]
      rw [itemsFrom_item (takes.begins hitem) before (by omega), hread]
      simp only [hskip]
      rw [ih (by omega) (by omega), List.reverse_cons, List.append_assoc, List.singleton_append]

/-- What is read as items is spelled so, by induction on the fuel. -/
theorem itemsText_of_itemsFrom (only : TakesOnly Item item)
    (begins : ∀ {t v}, Item t v → BeginsValue t)
    (h : itemsFrom item lines fuel read s = some (v, rest)) :
    ∃ u vs, s = u ++ rest ∧ ItemsText Item u vs ∧ v = .array (read.reverse ++ vs) := by
  induction fuel generalizing read s with
  | zero => cases h
  | succ fuel ih =>
      rw [itemsFrom] at h
      split at h
      · cases h
      · next after hskip =>
        obtain ⟨rfl, rfl⟩ := Prod.mk.inj (Option.some.inj h)
        obtain ⟨f, filler, rfl⟩ := exists_fillerText hskip (List.cons_ne_nil _ _)
        exact ⟨f ++ [']'], [], by simp, .close filler, by simp⟩
      · next front _ hskip =>
        split at h
        · cases h
        · next w after hread =>
          obtain ⟨t, rfl, hitem⟩ := only hread
          have hnonempty : t ++ after ≠ [] := by
            obtain ⟨c, more, rfl, -⟩ := begins hitem
            exact List.cons_ne_nil _ _
          obtain ⟨f, before, rfl⟩ := exists_fillerText hskip hnonempty
          split at h
          · next more hskip' =>
            obtain ⟨g, behind, rfl⟩ := exists_fillerText hskip' (List.cons_ne_nil _ _)
            obtain ⟨u, vs, rfl, hmore, rfl⟩ := ih h
            exact ⟨_, w :: vs, by simp, .more before hitem behind hmore, by simp⟩
          · next more hskip' =>
            obtain ⟨rfl, rfl⟩ := Prod.mk.inj (Option.some.inj h)
            obtain ⟨g, behind, rfl⟩ := exists_fillerText hskip' (List.cons_ne_nil _ _)
            exact ⟨_, [w], by simp, .last before hitem behind, by simp⟩
          · cases h

theorem BeginsValue.skipSpace_eq (h : BeginsValue t) : skipSpace (t ++ rest) = t ++ rest := by
  obtain ⟨c, more, rfl, hc⟩ := h
  simp only [List.mem_cons, not_or] at hc
  exact skipSpace_cons hc.1 hc.2.1

/-- A spelled entry is read up to what may stand behind it. -/
theorem keyValue_eq (takes : Takes lines Item item) (h : KeyValueText Item t path v)
    {b : List Char} (spaces : Spaces b) (enough : t.length ≤ lines) (ends : Delimited rest) :
    keyValue item (b ++ (t ++ rest)) = some ((path, v), rest) := by
  obtain @⟨k, b₁, b₂, t, path, v, hkey, hparts, before, behind, hitem⟩ := h
  simp only [List.length_append, List.length_cons] at enough
  have hread := takes.reads hitem (by omega) ends
  have hkey (after : List Char) :
      key (b ++ (k ++ (b₁ ++ '=' :: after))) = some (path, '=' :: after) :=
    key_eq hkey (Nat.le_of_lt_succ hparts) spaces before (Or.inl rfl)
  simp only [List.append_assoc, List.cons_append]
  rw [keyValue, hkey]
  simp only [skipSpace_append behind, (takes.begins hitem).skipSpace_eq, hread, Option.map_some]

/-- What is read as an entry is spelled as one. -/
theorem keyValueText_of_keyValue (only : TakesOnly Item item)
    (h : keyValue item s = some ((path, v), rest)) :
    ∃ b t, Spaces b ∧ s = b ++ (t ++ rest) ∧ KeyValueText Item t path v := by
  unfold keyValue at h
  split at h
  · cases h
  · next path' after hpart =>
    obtain ⟨⟨w, rest'⟩, hread, heq⟩ := Option.map_eq_some_iff.mp h
    obtain ⟨hpath, rfl⟩ := Prod.mk.inj heq
    obtain ⟨rfl, rfl⟩ := Prod.mk.inj hpath
    obtain ⟨hparts, b, k, b', spaces, hkey, before, rfl⟩ := keyText_of_key hpart
    obtain ⟨b'', behind, hafter⟩ := exists_spaces after
    obtain ⟨t, ht, hitem⟩ := only hread
    refine ⟨b, _, spaces, ?_, .mk hkey (Nat.lt_succ_of_le hparts) before behind hitem⟩
    rw [hafter, ht]
    simp
  · cases h

/-- A key has a part. -/
theorem KeyText.ne_nil (h : KeyText t path) : path ≠ [] := by
  cases h with
  | one => exact List.cons_ne_nil _ _
  | dotted => exact List.cons_ne_nil _ _

theorem KeyValueText.ne_nil (h : KeyValueText Item t path v) : path ≠ [] := by
  obtain ⟨key, -⟩ := h
  exact key.ne_nil

/-- Spelled entries are read up to the closing brace, and the table grows as
    they have it. -/
theorem bracedFrom_eq (takes : Takes lines Item item) (h : EntriesText Item u es es')
    (distinct : es.Distinct) (enough : u.length ≤ lines) (enough' : u.length ≤ fuel) :
    bracedFrom item fuel es (u ++ rest) = some (.object (entriesValue es'), rest) := by
  induction h generalizing fuel with
  | @last b t b' path v es es' before entry puts behind =>
      simp only [List.length_append, List.length_singleton] at enough enough'
      obtain ⟨fuel, rfl⟩ : ∃ k, fuel = k + 1 := Nat.exists_eq_add_one.mpr (by omega)
      have hput := (putPath_eq_some_iff distinct entry.ne_nil).mpr puts
      have hends : Delimited (b' ++ '}' :: rest) := delimited_of_spaces behind (by decide)
      have hread := keyValue_eq takes entry before (by omega) hends
      simp only [List.append_assoc, List.singleton_append]
      rw [bracedFrom, hread]
      simp only [hput, skipSpace_append behind, skipSpace_cons (c := '}') (by decide) (by decide)]
  | @more b t b' u path v es es' es'' before entry puts behind _ ih =>
      simp only [List.length_append, List.length_cons] at enough enough'
      obtain ⟨fuel, rfl⟩ : ∃ k, fuel = k + 1 := Nat.exists_eq_add_one.mpr (by omega)
      have hput := (putPath_eq_some_iff distinct entry.ne_nil).mpr puts
      have hends : Delimited (b' ++ ',' :: (u ++ rest)) := delimited_of_spaces behind (by decide)
      have hread := keyValue_eq takes entry before (by omega) hends
      simp only [List.append_assoc, List.cons_append]
      rw [bracedFrom, hread]
      simp only [hput, skipSpace_append behind, skipSpace_cons (c := ',') (by decide) (by decide)]
      exact ih (puts.distinct distinct) (by omega) (by omega)

/-- What is read as entries is spelled so, by induction on the fuel. -/
theorem entriesText_of_bracedFrom (only : TakesOnly Item item) (distinct : es.Distinct)
    (h : bracedFrom item fuel es s = some (v, rest)) :
    ∃ u es', s = u ++ rest ∧ EntriesText Item u es es' ∧ v = .object (entriesValue es') := by
  induction fuel generalizing es s with
  | zero => cases h
  | succ fuel ih =>
      rw [bracedFrom] at h
      split at h
      · cases h
      · next path w after hread =>
        obtain ⟨b, t, before, rfl, entry⟩ := keyValueText_of_keyValue only hread
        split at h
        · cases h
        · next es₁ hput =>
          have puts := (putPath_eq_some_iff distinct entry.ne_nil).mp hput
          obtain ⟨b', behind, hafter⟩ := exists_spaces after
          split at h
          · next more hnext =>
            obtain ⟨u, es', rfl, hmore, rfl⟩ := ih (puts.distinct distinct) h
            rw [hnext] at hafter
            exact ⟨_, es', by rw [hafter]; simp, .more before entry puts behind hmore, rfl⟩
          · next more hnext =>
            obtain ⟨rfl, rfl⟩ := Prod.mk.inj (Option.some.inj h)
            rw [hnext] at hafter
            exact ⟨_, es₁, by rw [hafter]; simp, .last before entry puts behind, rfl⟩
          · cases h

/-- Blanks in front of the entries of a table are passed over with those in
    front of its first key. -/
theorem EntriesText.spaces {b : List Char} (h : EntriesText Item u es es') (spaces : Spaces b) :
    EntriesText Item (b ++ u) es es' := by
  have happend {b' : List Char} (spaces' : Spaces b') : Spaces (b ++ b') :=
    List.forall_mem_append.mpr ⟨spaces, spaces'⟩
  cases h with
  | last before entry puts behind =>
      rw [← List.append_assoc]
      exact .last (happend before) entry puts behind
  | more before entry puts behind more =>
      rw [← List.append_assoc]
      exact .more (happend before) entry puts behind more

theorem skipSpace_skipSpace (s : List Char) : skipSpace (skipSpace s) = skipSpace s := by
  obtain ⟨t, spaces, hs⟩ := exists_spaces s
  exact (skipSpace_append spaces).symm.trans (congrArg skipSpace hs.symm)

/-- Blanks in front of an entry may have been passed over already. -/
theorem keyValue_skipSpace : keyValue item (skipSpace s) = keyValue item s := by
  rw [keyValue, keyValue, key, key, keyFrom, keyFrom, skipSpace_skipSpace]

/-- The entries of a table do not begin with its closing brace. -/
theorem braced_eq_of_bracedFrom (h : bracedFrom item fuel [] s = some r) :
    braced item fuel s = some r := by
  cases fuel with
  | zero => cases h
  | succ fuel =>
      unfold braced
      split
      · next more hbrace =>
        rw [bracedFrom, ← keyValue_skipSpace, hbrace] at h
        cases h
      · rw [← h, bracedFrom, bracedFrom, keyValue_skipSpace]

/-- What begins with neither a bracket nor a brace is a scalar. -/
theorem value_of_head (h : c ≠ '[' ∧ c ≠ '{') :
    value fuel depth (c :: more) = scalar (c :: more) := by
  unfold value
  split
  · next heq => exact absurd (List.cons.inj heq).1 h.1
  · next heq => exact absurd (List.cons.inj heq).1 h.2
  · next heq => exact absurd (List.cons.inj heq).1 h.1
  · next heq => exact absurd (List.cons.inj heq).1 h.2
  · rfl

theorem value_of_scalarText (h : ScalarText t v) (ends : Delimited rest) :
    value fuel depth (t ++ rest) = some (v, rest) := by
  have hread := scalar_eq h ends
  obtain ⟨c, more, rfl, hc⟩ := h.begins
  simp only [List.mem_cons, not_or] at hc
  rw [List.cons_append] at hread ⊢
  rw [value_of_head ⟨by tauto, by tauto⟩, hread]

theorem ScalarText.beginsValue (h : ScalarText t v) : BeginsValue t := by
  obtain ⟨c, more, rfl, hc⟩ := h.begins
  refine ⟨c, more, rfl, fun hmem => hc ?_⟩
  simp only [List.mem_cons] at hmem ⊢
  tauto

/-- A value begins with none of the marks that are passed over, and is not
    empty. -/
theorem ValueText.begins (h : ValueText depth t v) : BeginsValue t := by
  cases depth with
  | zero => exact ScalarText.beginsValue h
  | succ depth =>
      obtain h | ⟨u, vs, rfl, -⟩ | ⟨b, -, rfl, -⟩ | ⟨u, es, rfl, -⟩ := h
      · exact h.beginsValue
      · exact ⟨_, _, rfl, by decide⟩
      · exact ⟨_, _, rfl, by decide⟩
      · exact ⟨_, _, rfl, by decide⟩

/-- A spelled value is read. -/
theorem value_eq (h : ValueText depth t v) (enough : t.length ≤ fuel) (ends : Delimited rest) :
    value fuel depth (t ++ rest) = some (v, rest) := by
  induction depth generalizing t v rest with
  | zero => exact value_of_scalarText h ends
  | succ depth ih =>
      have takes : Takes fuel (ValueText depth) (value fuel depth) := ⟨ValueText.begins, ih⟩
      obtain h | ⟨u, vs, rfl, rfl, items⟩ | ⟨b, spaces, rfl, rfl⟩ | ⟨u, es, rfl, rfl, entries⟩ := h
      · exact value_of_scalarText h ends
      · have hlength := Nat.le_of_succ_le enough
        exact itemsFrom_eq takes items hlength hlength
      · rw [List.cons_append, List.append_assoc, value, braced, skipSpace_append spaces,
          List.singleton_append, skipSpace_cons (by decide) (by decide)]
        rfl
      · have hlength := Nat.le_of_succ_le enough
        exact braced_eq_of_bracedFrom (bracedFrom_eq takes entries .nil hlength hlength)

/-- What is read as a value is spelled as one. -/
theorem valueText_of_value (h : value fuel depth s = some (v, rest)) :
    ∃ t, s = t ++ rest ∧ ValueText depth t v := by
  induction depth generalizing s v rest with
  | zero =>
      unfold value at h
      split at h
      · cases h
      · cases h
      · cases ‹0 = _ + 1›
      · cases ‹0 = _ + 1›
      · exact scalarText_of_scalar h
  | succ depth ih =>
      unfold value at h
      split at h
      · cases ‹_ + 1 = 0›
      · cases ‹_ + 1 = 0›
      · next depth' after heq =>
        obtain rfl := Nat.succ.inj heq
        obtain ⟨u, vs, rfl, items, rfl⟩ := itemsText_of_itemsFrom ih ValueText.begins h
        exact ⟨_, rfl, Or.inr (Or.inl ⟨u, vs, rfl, rfl, items⟩)⟩
      · next depth' after heq =>
        obtain rfl := Nat.succ.inj heq
        obtain ⟨b, spaces, hafter⟩ := exists_spaces after
        unfold braced at h
        split at h
        · next more hbrace =>
          obtain ⟨rfl, rfl⟩ := Prod.mk.inj (Option.some.inj h)
          rw [hafter, hbrace]
          exact ⟨_, by simp, Or.inr (Or.inr (Or.inl ⟨b, spaces, rfl, rfl⟩))⟩
        · obtain ⟨u, es, hu, entries, rfl⟩ := entriesText_of_bracedFrom ih .nil h
          rw [hafter, hu]
          exact ⟨_, by simp, Or.inr (Or.inr (Or.inr ⟨b ++ u, es, rfl, rfl, entries.spaces spaces⟩))⟩
      · obtain ⟨t, rfl, hscalar⟩ := scalarText_of_scalar h
        exact ⟨t, rfl, Or.inl hscalar⟩

end Values

/-! ## Lines -/

/-- The texts of a statement. -/
inductive StatementText : List Char → Statement → Prop where
  | header {b k b' : List Char} {path : List String} (before : Spaces b) (key : KeyText k path)
      (parts : path.length < 80) (behind : Spaces b') :
      StatementText ('[' :: (b ++ (k ++ (b' ++ [']'])))) (.header path)
  | headerNext {b k b' : List Char} {path : List String} (before : Spaces b)
      (key : KeyText k path) (parts : path.length < 80) (behind : Spaces b') :
      StatementText ('[' :: '[' :: (b ++ (k ++ (b' ++ [']', ']'])))) (.headerNext path)
  | put {t : List Char} {path : List String} {v : Value}
      (entry : KeyValueText (ValueText greatestDepth) t path v) : StatementText t (.put path v)

/-- The texts of a document: statements, each on its own line, between lines
    with nothing on them. -/
inductive DocumentText : List Char → List Statement → Prop where
  | done {l t : List Char} (lines : BlankLines l) (tail : TailText t) : DocumentText (l ++ t) []
  | more {f t b e u : List Char} {statement : Statement} {statements : List Statement}
      (before : FillerText f) (text : StatementText t statement) (behind : TailText b)
      (close : LineClose e u) (more : DocumentText u statements) :
      DocumentText (f ++ (t ++ (b ++ (e ++ u)))) (statement :: statements)

/-- A text spells statements. In front of them there may be a mark. -/
inductive Spells (text : String) (statements : List Statement) : Prop where
  | marked {s : List Char} (mark : text.toList = '\uFEFF' :: s)
      (document : DocumentText s statements) : Spells text statements
  | plain (unmarked : text.toList.head? ≠ some '\uFEFF')
      (document : DocumentText text.toList statements) : Spells text statements

/-- A text denotes a value: what its statements build. -/
inductive Denotes (text : String) : Value → Prop where
  | mk {statements : List Statement} {d : Document} (spells : Spells text statements)
      (builds : Builds statements ⟨[], []⟩ d) : Denotes text (.object (entriesValue d.entries))

section Lines

variable {s t rest : List Char} {statement : Statement} {statements : List Statement}
  {d d' : Document} {fuel lines : Nat} {text : String} {v : Value}

/-- A key begins with none of the marks around statements. -/
theorem KeyText.begins {path : List String} (h : KeyText t path) :
    ∃ c more, t = c :: more ∧ c ∉ [' ', '\t', '\n', '\r', '#', '['] := by
  have hpart {t : List Char} {name : String} (h : PartText t name) :
      ∃ c more, t = c :: more ∧ c ∉ [' ', '\t', '\n', '\r', '#', '['] := by
    cases h with
    | bare nonempty all =>
        obtain ⟨c, more, rfl⟩ := List.exists_cons_of_ne_nil nonempty
        refine ⟨c, more, rfl, fun hmem => ?_⟩
        have hall : ∀ d ∈ [' ', '\t', '\n', '\r', '#', '['], ¬ KeyChar d :=
          List.forall_iff_forall_mem.mp (by decide)
        exact hall c hmem (all c List.mem_cons_self)
    | quoted => exact ⟨_, _, rfl, by decide⟩
    | literal => exact ⟨_, _, rfl, by decide⟩
  cases h with
  | one part => exact hpart part
  | dotted part =>
      obtain ⟨c, more, rfl, hc⟩ := hpart part
      exact ⟨c, _, rfl, hc⟩

/-- Neither does a statement, a bracket apart. -/
theorem StatementText.begins (h : StatementText t statement) :
    ∃ c more, t = c :: more ∧ c ∉ [' ', '\t', '\n', '\r', '#'] := by
  cases h with
  | header => exact ⟨_, _, rfl, by decide⟩
  | headerNext => exact ⟨_, _, rfl, by decide⟩
  | put entry =>
      obtain ⟨key, -⟩ := entry
      obtain ⟨c, more, rfl, hc⟩ := key.begins
      refine ⟨c, _, rfl, fun hmem => hc ?_⟩
      simp only [List.mem_cons] at hmem ⊢
      tauto

/-- One bracket begins a header. -/
theorem line_header (h : s.head? ≠ some '[') : line fuel d ('[' :: s) = header d s := by
  unfold line
  split
  · next heq =>
    obtain rfl := (List.cons.inj heq).2
    exact absurd rfl h
  · next heq =>
    obtain rfl := (List.cons.inj heq).2
    rfl
  · next hne => exact absurd rfl (hne s)

/-- Without a bracket a line is an entry. -/
theorem line_put (h : s.head? ≠ some '[') :
    line fuel d s
      = match keyValue (value fuel greatestDepth) s with
        | some ((path, v), rest) => (d.put path v).map fun d => (d, rest)
        | none => none := by
  unfold line
  split
  · exact absurd rfl h
  · exact absurd rfl h
  · rfl

/-- No bracket stands behind blanks and in front of a key. -/
theorem KeyText.head_ne {path : List String} {b : List Char} (h : KeyText t path)
    (spaces : Spaces b) : (b ++ (t ++ rest)).head? ≠ some '[' := by
  intro hhead
  cases b with
  | nil =>
      obtain ⟨c, more, rfl, hc⟩ := h.begins
      obtain rfl := Option.some.inj hhead
      exact hc (by decide)
  | cons c b =>
      obtain rfl := Option.some.inj hhead
      exact absurd (spaces _ List.mem_cons_self) (by decide)

theorem map_pair_eq_some_iff {o : Option Document} {after : List Char} :
    (o.map fun d => (d, rest)) = some (d', after) ↔ o = some d' ∧ after = rest := by
  cases o with
  | none => simp
  | some d => simp [eq_comm]

/-- A spelled statement is read, and makes of the document what it has to. -/
theorem line_eq_some_iff (h : StatementText t statement) (enough : t.length ≤ fuel)
    (ends : Delimited rest) (distinct : d.entries.Distinct) {after : List Char} :
    line fuel d (t ++ rest) = some (d', after) ↔ Follows statement d d' ∧ after = rest := by
  cases h with
  | @header b k b' path before key parts behind =>
      have hkey : Toml.key (b ++ (k ++ (b' ++ ']' :: rest))) = some (path, ']' :: rest) :=
        key_eq key (Nat.le_of_lt_succ parts) before behind (Or.inr rfl)
      simp only [List.append_assoc, List.cons_append, List.nil_append]
      rw [line_header (key.head_ne before), header, hkey,
        ← head_eq_some_iff_follows distinct key.ne_nil]
      exact map_pair_eq_some_iff
  | @headerNext b k b' path before key parts behind =>
      have hkey : Toml.key (b ++ (k ++ (b' ++ ']' :: ']' :: rest)))
          = some (path, ']' :: ']' :: rest) :=
        key_eq key (Nat.le_of_lt_succ parts) before behind (Or.inr rfl)
      simp only [List.append_assoc, List.cons_append, List.nil_append]
      rw [line, headerNext, hkey, ← headNext_eq_some_iff_follows distinct key.ne_nil]
      exact map_pair_eq_some_iff
  | put entry =>
      have takes : Takes fuel (ValueText greatestDepth) (value fuel greatestDepth) :=
        ⟨ValueText.begins, value_eq⟩
      have hread := keyValue_eq takes entry (b := []) nofun enough ends
      have hhead : (t ++ rest).head? ≠ some '[' := by
        obtain ⟨key, -⟩ := entry
        rw [List.append_assoc]
        exact key.head_ne (b := []) nofun
      rw [List.nil_append] at hread
      rw [line_put hhead, hread, ← put_eq_some_iff_follows distinct entry.ne_nil]
      exact map_pair_eq_some_iff

/-- What is read as a statement is spelled as one, behind blanks. -/
theorem statementText_of_line (distinct : d.entries.Distinct)
    (h : line fuel d s = some (d', rest)) :
    ∃ b t statement, Spaces b ∧ s = b ++ (t ++ rest) ∧ StatementText t statement
      ∧ Follows statement d d' := by
  unfold line at h
  split at h
  · unfold headerNext at h
    split at h
    · next path more hkey =>
      obtain ⟨hhead, rfl⟩ := map_pair_eq_some_iff.mp h
      obtain ⟨hparts, b, k, b', before, key, behind, rfl⟩ := keyText_of_key hkey
      exact ⟨[], _, _, nofun, by simp, .headerNext before key (Nat.lt_succ_of_le hparts) behind,
        (headNext_eq_some_iff_follows distinct key.ne_nil).mp hhead⟩
    · cases h
  · unfold header at h
    split at h
    · next path more hkey =>
      obtain ⟨hhead, rfl⟩ := map_pair_eq_some_iff.mp h
      obtain ⟨hparts, b, k, b', before, key, behind, rfl⟩ := keyText_of_key hkey
      exact ⟨[], _, _, nofun, by simp, .header before key (Nat.lt_succ_of_le hparts) behind,
        (head_eq_some_iff_follows distinct key.ne_nil).mp hhead⟩
    · cases h
  · split at h
    · next path v more hread =>
      obtain ⟨hput, rfl⟩ := map_pair_eq_some_iff.mp h
      obtain ⟨b, t, spaces, rfl, entry⟩ := keyValueText_of_keyValue valueText_of_value hread
      exact ⟨b, t, _, spaces, rfl, .put entry,
        (put_eq_some_iff_follows distinct entry.ne_nil).mp hput⟩
    · cases h

/-- Spelled statements are read to the end of the text, and the document that
    comes of it is the one that they build. -/
theorem linesFromTop_eq_some_iff (h : DocumentText s statements) (enough : s.length ≤ lines)
    (enough' : s.length < fuel) (distinct : d.entries.Distinct) :
    linesFromTop lines fuel d s = some d' ↔ Builds statements d d' := by
  induction h generalizing d fuel with
  | done blank tail =>
      obtain ⟨fuel, rfl⟩ : ∃ k, fuel = k + 1 := Nat.exists_eq_add_one.mpr (by omega)
      rw [linesFromTop, skipLines_end blank tail enough]
      constructor
      · intro h
        obtain rfl := Option.some.inj h
        exact .nil
      · rintro ⟨⟩
        rfl
  | @more f t b e u statement statements before text behind close _ ih =>
      obtain ⟨fuel, rfl⟩ : ∃ k, fuel = k + 1 := Nat.exists_eq_add_one.mpr (by omega)
      obtain ⟨c, t, rfl, hc⟩ := text.begins
      simp only [List.length_append, List.length_cons] at enough enough'
      have hbegins : Begins (c :: t ++ (b ++ (e ++ u))) := by
        rintro x hx
        obtain rfl := Option.some.inj hx
        exact hc
      have hskip : skipLines lines (f ++ (c :: t ++ (b ++ (e ++ u)))) = some _ :=
        skipLines_filler before hbegins (by omega)
      have hline {d₁ : Document} {after : List Char} :
          line lines d (c :: t ++ (b ++ (e ++ u))) = some (d₁, after)
            ↔ Follows statement d d₁ ∧ after = b ++ (e ++ u) :=
        line_eq_some_iff text (by rw [List.length_cons]; omega) (behind.delimited close) distinct
      have hend : skipLine (b ++ (e ++ u)) = some u :=
        skipLine_eq_some_iff.mpr ⟨b, e, behind, close, rfl⟩
      rw [linesFromTop, hskip]
      simp only [List.cons_append] at hline ⊢
      constructor
      · intro h
        split at h
        · cases h
        · next d₁ after hread =>
          obtain ⟨follows, rfl⟩ := hline.mp hread
          rw [hend, Option.bind_some] at h
          exact .cons follows ((ih (by omega) (by omega) (follows.distinct distinct)).mp h)
      · rintro ⟨⟩
        next d₁ follows more =>
        rw [hline.mpr ⟨follows, rfl⟩]
        simp only [hend, Option.bind_some]
        exact (ih (by omega) (by omega) (follows.distinct distinct)).mpr more

/-- What is read as a document is spelled as one. -/
theorem documentText_of_linesFromTop (distinct : d.entries.Distinct)
    (h : linesFromTop lines fuel d s = some d') :
    ∃ statements, DocumentText s statements ∧ Builds statements d d' := by
  induction fuel generalizing d s with
  | zero => cases h
  | succ fuel ih =>
      rw [linesFromTop] at h
      split at h
      · cases h
      · next hskip =>
        obtain rfl := Option.some.inj h
        obtain ⟨l, t, blank, tail, rfl, -⟩ := exists_filler hskip
        rw [List.append_nil]
        exact ⟨[], .done blank tail, .nil⟩
      · next front hfront hskip =>
        have hnonempty : front ≠ [] := by
          rintro rfl
          exact hfront rfl
        obtain ⟨l, t', blank, -, rfl, hspaces⟩ := exists_filler hskip
        split at h
        · cases h
        · next d₁ after hread =>
          obtain ⟨u, hend, hmore⟩ := Option.bind_eq_some_iff.mp h
          obtain ⟨b, t, statement, spaces, rfl, text, follows⟩ :=
            statementText_of_line distinct hread
          obtain ⟨tail, e, behind, close, rfl⟩ := skipLine_eq_some_iff.mp hend
          obtain ⟨statements, document, builds⟩ := ih (follows.distinct distinct) hmore
          have filler : FillerText (l ++ (t' ++ b)) :=
            .mk blank (List.forall_mem_append.mpr ⟨hspaces hnonempty, spaces⟩)
          refine ⟨statement :: statements, ?_, .cons follows builds⟩
          simpa using DocumentText.more filler text behind close document

/-- What stands in front of a document. -/
theorem skipMark_eq (h : s.head? ≠ some '\uFEFF') : skipMark s = s := by
  unfold skipMark
  split
  · exact absurd rfl h
  · rfl

/-- The value of a spelled document is that of what its statements build. -/
theorem Spells.parse?_eq_some_iff (h : Spells text statements) :
    parse? text = some v
      ↔ ∃ d, Builds statements ⟨[], []⟩ d ∧ v = .object (entriesValue d.entries) := by
  have hread {s : List Char} (document : DocumentText s statements) {d : Document} :
      linesFromTop (s.length + 1) (s.length + 1) ⟨[], []⟩ s = some d
        ↔ Builds statements ⟨[], []⟩ d :=
    linesFromTop_eq_some_iff document (Nat.le_succ _) (Nat.lt_succ_self _) .nil
  have hmark : ∃ s, skipMark text.toList = s ∧ DocumentText s statements := by
    cases h with
    | @marked s mark document => exact ⟨s, by rw [mark]; rfl, document⟩
    | plain unmarked document => exact ⟨_, skipMark_eq unmarked, document⟩
  obtain ⟨s, hs, document⟩ := hmark
  simp only [parse?, hs, Option.map_eq_some_iff, hread document]
  exact exists_congr fun d => and_congr_right fun _ => eq_comm

/-- A text that spells a value for one path twice is no document, unless it has
    headers in double brackets. -/
theorem Spells.parse?_eq_none_of_twice (h : Spells text statements)
    (plain : ∀ path, .headerNext path ∉ statements)
    (twice : ¬ ((held [] statements).map Prod.fst).Nodup) : parse? text = none := by
  rw [Option.eq_none_iff_forall_ne_some]
  intro v hread
  obtain ⟨d, builds, -⟩ := h.parse?_eq_some_iff.mp hread
  exact twice (builds.nodup_held plain)

/-- **DOCUMENTS ARE READ AS THEY ARE SPELLED**: a text has a value if and only
    if it spells statements that build a document, and then it is the value
    of that document. -/
theorem parse?_eq_some_iff : parse? text = some v ↔ Denotes text v := by
  constructor
  · intro h
    obtain ⟨d, hread, rfl⟩ := Option.map_eq_some_iff.mp h
    obtain ⟨statements, document, builds⟩ := documentText_of_linesFromTop .nil hread
    refine .mk ?_ builds
    unfold skipMark at document
    split at document
    · next heq => exact .marked heq document
    · next hne =>
      refine .plain (fun hhead => ?_) document
      obtain ⟨more, hmore⟩ := List.head?_eq_some_iff.mp hhead
      exact hne more hmore
  · rintro ⟨spells, builds⟩
    exact spells.parse?_eq_some_iff.mpr ⟨_, builds, rfl⟩

end Lines

end BusWindow.Toml
