import BusWindow.Proofs.Written

/-!
# Round trips — what was written is read back

    `Reads item a text` says that a reading takes a text for `a`, whatever
    space stands before it and whatever comes after it that does not carry a
    number on. It passes from the items to an array, and from the members to
    an object, each with a spelling of its name and space of its own (`Entry`,
    `membersFrom_separated`). So by induction over values every exact value
    reads back from either layout (`reads_written`), as long as it does not
    nest too deep.

    The other way round, whatever was read has its members in order and
    nests no deeper than was allowed (`ordered_of_parse`), so everything
    that was read and is exact reads back once more from what is written of
    it (`parse_compactBytes`).
-/

namespace BusWindow.Json

open Utf8

/-! ## Space -/

theorem skipSpace_cons {b : UInt8} (h : isSpace b = false) (rest : Bytes) :
    skipSpace (b :: rest) = b :: rest := by
  rw [skipSpace, List.dropWhile_cons, h]
  rfl

theorem skipSpace_gap {gap : Bytes} (h : ∀ b ∈ gap, isSpace b = true) (s : Bytes) :
    skipSpace (gap ++ s) = skipSpace s :=
  List.dropWhile_append_of_pos h

theorem skipSpace_gap_cons {gap : Bytes} (hgap : ∀ b ∈ gap, isSpace b = true) {b : UInt8}
    (h : isSpace b = false) (rest : Bytes) : skipSpace (gap ++ b :: rest) = b :: rest := by
  rw [skipSpace_gap hgap, skipSpace_cons h]

/-- Space carries no number on. -/
theorem endsNumber_gap {gap : Bytes} (h : ∀ b ∈ gap, isSpace b = true) {s : Bytes}
    (ends : EndsNumber s) : EndsNumber (gap ++ s) := by
  cases gap with
  | nil => exact ends
  | cons b more =>
      have hspace : isSpace b = true := h b List.mem_cons_self
      refine endsNumber_cons ?_
      simp only [isSpace, Bool.or_eq_true, beq_iff_eq] at hspace
      rcases hspace with ((rfl | rfl) | rfl) | rfl <;> decide

/-! ## Items -/

/-- A reading takes a text for `a`, with space before it and anything after
    it that does not carry a number on. -/
def Reads {α : Type} (item : Bytes → Reading α) (a : α) (text : Bytes) : Prop :=
  ∀ gap rest, (∀ b ∈ gap, isSpace b = true) → EndsNumber rest →
    item (gap ++ (text ++ rest)) = .ok (a, rest)

/-- A text begins with what is neither space nor a closing bracket. -/
def BeginsItem (text : Bytes) : Prop :=
  ∃ b more, text = b :: more ∧ isSpace b = false ∧ b ≠ 0x5D

/-- A bracket behind a gap ends the items. -/
theorem nextItem_close {gap : Bytes} (hgap : ∀ b ∈ gap, isSpace b = true) (first : Bool)
    (rest : Bytes) : nextItem first (gap ++ 0x5D :: rest) = .ok (false, rest) := by
  rw [nextItem, skipSpace_gap hgap]
  rfl

/-- The first item follows the bracket. -/
theorem nextItem_first {gap text : Bytes} (hgap : ∀ b ∈ gap, isSpace b = true)
    (begins : BeginsItem text) (rest : Bytes) :
    nextItem true (gap ++ (text ++ rest)) = .ok (true, text ++ rest) := by
  obtain ⟨b, more, rfl, hspace, hclose⟩ := begins
  rw [nextItem, List.cons_append, skipSpace_gap_cons hgap hspace]
  split
  · next h => exact nomatch h
  · next h => exact absurd (List.cons.inj h).1 hclose
  · next h =>
    obtain ⟨rfl, rfl⟩ := List.cons.inj h
    rfl

/-- The others follow a comma. -/
theorem nextItem_comma {gap text : Bytes} (hgap : ∀ b ∈ gap, isSpace b = true)
    (begins : BeginsItem text) (rest : Bytes) :
    nextItem false (0x2C :: (gap ++ (text ++ rest))) = .ok (true, text ++ rest) := by
  obtain ⟨b, more, rfl, hspace, hclose⟩ := begins
  rw [nextItem, skipSpace_cons (by decide), List.cons_append]
  split
  · next h => cases h
  · next h => exact absurd (List.cons.inj h).1 (by decide)
  · next h =>
    obtain ⟨rfl, rfl⟩ := List.cons.inj h
    rw [if_neg Bool.false_ne_true, if_pos rfl, skipSpace_gap_cons hgap hspace]
    split
    · next h => cases h
    · next h => exact absurd (List.cons.inj h).1 hclose
    · rfl

section Items

variable {α : Type} {item : Bytes → Reading α} {text : α → Bytes} {gap last : Bytes}
  (hgap : ∀ b ∈ gap, isSpace b = true) (hlast : ∀ b ∈ last, isSpace b = true)

/-- What comes after an item carries no number on: a comma, or a gap and a
    closing bracket. -/
theorem endsNumber_more {β : Type} (as : List β) (text : β → Bytes) (close : UInt8)
    (hclose : isDigit close = false ∧ close ≠ 0x2E ∧ close ≠ 0x65 ∧ close ≠ 0x45) (rest : Bytes)
    (hlast : ∀ b ∈ last, isSpace b = true) :
    EndsNumber ((as.flatMap fun a => 0x2C :: text a) ++ (last ++ close :: rest)) := by
  cases as with
  | nil => exact endsNumber_gap hlast (endsNumber_cons hclose)
  | cons a more => exact endsNumber_cons (by decide)

include hgap hlast

/-- Items after the first one are read up to the closing bracket. -/
theorem itemsFrom_more {as : List α} (begins : ∀ a ∈ as, BeginsItem (text a))
    (reads : ∀ a ∈ as, Reads item a (text a)) {fuel : Nat} (enough : as.length < fuel)
    {read : List α} (some : read ≠ []) (rest : Bytes) :
    itemsFrom item fuel read
        ((as.flatMap fun a => 0x2C :: (gap ++ text a)) ++ (last ++ 0x5D :: rest))
      = .ok (read.reverse ++ as, rest) := by
  -- what was read before stays in front, so it is any list here
  induction as generalizing fuel read with
  | nil =>
      obtain ⟨fuel, rfl⟩ := Nat.exists_eq_succ_of_ne_zero (Nat.ne_of_gt enough)
      rw [List.flatMap_nil, List.nil_append, itemsFrom, nextItem_close hlast, List.append_nil]
  | cons a as ih =>
      obtain ⟨fuel, rfl⟩ := Nat.exists_eq_succ_of_ne_zero (Nat.ne_zero_of_lt enough)
      obtain ⟨hbegin, hbegins⟩ := List.forall_mem_cons.mp begins
      obtain ⟨hread, hreads⟩ := List.forall_mem_cons.mp reads
      have hitem := hread [] _ (List.forall_mem_nil _)
        (endsNumber_more as (fun a => gap ++ text a) 0x5D (by decide) rest hlast)
      have hnotFirst : read.isEmpty = false := by
        rw [List.isEmpty_eq_false_iff]
        exact some
      rw [List.nil_append] at hitem
      rw [List.flatMap_cons, List.cons_append, List.cons_append, List.append_assoc,
        List.append_assoc, itemsFrom, hnotFirst, nextItem_comma hgap hbegin]
      simp only [hitem]
      rw [ih hbegins hreads (by simpa using enough) (List.cons_ne_nil a read), List.reverse_cons,
        List.append_assoc]
      rfl

/-- The items of an array are read up to its closing bracket. -/
theorem itemsFrom_written {a : α} {as : List α} (begins : ∀ b ∈ a :: as, BeginsItem (text b))
    (reads : ∀ b ∈ a :: as, Reads item b (text b)) {fuel : Nat} (enough : as.length + 1 < fuel)
    (rest : Bytes) :
    itemsFrom item fuel []
        (gap ++ (text a ++ ((as.flatMap fun a => 0x2C :: (gap ++ text a))
          ++ (last ++ 0x5D :: rest))))
      = .ok (a :: as, rest) := by
  obtain ⟨fuel, rfl⟩ := Nat.exists_eq_succ_of_ne_zero (Nat.ne_zero_of_lt enough)
  obtain ⟨hbegin, hbegins⟩ := List.forall_mem_cons.mp begins
  obtain ⟨hread, hreads⟩ := List.forall_mem_cons.mp reads
  have hitem := hread [] _ (List.forall_mem_nil _)
    (endsNumber_more as (fun a => gap ++ text a) 0x5D (by decide) rest hlast)
  rw [List.nil_append] at hitem
  rw [itemsFrom, List.isEmpty_nil, nextItem_first hgap hbegin]
  simp only [hitem]
  exact itemsFrom_more hgap hlast hbegins hreads (Nat.lt_of_succ_lt_succ enough)
    (List.cons_ne_nil a []) rest

end Items

/-! ## Members -/

/-- A brace behind a gap ends the members. -/
theorem nextName_close {gap : Bytes} (hgap : ∀ b ∈ gap, isSpace b = true) (first : Bool)
    (rest : Bytes) : nextName first (gap ++ 0x7D :: rest) = .ok (none, rest) := by
  rw [nextName, skipSpace_gap hgap]
  rfl

theorem colon_gap {gap : Bytes} (hgap : ∀ b ∈ gap, isSpace b = true) (rest : Bytes) :
    colon (gap ++ 0x3A :: rest) = .ok ((), rest) := by
  rw [colon, skipSpace_gap_cons hgap (by decide)]
  rfl

/-- A member as it stands in the text of an object: its name, spelled from
    behind its opening quote to behind the closing one, and the text of its
    value, with space around the two. -/
structure Entry where
  name : String
  spelled : Bytes
  text : Bytes
  /-- The space before the name, before the colon, before the value, and
      behind it. -/
  before : Bytes
  between : Bytes
  gap : Bytes
  after : Bytes
  spells : ∀ rest, stringBody (spelled ++ rest) = .ok (name, rest)
  before_isSpace : ∀ b ∈ before, isSpace b = true
  between_isSpace : ∀ b ∈ between, isSpace b = true
  gap_isSpace : ∀ b ∈ gap, isSpace b = true
  after_isSpace : ∀ b ∈ after, isSpace b = true

namespace Entry

/-- A member from behind its name on, with something behind its value. -/
def tail (e : Entry) (rest : Bytes) : Bytes :=
  e.between ++ 0x3A :: (e.gap ++ (e.text ++ rest))

/-- A member with the space around it. -/
def bytes (e : Entry) : Bytes := e.before ++ 0x22 :: (e.spelled ++ e.tail e.after)

theorem bytes_append (e : Entry) (rest : Bytes) :
    e.bytes ++ rest = e.before ++ 0x22 :: (e.spelled ++ e.tail (e.after ++ rest)) := by
  simp only [bytes, tail, List.append_assoc, List.cons_append]

theorem colon_tail (e : Entry) (rest : Bytes) :
    colon (e.tail rest) = .ok ((), e.gap ++ (e.text ++ rest)) :=
  colon_gap e.between_isSpace _

/-- A member that stands at a level, as a layout writes it. -/
def written (layout : Layout) (level : Nat) (m : String × Value) : Entry where
  name := m.1
  spelled := stringTail m.1
  text := m.2.written layout level
  before := layout.gap level
  between := []
  gap := layout.colonGap
  after := []
  spells := stringBody_written m.1
  before_isSpace := Json.gap_isSpace layout level
  between_isSpace := List.forall_mem_nil _
  gap_isSpace := colonGap_isSpace layout
  after_isSpace := List.forall_mem_nil _

/-- A written member is an entry in the layout of the writer. -/
theorem bytes_written (layout : Layout) (level : Nat) (m : String × Value) :
    (written layout level m).bytes
      = layout.gap level ++ Value.writtenMember layout level m := by
  rw [Value.writtenMember, colonBytes_eq, bytes, tail]
  show _ ++ 0x22 :: (_ ++ ([] ++ 0x3A :: (_ ++ (m.2.written layout level ++ [])))) = _
  rw [List.append_nil]
  rfl

end Entry

/-- Members with commas between them. -/
def separated : List Entry → Bytes
  | [] => []
  | e :: more => e.bytes ++ more.flatMap fun e => 0x2C :: e.bytes

/-- A spelled name is read as the name. -/
theorem memberName_spelled (e : Entry) (rest : Bytes) :
    memberName (0x22 :: (e.spelled ++ rest)) = .ok (some e.name, rest) := by
  rw [memberName, e.spells]
  rfl

/-- The first name follows the brace. -/
theorem nextName_first (e : Entry) (rest : Bytes) :
    nextName true (e.before ++ 0x22 :: (e.spelled ++ rest)) = .ok (some e.name, rest) := by
  rw [nextName, skipSpace_gap_cons e.before_isSpace (by decide)]
  exact memberName_spelled e rest

/-- The others follow a comma. -/
theorem nextName_comma {gap : Bytes} (hgap : ∀ b ∈ gap, isSpace b = true) (e : Entry)
    (rest : Bytes) :
    nextName false (gap ++ 0x2C :: (e.before ++ 0x22 :: (e.spelled ++ rest)))
      = .ok (some e.name, rest) := by
  rw [nextName, skipSpace_gap_cons hgap (by decide)]
  split
  · next h => cases h
  · next h => exact absurd (List.cons.inj h).1 (by decide)
  · next h =>
    obtain ⟨rfl, rfl⟩ := List.cons.inj h
    rw [if_neg Bool.false_ne_true, if_pos rfl, skipSpace_gap_cons e.before_isSpace (by decide)]
    exact memberName_spelled e rest

/-- Members are read one after the other, each into the draft that the one
    before it left. -/
inductive Takes {σ : Type} (member : String → σ → Bytes → Reading σ) : List Entry → σ → σ → Prop
  | nil (draft : σ) : Takes member [] draft draft
  | cons {e : Entry} {more : List Entry} {draft next last : σ}
      (reads : ∀ rest, EndsNumber rest → member e.name draft (e.tail rest) = .ok (next, rest))
      (takes : Takes member more next last) : Takes member (e :: more) draft last

section Members

variable {σ : Type} {member : String → σ → Bytes → Reading σ} {entries : List Entry}
  {draft final : σ} {last : Bytes} (hlast : ∀ b ∈ last, isSpace b = true)

include hlast

/-- Members after the first one are read up to the closing brace. -/
theorem membersFrom_more (takes : Takes member entries draft final) {fuel : Nat}
    (enough : entries.length < fuel) {gap : Bytes} (hgap : ∀ b ∈ gap, isSpace b = true)
    (rest : Bytes) :
    membersFrom member fuel false draft
        (gap ++ ((entries.flatMap fun e => 0x2C :: e.bytes) ++ (last ++ 0x7D :: rest)))
      = .ok (final, rest) := by
  induction takes generalizing fuel gap with
  | nil draft =>
      obtain ⟨fuel, rfl⟩ := Nat.exists_eq_succ_of_ne_zero (Nat.ne_of_gt enough)
      have hclose : nextName false (gap ++ (last ++ 0x7D :: rest)) = .ok (none, rest) := by
        rw [← List.append_assoc]
        exact nextName_close (List.forall_mem_append.mpr ⟨hgap, hlast⟩) false rest
      rw [List.flatMap_nil, List.nil_append, membersFrom, hclose]
  | @cons e entries draft next final reads takes ih =>
      obtain ⟨fuel, rfl⟩ := Nat.exists_eq_succ_of_ne_zero (Nat.ne_zero_of_lt enough)
      have hmember := reads _ (endsNumber_gap e.after_isSpace
        (endsNumber_more entries Entry.bytes 0x7D (by decide) rest hlast))
      rw [List.flatMap_cons, List.cons_append, List.cons_append, List.append_assoc,
        e.bytes_append, membersFrom, nextName_comma hgap]
      simp only [hmember]
      exact ih (by simpa using enough) e.after_isSpace

/-- The members of an object are read up to its closing brace. -/
theorem membersFrom_separated (takes : Takes member entries draft final) {fuel : Nat}
    (enough : entries.length < fuel) (rest : Bytes) :
    membersFrom member fuel true draft (separated entries ++ (last ++ 0x7D :: rest))
      = .ok (final, rest) := by
  obtain ⟨fuel, rfl⟩ := Nat.exists_eq_succ_of_ne_zero (Nat.ne_zero_of_lt enough)
  cases takes with
  | nil => rw [separated, List.nil_append, membersFrom, nextName_close hlast]
  | @cons e entries _ next _ reads takes =>
      have hmember := reads _ (endsNumber_gap e.after_isSpace
        (endsNumber_more entries Entry.bytes 0x7D (by decide) rest hlast))
      rw [separated, List.append_assoc, e.bytes_append, membersFrom, nextName_first]
      simp only [hmember]
      exact membersFrom_more hlast takes (Nat.lt_of_succ_lt_succ enough) e.after_isSpace rest

end Members

/-- The value of a member goes into the map behind what is there. -/
theorem mapMember_tail {α : Type} {item : Bytes → Reading α} {a : α} {e : Entry}
    (reads : Reads item a e.text) {read : List (String × α)} (behind : ∀ p ∈ read, p.1 < e.name)
    {rest : Bytes} (ends : EndsNumber rest) :
    mapMember item e.name read (e.tail rest) = .ok (read ++ [(e.name, a)], rest) := by
  rw [mapMember, e.colon_tail]
  simp only [reads e.gap rest e.gap_isSpace ends, SortedMap.insert_of_forall_lt behind]

/-- The members of an object as they are written. -/
def entries (layout : Layout) (level : Nat) (members : List (String × Value)) : List Entry :=
  members.map (Entry.written layout level)

/-- The members of a map are read in their order, behind those that were read
    before. -/
theorem takes_map {α : Type} {item : Bytes → Reading α} (form : α → Value) {layout : Layout}
    {level : Nat} {read members : List (String × α)}
    (reads : ∀ m ∈ members, Reads item m.2 ((form m.2).written layout level))
    (sorted : SortedMap.Sorted (read ++ members)) :
    Takes (mapMember item) (entries layout level (members.map fun m => (m.1, form m.2))) read
      (read ++ members) := by
  induction members generalizing read with
  | nil =>
      rw [List.append_nil]
      exact .nil read
  | cons m members ih =>
      obtain ⟨hread, hreads⟩ := List.forall_mem_cons.mp reads
      -- the new name comes behind all that were read before
      have hbehind : ∀ p ∈ read, p.1 < m.1 := by
        intro p hp
        exact (List.pairwise_append.mp sorted).2.2 p hp _ List.mem_cons_self
      rw [List.append_cons] at sorted ⊢
      exact .cons (fun _ ends => mapMember_tail (e := Entry.written layout level (m.1, form m.2))
        hread hbehind ends) (ih hreads sorted)

/-! ## Values -/

theorem value_scalar {s more : Bytes} {b : UInt8} (h : skipSpace s = b :: more) (array : b ≠ 0x5B)
    (object : b ≠ 0x7B) (fuel depth : Nat) : value fuel depth s = scalar (b :: more) := by
  unfold value
  rw [h]
  split
  · next heq => exact absurd (List.cons.inj heq).1 array
  · next heq => exact absurd (List.cons.inj heq).1 object
  · next heq => exact absurd (List.cons.inj heq).1 array
  · next heq => exact absurd (List.cons.inj heq).1 object
  · rfl

/-- Behind a bracket the items are read one level deeper. -/
theorem value_array {s more : Bytes} (h : skipSpace s = 0x5B :: more) (fuel depth : Nat) :
    value fuel (depth + 1) s
      = (itemsFrom (value fuel depth) fuel [] more).map fun r => (.array r.1, r.2) := by
  rw [value.eq_def, h]
  rfl

/-- Behind a brace so are the members. -/
theorem value_object {s more : Bytes} (h : skipSpace s = 0x7B :: more) (fuel depth : Nat) :
    value fuel (depth + 1) s
      = (membersFrom (mapMember (value fuel depth)) fuel true [] more).map fun r =>
          (.object r.1, r.2) := by
  rw [value.eq_def, h]
  rfl

theorem scalar_digit {b : UInt8} (h : isDigit b = true) (rest : Bytes) :
    scalar (b :: rest)
      = (Number.afterSign false (b :: rest)).map fun r => (.number r.1, r.2) := by
  unfold scalar
  dsimp only
  split
  case h_6 => rw [if_pos h]
  all_goals exact absurd h (by decide)

/-- A value whose text begins neither an array nor an object is read by
    reading a scalar. -/
theorem reads_scalar {v : Value} {b : UInt8} {more : Bytes}
    (begins : isSpace b = false ∧ b ≠ 0x5B ∧ b ≠ 0x7B)
    (read : ∀ rest, EndsNumber rest → scalar (b :: more ++ rest) = .ok (v, rest))
    (fuel depth : Nat) : Reads (value fuel depth) v (b :: more) := by
  intro gap rest hgap ends
  obtain ⟨hspace, harray, hobject⟩ := begins
  rw [List.cons_append, value_scalar (skipSpace_gap_cons hgap hspace _) harray hobject]
  exact read rest ends

/-- A natural number is read as it was written. -/
theorem scalar_natural (n : UInt64) {rest : Bytes} (ends : EndsNumber rest) :
    scalar (encode (Nat.toDigits 10 n.toNat) ++ rest) = .ok (.number (.natural n), rest) := by
  have hread : Number.afterSign false (encode (Nat.toDigits 10 n.toNat) ++ rest)
      = .ok (.natural n, rest) := by
    rw [Number.afterSign_digits n.toNat_lt false ends]
    show Except.ok (Number.natural (UInt64.ofNat n.toNat), rest) = _
    rw [UInt64.ofNat_toNat]
  obtain ⟨b, more, heq, hdigit⟩ := encode_toDigits_head n.toNat
  rw [heq, List.cons_append] at hread ⊢
  rw [scalar_digit hdigit, hread]
  rfl

/-- So is a negative one. -/
theorem scalar_negative (m : Fin 0x8000000000000000) {rest : Bytes} (ends : EndsNumber rest) :
    scalar (0x2D :: (encode (Nat.toDigits 10 (m.val + 1)) ++ rest))
      = .ok (.number (.negative m), rest) := by
  have hfits : m.val + 1 < Number.naturalBound := by
    have hm : m.val < 0x8000000000000000 := m.isLt
    rw [Number.naturalBound]
    omega
  have hread : Number.integer true (m.val + 1) rest = .ok (.negative m, rest) := by
    rw [Number.integer, if_pos rfl]
    exact dif_pos m.isLt
  show (Number.afterSign true (encode (Nat.toDigits 10 (m.val + 1)) ++ rest)).map
    (fun r => (Value.number r.1, r.2)) = _
  rw [Number.afterSign_digits hfits true ends, hread]
  rfl

/-- Texts that come after commas are at least as long together as there are
    commas, and as each of them. -/
theorem length_le_of_commas {β : Type} (text : β → Bytes) (as : List β) :
    as.length ≤ (as.flatMap fun a => 0x2C :: text a).length
      ∧ ∀ a ∈ as, (text a).length ≤ (as.flatMap fun a => 0x2C :: text a).length := by
  induction as with
  | nil => exact ⟨Nat.le_refl 0, List.forall_mem_nil _⟩
  | cons a as ih =>
      obtain ⟨hcount, heach⟩ := ih
      simp only [List.flatMap_cons, List.length_append, List.length_cons]
      refine ⟨by omega, ?_⟩
      intro b hb
      rcases List.mem_cons.mp hb with rfl | hb
      · omega
      · have hle := heach b hb
        omega

section Brackets

variable {layout : Layout} {level fuel depth : Nat}

/-- Fuel for the bytes of an array is fuel for those of each item. -/
theorem length_item_le {items : List Value}
    (enough : ((Value.array items).written layout level).length ≤ fuel) {v : Value}
    (h : v ∈ items) : (v.written layout (level + 1)).length ≤ fuel := by
  cases items with
  | nil => exact absurd h List.not_mem_nil
  | cons w more =>
      obtain ⟨-, heach⟩ := length_le_of_commas
        (fun w => layout.gap (level + 1) ++ w.written layout (level + 1)) more
      rw [Value.written_array_cons] at enough
      simp only [List.length_cons, List.length_append] at enough
      rcases List.mem_cons.mp h with rfl | hmore
      · omega
      · have hle := heach v hmore
        rw [List.length_append] at hle
        omega

/-- Fuel for the bytes of an object is fuel for those of each value in it. -/
theorem length_member_le {members : List (String × Value)}
    (enough : ((Value.object members).written layout level).length ≤ fuel)
    {m : String × Value} (h : m ∈ members) : (m.2.written layout (level + 1)).length ≤ fuel := by
  have hmember : (m.2.written layout (level + 1)).length
      ≤ (Value.writtenMember layout (level + 1) m).length := by
    simp only [Value.writtenMember, List.length_cons, List.length_append]
    omega
  cases members with
  | nil => exact absurd h List.not_mem_nil
  | cons m' more =>
      obtain ⟨-, heach⟩ := length_le_of_commas
        (fun m => layout.gap (level + 1) ++ Value.writtenMember layout (level + 1) m) more
      rw [Value.written_object_cons] at enough
      simp only [List.length_cons, List.length_append] at enough
      rcases List.mem_cons.mp h with rfl | hmore
      · omega
      · have hle := heach m hmore
        rw [List.length_append] at hle
        omega

/-- The text of an array, from behind its bracket on, is read item by item if
    there is fuel for each of its bytes. -/
theorem itemsFrom_array {α : Type} {item : Bytes → Reading α} (form : α → Value) {items : List α}
    (begins : ∀ a ∈ items, BeginsItem ((form a).written layout (level + 1)))
    (reads : ∀ a ∈ items, Reads item a ((form a).written layout (level + 1)))
    (enough : ((Value.array (items.map form)).written layout level).length ≤ fuel) :
    ∃ more, (Value.array (items.map form)).written layout level = 0x5B :: more
      ∧ ∀ rest, itemsFrom item fuel [] (more ++ rest) = .ok (items, rest) := by
  cases items with
  | nil =>
      rw [List.map_nil, Value.written_array_nil] at enough ⊢
      obtain ⟨fuel, rfl⟩ := Nat.exists_eq_succ_of_ne_zero (Nat.ne_zero_of_lt enough)
      exact ⟨[0x5D], rfl, fun _ => rfl⟩
  | cons a as =>
      rw [List.map_cons, Value.written_array_cons, List.flatMap_map] at enough ⊢
      obtain ⟨hcount, -⟩ := length_le_of_commas
        (fun a => layout.gap (level + 1) ++ (form a).written layout (level + 1)) as
      simp only [List.length_cons, List.length_append, List.length_nil] at enough
      refine ⟨_, rfl, fun rest => ?_⟩
      have hitems := itemsFrom_written (gap_isSpace layout (level + 1)) (gap_isSpace layout level)
        begins reads (show as.length + 1 < fuel by omega) rest
      simp only [List.append_assoc, List.cons_append, List.nil_append]
      exact hitems

/-- The text of an object: its members with commas between them. -/
theorem written_object_eq (members : List (String × Value)) :
    ∃ last, (∀ b ∈ last, isSpace b = true)
      ∧ (Value.object members).written layout level
        = 0x7B :: (separated (entries layout (level + 1) members) ++ (last ++ [0x7D])) := by
  cases members with
  | nil => exact ⟨[], List.forall_mem_nil _, Value.written_object_nil⟩
  | cons m more =>
      refine ⟨layout.gap level, gap_isSpace layout level, ?_⟩
      have hmore : ((entries layout (level + 1) more).flatMap fun e => 0x2C :: e.bytes)
          = more.flatMap fun m =>
              0x2C :: (layout.gap (level + 1) ++ Value.writtenMember layout (level + 1) m) := by
        rw [entries, List.flatMap_map]
        simp only [Entry.bytes_written]
      rw [Value.written_object_cons, ← hmore]
      show _ = 0x7B :: (((Entry.written layout (level + 1) m).bytes ++ _) ++ _)
      rw [Entry.bytes_written, List.append_assoc, List.append_assoc]
      rfl

/-- There are at least as many bytes in the text of some members as there are
    members. -/
theorem length_le_separated (entries : List Entry) :
    entries.length ≤ (separated entries).length := by
  cases entries with
  | nil => exact Nat.le_refl 0
  | cons e more =>
      obtain ⟨hcount, -⟩ := length_le_of_commas Entry.bytes more
      simp only [separated, Entry.bytes, List.length_cons, List.length_append] at hcount ⊢
      omega

/-- The text of an object, from behind its brace on, is read member by member
    if there is fuel for each of its bytes. -/
theorem membersFrom_object {σ : Type} {member : String → σ → Bytes → Reading σ}
    {members : List (String × Value)} {draft final : σ}
    (takes : Takes member (entries layout (level + 1) members) draft final)
    (enough : ((Value.object members).written layout level).length ≤ fuel) :
    ∃ more, (Value.object members).written layout level = 0x7B :: more
      ∧ ∀ rest, membersFrom member fuel true draft (more ++ rest) = .ok (final, rest) := by
  obtain ⟨last, hlast, heq⟩ := @written_object_eq layout level members
  have hcount := length_le_separated (entries layout (level + 1) members)
  rw [heq] at enough
  simp only [List.length_cons, List.length_append, List.length_nil] at enough
  refine ⟨_, heq, fun rest => ?_⟩
  rw [List.append_assoc, List.append_assoc]
  exact membersFrom_separated hlast takes (by omega) rest

/-- An array is read if its items are, and there is fuel for each of its
    bytes. -/
theorem reads_array {items : List Value} (exact : ∀ v ∈ items, v.isExact = true)
    (reads : ∀ v ∈ items, Reads (value fuel depth) v (v.written layout (level + 1)))
    (enough : ((Value.array items).written layout level).length ≤ fuel) :
    Reads (value fuel (depth + 1)) (.array items) ((Value.array items).written layout level) := by
  intro gap rest hgap _
  rw [← List.map_id items] at enough
  obtain ⟨more, htext, hitems⟩ := itemsFrom_array id
    (fun v hv => Value.written_head (exact v hv)) reads enough
  rw [List.map_id] at htext
  rw [htext, List.cons_append, value_array (skipSpace_gap_cons hgap (by decide) _), hitems]
  rfl

/-- An object is read if the values of its members are, its members ascend,
    and there is fuel for each of its bytes. -/
theorem reads_object {members : List (String × Value)} (sorted : SortedMap.Sorted members)
    (reads : ∀ m ∈ members, Reads (value fuel depth) m.2 (m.2.written layout (level + 1)))
    (enough : ((Value.object members).written layout level).length ≤ fuel) :
    Reads (value fuel (depth + 1)) (.object members)
      ((Value.object members).written layout level) := by
  intro gap rest hgap _
  have hid : members.map (fun m => (m.1, id m.2)) = members := List.map_id _
  have htakes : Takes (mapMember (value fuel depth))
      (entries layout (level + 1) (members.map fun m => (m.1, id m.2))) [] members :=
    takes_map id reads sorted
  rw [hid] at htakes
  obtain ⟨more, htext, hmembers⟩ := membersFrom_object htakes enough
  rw [htext, List.cons_append, value_object (skipSpace_gap_cons hgap (by decide) _), hmembers]
  rfl

end Brackets

/-- Every exact value in order is read as it was written, in either layout,
    if it does not nest too deep and there is fuel for each of its bytes. -/
theorem reads_written (layout : Layout) {v : Value} (exact : v.isExact = true) (ordered : v.Ordered)
    {level fuel depth : Nat} (nesting : v.nesting ≤ depth)
    (enough : (v.written layout level).length ≤ fuel) :
    Reads (value fuel depth) v (v.written layout level) := by
  -- the fuel stays: it is spent on the items of one level and not on the levels
  induction v using Value.induct generalizing level depth with
  | null =>
      rw [Value.written_null]
      exact reads_scalar (by decide) (fun _ _ => rfl) fuel depth
  | boolean b =>
      cases b with
      | true =>
          rw [Value.written_true]
          exact reads_scalar (by decide) (fun _ _ => rfl) fuel depth
      | false =>
          rw [Value.written_false]
          exact reads_scalar (by decide) (fun _ _ => rfl) fuel depth
  | number n =>
      rw [Value.written_number]
      cases n with
      | natural n =>
          rw [Value.ofString_natural]
          obtain ⟨b, more, heq, hdigit⟩ := encode_toDigits_head n.toNat
          obtain ⟨hspace, harray, -, hobject⟩ := begins_of_isDigit hdigit
          rw [heq]
          refine reads_scalar ⟨hspace, harray, hobject⟩ ?_ fuel depth
          intro rest ends
          rw [← heq]
          exact scalar_natural n ends
      | negative m =>
          rw [Value.ofString_negative]
          exact reads_scalar (by decide) (fun _ ends => scalar_negative m ends) fuel depth
      | double x => exact absurd exact (by simp [Value.isExact, Value.parts, Value.isDouble])
  | string s =>
      rw [Value.written_string]
      refine reads_scalar (by decide) ?_ fuel depth
      intro rest _
      show (stringBody (stringTail s ++ rest)).map (fun r => (Value.string r.1, r.2)) = _
      rw [stringBody_written]
      rfl
  | array items ih =>
      obtain ⟨depth, rfl⟩ : ∃ d, depth = d + 1 := Nat.exists_eq_succ_of_ne_zero (by
        rintro rfl
        exact absurd nesting (Nat.not_succ_le_zero _))
      have hexact := Value.isExact_array.mp exact
      refine reads_array hexact ?_ enough
      intro v hv
      exact ih v hv (hexact v hv) (Value.ordered_array.mp ordered v hv)
        (Value.nesting_array_le.mp nesting v hv)
        (length_item_le enough hv)
  | object members ih =>
      obtain ⟨depth, rfl⟩ : ∃ d, depth = d + 1 := Nat.exists_eq_succ_of_ne_zero (by
        rintro rfl
        exact absurd nesting (Nat.not_succ_le_zero _))
      obtain ⟨hsorted, hordered⟩ := Value.ordered_object.mp ordered
      refine reads_object hsorted ?_ enough
      intro m hm
      exact ih m hm (Value.isExact_object.mp exact m hm) (hordered m hm)
        (Value.nesting_object_le.mp nesting m hm)
        (length_member_le enough hm)

/-! ## What was read -/

/-- What holds of everything that an item reading gives holds of the items of
    an array. -/
theorem forall_of_itemsFrom {α : Type} {item : Bytes → Reading α} {p : α → Prop}
    (hitem : ∀ s a rest, item s = .ok (a, rest) → p a) {fuel : Nat} {read items : List α}
    {s rest : Bytes} (hread : ∀ a ∈ read, p a)
    (h : itemsFrom item fuel read s = .ok (items, rest)) : ∀ a ∈ items, p a := by
  induction fuel generalizing read s with
  | zero => exact nomatch h
  | succ fuel ih =>
      rw [itemsFrom] at h
      split at h
      · exact nomatch h
      · obtain ⟨rfl, -⟩ := Prod.mk.inj (Except.ok.inj h)
        intro a ha
        exact hread a (List.mem_reverse.mp ha)
      · split at h
        · exact nomatch h
        · next a _ heq =>
          exact ih (List.forall_mem_cons.mpr ⟨hitem _ _ _ heq, hread⟩) h

/-- What every member keeps holds of all members of an object. -/
theorem invariant_of_membersFrom {σ : Type} {member : String → σ → Bytes → Reading σ}
    {p : σ → Prop}
    (hmember : ∀ name read s read' rest, p read → member name read s = .ok (read', rest) → p read')
    {fuel : Nat} {first : Bool} {read read' : σ} {s rest : Bytes} (hread : p read)
    (h : membersFrom member fuel first read s = .ok (read', rest)) : p read' := by
  induction fuel generalizing first read s with
  | zero => exact nomatch h
  | succ fuel ih =>
      rw [membersFrom] at h
      split at h
      · exact nomatch h
      · obtain ⟨rfl, -⟩ := Prod.mk.inj (Except.ok.inj h)
        exact hread
      · split at h
        · exact nomatch h
        · next heq => exact ih (hmember _ _ _ _ _ hread heq) h

/-- A member goes to its place in the map. -/
theorem mapMember_ok {α : Type} {item : Bytes → Reading α} {name : String}
    {read read' : List (String × α)} {s rest : Bytes}
    (h : mapMember item name read s = .ok (read', rest)) :
    ∃ s' a, item s' = .ok (a, rest) ∧ read' = SortedMap.insert name a read := by
  rw [mapMember] at h
  split at h
  · exact nomatch h
  · split at h
    · exact nomatch h
    · next heq =>
      obtain ⟨rfl, rfl⟩ := Prod.mk.inj (Except.ok.inj h)
      exact ⟨_, _, heq, rfl⟩

/-- The members that were read ascend, and what holds of every value that is
    read holds of theirs. -/
theorem sorted_of_membersFrom {α : Type} {item : Bytes → Reading α} {p : α → Prop}
    (hitem : ∀ s a rest, item s = .ok (a, rest) → p a) {fuel : Nat} {s rest : Bytes}
    {members : List (String × α)}
    (h : membersFrom (mapMember item) fuel true [] s = .ok (members, rest)) :
    SortedMap.Sorted members ∧ ∀ m ∈ members, p m.2 := by
  refine invariant_of_membersFrom
    (p := fun read => SortedMap.Sorted read ∧ ∀ m ∈ read, p m.2) ?_ ?_ h
  · rintro name read s read' rest ⟨hsorted, hread⟩ hmember
    obtain ⟨s', a, ha, rfl⟩ := mapMember_ok hmember
    refine ⟨hsorted.insert name a, ?_⟩
    intro m hm
    rcases SortedMap.mem_insert hm with rfl | hm
    · exact hitem _ _ _ ha
    · exact hread m hm
  · exact ⟨List.Pairwise.nil, List.forall_mem_nil _⟩

/-- What a reading gives after a change of its result. -/
theorem map_eq_ok {α β : Type} {reading : Reading α} {f : α × Bytes → β × Bytes} {r : β × Bytes}
    (h : reading.map f = .ok r) : ∃ a, reading = .ok a ∧ f a = r := by
  cases reading with
  | error fault => exact nomatch h
  | ok a => exact ⟨a, rfl, Except.ok.inj h⟩

/-- A scalar is its only part and is no object. -/
theorem ordered_of_scalar {s rest : Bytes} {v : Value} (h : scalar s = .ok (v, rest)) :
    v.Ordered ∧ v.nesting = 0 := by
  unfold scalar at h
  split at h
  · cases h
  · split at h
    case h_6 =>
      split at h
      · obtain ⟨_, -, heq⟩ := map_eq_ok h
        obtain ⟨rfl, -⟩ := Prod.mk.inj heq
        exact ⟨List.forall_mem_singleton.mpr trivial, rfl⟩
      · cases h
    all_goals
      obtain ⟨_, -, heq⟩ := map_eq_ok h
      obtain ⟨rfl, -⟩ := Prod.mk.inj heq
      exact ⟨List.forall_mem_singleton.mpr trivial, rfl⟩

/-- A value that was read is in order and nests no deeper than was allowed. -/
theorem ordered_of_value {fuel depth : Nat} {s rest : Bytes} {v : Value}
    (h : value fuel depth s = .ok (v, rest)) : v.Ordered ∧ v.nesting ≤ depth := by
  induction depth generalizing s v rest with
  | zero =>
      rw [value.eq_def] at h
      split at h
      · exact nomatch h
      · exact nomatch h
      · next heq => exact nomatch heq
      · next heq => exact nomatch heq
      · obtain ⟨hordered, hnesting⟩ := ordered_of_scalar h
        exact ⟨hordered, Nat.le_of_eq hnesting⟩
  | succ depth ih =>
      rw [value.eq_def] at h
      split at h
      · next heq => exact nomatch heq
      · next heq => exact nomatch heq
      · next heq =>
        obtain rfl := Nat.succ.inj heq
        obtain ⟨⟨items, rest'⟩, hitems, heq⟩ := map_eq_ok h
        obtain ⟨rfl, -⟩ := Prod.mk.inj heq
        have hall := forall_of_itemsFrom (fun _ _ _ hitem => ih hitem) (List.forall_mem_nil _)
          hitems
        exact ⟨Value.ordered_array.mpr fun v hv => (hall v hv).1,
          Value.nesting_array_le.mpr fun v hv => (hall v hv).2⟩
      · next heq =>
        obtain rfl := Nat.succ.inj heq
        obtain ⟨⟨members, rest'⟩, hmembers, heq⟩ := map_eq_ok h
        obtain ⟨rfl, -⟩ := Prod.mk.inj heq
        obtain ⟨hsorted, hall⟩ := sorted_of_membersFrom (fun _ _ _ hitem => ih hitem)
          hmembers
        exact ⟨Value.ordered_object.mpr ⟨hsorted, fun m hm => (hall m hm).1⟩,
          Value.nesting_object_le.mpr fun m hm => (hall m hm).2⟩
      · obtain ⟨hordered, hnesting⟩ := ordered_of_scalar h
        exact ⟨hordered, hnesting ▸ Nat.zero_le _⟩

/-! ## Whole texts -/

/-- A text that a reading takes to its last byte is read as a whole, with space
    around it. -/
theorem whole_of_reads_between {α : Type} {reading : Nat → Bytes → Reading α} {a : α}
    {before text after : Bytes} (ahead : ∀ b ∈ before, isSpace b = true)
    (behind : ∀ b ∈ after, isSpace b = true)
    (h : Reads (reading ((before ++ (text ++ after)).length + 1)) a text) :
    whole reading (before ++ (text ++ after)) = .ok a := by
  have ends : EndsNumber (after ++ []) := endsNumber_gap behind endsNumber_nil
  have hend : skipSpace (after ++ []) = [] := skipSpace_gap behind []
  rw [List.append_nil] at ends hend
  rw [whole, h before after ahead ends]
  simp only [hend]

/-- A text that a reading takes to its last byte is read as a whole. -/
theorem whole_of_reads {α : Type} {reading : Nat → Bytes → Reading α} {a : α} {text : Bytes}
    (h : Reads (reading (text.length + 1)) a text) : whole reading text = .ok a := by
  have hspace : ∀ b ∈ ([] : Bytes), isSpace b = true := List.forall_mem_nil _
  have hread := @whole_of_reads_between _ reading a [] text [] hspace hspace
  rw [List.nil_append, List.append_nil] at hread
  exact hread h

theorem ok_of_whole {α : Type} {reading : Nat → Bytes → Reading α} {a : α} {text : Bytes}
    (h : whole reading text = .ok a) :
    ∃ rest, reading (text.length + 1) text = .ok (a, rest) := by
  rw [whole] at h
  split at h
  · exact nomatch h
  · next heq =>
    split at h
    · obtain rfl := Except.ok.inj h
      exact ⟨_, heq⟩
    · exact nomatch h

/-- An exact value in order that does not nest too deep is read back from its
    text. -/
theorem parse_written (layout : Layout) {v : Value} (exact : v.isExact = true) (ordered : v.Ordered)
    (nesting : v.nesting ≤ greatestDepth) : parse (v.written layout 0) = .ok v :=
  whole_of_reads (reads_written layout exact ordered nesting (Nat.le_succ _))

/-- What is read is ordered, and nested no deeper than allowed. -/
theorem ordered_of_parse {text : Bytes} {v : Value} (h : parse text = .ok v) :
    v.Ordered ∧ v.nesting ≤ greatestDepth := by
  obtain ⟨rest, hread⟩ := ok_of_whole h
  exact ordered_of_value hread

/-- An exact value that was read is read once more from its compact text. -/
theorem parse_compactBytes {text : Bytes} {v : Value} (h : parse text = .ok v)
    (exact : v.isExact = true) : parse v.compactBytes = .ok v := by
  obtain ⟨hordered, hnesting⟩ := ordered_of_parse h
  exact parse_written .compact exact hordered hnesting

end BusWindow.Json
