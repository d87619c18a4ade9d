import Mathlib.Data.String.Basic
import BusWindow.Json.Shape

/-!
# Values — what is inside a value, and what a reader leaves in it

    `Value.induct` is induction over values, with one case for each kind.
    The parts of a value are the value and everything inside it. A value is
    exact when none of its parts is a double, and ordered when the members
    of every object among its parts ascend, as those of a value that was
    read do. Both are told of arrays and objects by what they are made of.
    Whether two values are equal can be decided (`agree_iff`). A value that
    is taken as a whole number is a number that denotes it
    (`takeInt_ok_iff`).
-/

namespace BusWindow

/-! ## Maps in ascending order -/

namespace SortedMap

variable {α : Type} {key : String} {value : α} {map : List (String × α)}

/-- An entry of the changed map is the new one or an old one. -/
theorem mem_insert {p : String × α} (h : p ∈ insert key value map) :
    p = (key, value) ∨ p ∈ map := by
  induction map with
  | nil => exact Or.inl (List.mem_singleton.mp h)
  | cons q rest ih =>
      obtain ⟨k, v⟩ := q
      rw [insert] at h
      split at h
      · exact List.mem_cons.mp h
      · split at h
        · exact (List.mem_cons.mp h).imp_right (List.mem_cons_of_mem _)
        · rcases List.mem_cons.mp h with rfl | hrest
          · exact Or.inr List.mem_cons_self
          · exact (ih hrest).imp_right (List.mem_cons_of_mem _)

/-- Putting a value under a key keeps a map in order. -/
theorem Sorted.insert (h : Sorted map) (key : String) (value : α) :
    Sorted (insert key value map) := by
  induction map with
  | nil => exact List.pairwise_singleton _ _
  | cons q rest ih =>
      obtain ⟨k, v⟩ := q
      obtain ⟨hfirst, hrest⟩ := List.pairwise_cons.mp h
      rw [SortedMap.insert]
      split
      · next hlt =>
        refine List.pairwise_cons.mpr ⟨?_, h⟩
        intro p hp
        rcases List.mem_cons.mp hp with rfl | hp
        · exact hlt
        · exact lt_trans hlt (hfirst p hp)
      · split
        · next heq =>
          refine List.pairwise_cons.mpr ⟨?_, hrest⟩
          intro p hp
          exact heq ▸ hfirst p hp
        · next hnlt hne =>
          -- the key comes behind the first one, so the first one stays first
          have hgt : k < key := lt_of_le_of_ne (le_of_not_gt hnlt) (Ne.symm hne)
          refine List.pairwise_cons.mpr ⟨?_, ih hrest⟩
          intro p hp
          rcases mem_insert hp with rfl | hp
          · exact hgt
          · exact hfirst p hp

/-- A key behind all others goes to the end. -/
theorem insert_of_forall_lt (h : ∀ p ∈ map, p.1 < key) :
    insert key value map = map ++ [(key, value)] := by
  induction map with
  | nil => rfl
  | cons q rest ih =>
      obtain ⟨k, v⟩ := q
      have hlt : k < key := h (k, v) List.mem_cons_self
      rw [insert, if_neg (lt_asymm hlt), if_neg (ne_of_gt hlt),
        ih fun p hp => h p (List.mem_cons_of_mem _ hp)]
      rfl

end SortedMap

namespace Json.Value

/-- Induction over values: over the items of an array and over the values of
    the members of an object. -/
theorem induct {motive : Value → Prop} (null : motive .null)
    (boolean : ∀ b, motive (.boolean b)) (number : ∀ n, motive (.number n))
    (string : ∀ s, motive (.string s))
    (array : ∀ items, (∀ v ∈ items, motive v) → motive (.array items))
    (object : ∀ members, (∀ m ∈ members, motive m.2) → motive (.object members))
    (v : Value) : motive v :=
  -- a list has the property if all of its elements have it
  @Value.rec motive (fun items => ∀ w ∈ items, motive w)
    (fun members => ∀ m ∈ members, motive m.2) (fun m => motive m.2)
    null boolean number string array object
    (fun _ h => nomatch h)
    (fun _ _ hv hrest => List.forall_mem_cons.mpr ⟨hv, hrest⟩)
    (fun _ h => nomatch h)
    (fun _ _ hm hrest => List.forall_mem_cons.mpr ⟨hm, hrest⟩)
    (fun _ _ hv => hv) v

/-! ## Equal values -/

mutual

/-- Whether two values are the same. -/
def agree : Value → Value → Bool
  | .null, .null => true
  | .boolean a, .boolean b => a == b
  | .number m, .number n => decide (m = n)
  | .string s, .string t => s == t
  | .array items, .array items' => itemsAgree items items'
  | .object members, .object members' => membersAgree members members'
  | _, _ => false

/-- Whether the items of two arrays are the same. -/
def itemsAgree : List Value → List Value → Bool
  | [], [] => true
  | v :: rest, w :: rest' => agree v w && itemsAgree rest rest'
  | _, _ => false

/-- Whether the members of two objects are the same. -/
def membersAgree : List (String × Value) → List (String × Value) → Bool
  | [], [] => true
  | (name, v) :: rest, (name', w) :: rest' => name == name' && agree v w && membersAgree rest rest'
  | _, _ => false

end

/-- The comparison of two values decides whether they are equal, by induction
    on both. -/
theorem agree_iff {v w : Value} : agree v w = true ↔ v = w := by
  induction v using induct generalizing w with
  | null => cases w <;> simp [agree]
  | boolean b => cases w <;> simp [agree]
  | number n => cases w <;> simp [agree]
  | string s => cases w <;> simp [agree]
  | array items ih =>
      have hitems {items' : List Value} : itemsAgree items items' = true ↔ items = items' := by
        induction items generalizing items' with
        | nil => cases items' <;> simp [itemsAgree]
        | cons v rest ih' =>
            obtain ⟨hv, hrest⟩ := List.forall_mem_cons.mp ih
            cases items' <;> simp [itemsAgree, hv, ih' hrest]
      cases w <;> simp [agree, hitems]
  | object members ih =>
      have hmembers {members' : List (String × Value)} :
          membersAgree members members' = true ↔ members = members' := by
        induction members generalizing members' with
        | nil => cases members' <;> simp [membersAgree]
        | cons m rest ih' =>
            obtain ⟨hv, hrest⟩ := List.forall_mem_cons.mp ih
            cases members' <;> simp [membersAgree, hv, ih' hrest, Prod.ext_iff]
      cases w <;> simp [agree, hmembers]

instance : DecidableEq Value := fun _ _ => decidable_of_iff _ agree_iff

/-! ## The parts of a value -/

mutual

/-- A value and all values inside it. -/
def parts : Value → List Value
  | .array items => .array items :: partsOfItems items
  | .object members => .object members :: partsOfMembers members
  | v => [v]

/-- The parts of the items of an array. -/
def partsOfItems : List Value → List Value
  | [] => []
  | v :: rest => v.parts ++ partsOfItems rest

/-- The parts of the members of an object. -/
def partsOfMembers : List (String × Value) → List Value
  | [] => []
  | (_, v) :: rest => v.parts ++ partsOfMembers rest

end

/-- The parts of items are the parts of each. -/
theorem partsOfItems_eq (items : List Value) : partsOfItems items = items.flatMap parts := by
  induction items with
  | nil => rfl
  | cons v rest ih => rw [partsOfItems, ih, List.flatMap_cons]

/-- The parts of members are the parts of each value. -/
theorem partsOfMembers_eq (members : List (String × Value)) :
    partsOfMembers members = members.flatMap fun m => m.2.parts := by
  induction members with
  | nil => rfl
  | cons m rest ih => rw [partsOfMembers, ih, List.flatMap_cons]

/-- What holds of all parts of an array holds of the array and of all parts of
    its items. -/
theorem forall_parts_array {p : Value → Prop} {items : List Value} :
    (∀ w ∈ (Value.array items).parts, p w)
      ↔ p (.array items) ∧ ∀ v ∈ items, ∀ w ∈ v.parts, p w := by
  rw [parts, List.forall_mem_cons, partsOfItems_eq, List.forall_mem_flatMap]

/-- What holds of all parts of an object holds of the object and of all parts
    of its values. -/
theorem forall_parts_object {p : Value → Prop} {members : List (String × Value)} :
    (∀ w ∈ (Value.object members).parts, p w)
      ↔ p (.object members) ∧ ∀ m ∈ members, ∀ w ∈ m.2.parts, p w := by
  rw [parts, List.forall_mem_cons, partsOfMembers_eq, List.forall_mem_flatMap]

/-! ## Exact values -/

/-- Whether a value is a double. -/
def isDouble : Value → Bool
  | .number (.double _) => true
  | _ => false

/-- Whether a value holds no double. -/
def isExact (v : Value) : Bool := v.parts.all fun w => !w.isDouble

/-- A value is exact if none of its parts is a double. -/
theorem isExact_iff {v : Value} : v.isExact = true ↔ ∀ w ∈ v.parts, w.isDouble = false := by
  simp [isExact]

/-- An array is exact if its items are. -/
theorem isExact_array {items : List Value} :
    (Value.array items).isExact = true ↔ ∀ v ∈ items, v.isExact = true := by
  simp only [isExact_iff, forall_parts_array]
  exact and_iff_right rfl

/-- An object is exact if its values are. -/
theorem isExact_object {members : List (String × Value)} :
    (Value.object members).isExact = true ↔ ∀ m ∈ members, m.2.isExact = true := by
  simp only [isExact_iff, forall_parts_object]
  exact and_iff_right rfl

/-! ## Ordered values -/

/-- Whether a value, if it is an object, has its members in ascending
    order. -/
def Ascends : Value → Prop
  | .object members => SortedMap.Sorted members
  | _ => True

/-- A value in which the members of every object ascend. -/
def Ordered (v : Value) : Prop := ∀ w ∈ v.parts, w.Ascends

/-- An array is ordered if its items are. -/
theorem ordered_array {items : List Value} :
    (Value.array items).Ordered ↔ ∀ v ∈ items, v.Ordered :=
  forall_parts_array.trans (and_iff_right trivial)

/-- An object is ordered if its names ascend and its values are ordered. -/
theorem ordered_object {members : List (String × Value)} :
    (Value.object members).Ordered
      ↔ SortedMap.Sorted members ∧ ∀ m ∈ members, m.2.Ordered :=
  forall_parts_object

/-! ## Nesting -/

/-- An array nests one deeper than its items. -/
theorem nesting_array_le {items : List Value} {depth : Nat} :
    (Value.array items).nesting ≤ depth + 1 ↔ ∀ v ∈ items, v.nesting ≤ depth := by
  rw [nesting, Nat.add_le_add_iff_right]
  induction items with
  | nil => simp [nestingOfItems]
  | cons v rest ih => rw [nestingOfItems, Nat.max_le, ih, List.forall_mem_cons]

/-- An object nests one deeper than its values. -/
theorem nesting_object_le {members : List (String × Value)} {depth : Nat} :
    (Value.object members).nesting ≤ depth + 1 ↔ ∀ m ∈ members, m.2.nesting ≤ depth := by
  rw [nesting, Nat.add_le_add_iff_right]
  induction members with
  | nil => simp [nestingOfMembers]
  | cons m rest ih => rw [nestingOfMembers, Nat.max_le, ih, List.forall_mem_cons]

end Json.Value

/-! ## Whole numbers -/

namespace Json

/-- An integer is taken from a number that is one, between the bounds. -/
theorem takeInt_ok_iff {low high i : Int} {expected : String} {v : Value} :
    takeInt low high expected v = .ok i
      ↔ ∃ n : Number, v = .number n ∧ n.toInt? = some i ∧ low ≤ i ∧ i ≤ high := by
  constructor
  · intro h
    unfold takeInt at h
    split at h
    · next n =>
      split at h
      · next j hj =>
        split at h
        · next hbounds =>
          obtain rfl := Except.ok.inj h
          exact ⟨n, rfl, hj, hbounds⟩
        · cases h
      · cases h
    · cases h
  · rintro ⟨n, rfl, hn, hlow, hhigh⟩
    rw [takeInt, hn]
    exact if_pos ⟨hlow, hhigh⟩

/-- A natural number is taken as an integer that is not negative. -/
theorem takeNat_ok_iff_takeInt {bound n : Nat} {expected : String} {v : Value} :
    takeNat bound expected v = .ok n ↔ takeInt 0 (bound - 1) expected v = .ok (n : Int) := by
  rw [takeNat]
  cases htake : takeInt 0 (bound - 1) expected v with
  | error e => simp [Except.map]
  | ok i =>
      obtain ⟨-, -, -, hlow, -⟩ := takeInt_ok_iff.mp htake
      rw [Except.map, Except.ok.injEq, Except.ok.injEq]
      omega

end Json

end BusWindow
