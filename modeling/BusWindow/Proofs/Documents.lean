import BusWindow.Proofs.Values
import BusWindow.Toml.Reader

/-!
# Documents — every key of a document stands for one value

    A document grows by items, and an item is sound if the values at its
    leaves are ordered. Whatever stands on a line keeps a document sound, so
    the value of a whole document is ordered: in each of its tables a key has
    one value.

    * `Item.Sound.ordered` says what a sound item stands for;
    * `Sound.update` is the growth of a table at the end of a path,
      and the headers and keys of a document are cases of it;
    * `readsOrdered_value` is about the values of a document, by induction on
      how deeply they may be nested;
    * `ordered_of_parse` puts the two together.
-/

namespace BusWindow.Toml

open Json (Value)

/-! ## Sound items -/

/-- An item whose leaves are ordered. -/
inductive Item.Sound : Item → Prop where
  | leaf {v : Value} (ordered : v.Ordered) : Item.Sound (.leaf v)
  | table {kind : Kind} {es : Entries} (entries : ∀ e ∈ es, Item.Sound e.2) :
      Item.Sound (.table kind es)
  | tables {earlier : List Entries} {last : Entries}
      (before : ∀ es ∈ earlier, ∀ e ∈ es, Item.Sound e.2) (entries : ∀ e ∈ last, Item.Sound e.2) :
      Item.Sound (.tables earlier last)

/-- Entries whose items are sound. -/
def Entries.Sound (es : Entries) : Prop := ∀ e ∈ es, e.2.Sound

/-- The value of a table has its members in ascending order, whatever the order
    of its entries. -/
theorem ordered_entriesValue {es : Entries} (h : ∀ e ∈ es, e.2.value.Ordered) :
    (Value.object (entriesValue es)).Ordered := by
  rw [Value.ordered_object]
  induction es with
  | nil => exact ⟨List.Pairwise.nil, nofun⟩
  | cons e rest ih =>
      obtain ⟨key, item⟩ := e
      obtain ⟨hitem, hrest⟩ := List.forall_mem_cons.mp h
      obtain ⟨hsorted, hmembers⟩ := ih hrest
      rw [entriesValue]
      refine ⟨hsorted.insert _ _, ?_⟩
      intro m hm
      rcases SortedMap.mem_insert hm with rfl | hm
      · exact hitem
      · exact hmembers m hm

/-- The tables under one header are taken one by one. -/
theorem tablesValue_eq_map (l : List Entries) :
    tablesValue l = l.map fun es => Value.object (entriesValue es) := by
  induction l with
  | nil => rfl
  | cons es rest ih => rw [tablesValue, ih, List.map_cons]

/-- A sound item stands for an ordered value. -/
theorem Item.Sound.ordered {item : Item} (h : item.Sound) : item.value.Ordered := by
  induction h with
  | leaf ordered =>
      rw [Item.value]
      exact ordered
  | table entries ih =>
      rw [Item.value]
      exact ordered_entriesValue ih
  | tables before entries ihbefore ih =>
      rw [Item.value, Value.ordered_array, tablesValue_eq_map]
      intro v hv
      rcases List.mem_append.mp hv with hv | hv
      · obtain ⟨es, hes, rfl⟩ := List.mem_map.mp hv
        exact ordered_entriesValue (ihbefore es hes)
      · obtain rfl := List.mem_singleton.mp hv
        exact ordered_entriesValue ih

/-! ## How tables grow -/

namespace Entries

variable {es es' : Entries} {key : String} {item : Item} {kind here : Kind} {path : List String}
  {v : Value}

/-- The empty table is sound. -/
theorem Sound.nil : Sound [] := nofun

/-- What stands in a sound table is sound. -/
theorem Sound.get? (h : es.Sound) (found : es.get? key = some item) : item.Sound := by
  obtain ⟨before, after, heq, -⟩ := List.lookup_eq_some_iff.mp found
  exact h (key, item) (heq ▸ List.mem_append_right _ List.mem_cons_self)

/-- A sound table stays sound with one more sound item. -/
theorem Sound.add (h : es.Sound) (sound : item.Sound) : (es.add key item).Sound := by
  intro e he
  rcases List.mem_append.mp he with he | he
  · exact h e he
  · obtain rfl := List.mem_singleton.mp he
    exact sound

/-- A sound table stays sound with a sound item in the place of another. -/
theorem Sound.replace (h : es.Sound) (sound : item.Sound) : (es.replace key item).Sound := by
  intro e he
  obtain ⟨e', he', rfl⟩ := List.mem_map.mp he
  by_cases hkey : e'.1 = key
  · rw [if_pos hkey]
    exact sound
  · rw [if_neg hkey]
    exact h e' he'

/-- A change that keeps tables sound keeps the whole sound when it is made at
    the end of a path. -/
theorem Sound.update {change : Kind → Entries → Option Entries}
    (keeps : ∀ kind es es', Sound es → change kind es = some es' → Sound es') (h : es.Sound)
    (changed : Entries.update kind change path here es = some es') : es'.Sound := by
  induction path generalizing here es es' with
  | nil => exact keeps here es es' h changed
  | cons key path ih =>
      rw [Entries.update] at changed
      split at changed
      · obtain ⟨inner, hinner, rfl⟩ := Option.map_eq_some_iff.mp changed
        exact h.add (.table (ih .nil hinner))
      · exact nomatch changed
      · next earlier last found =>
        obtain ⟨inner, hinner, rfl⟩ := Option.map_eq_some_iff.mp changed
        cases h.get? found with
        | tables before entries => exact h.replace (.tables before (ih entries hinner))
      · next there inside found =>
        split at changed
        · exact nomatch changed
        · obtain ⟨inner, hinner, rfl⟩ := Option.map_eq_some_iff.mp changed
          cases h.get? found with
          | table entries => exact h.replace (.table (ih entries hinner))

/-- A value put at a path leaves a sound table. -/
theorem Sound.put (h : es.Sound) (ordered : v.Ordered)
    (changed : es.put path key v kind = some es') : es'.Sound := by
  refine h.update ?_ changed
  intro here es es' hes hput
  split at hput
  · exact nomatch hput
  · split at hput
    · exact nomatch hput
    · obtain rfl := Option.some.inj hput
      exact hes.add (.leaf ordered)

/-- A header opens a sound table in a sound one. -/
theorem Sound.head (h : es.Sound) (changed : es.head key = some es') : es'.Sound := by
  rw [Entries.head] at changed
  split at changed
  · obtain rfl := Option.some.inj changed
    exact h.add (.table Sound.nil)
  · next inside found =>
    obtain rfl := Option.some.inj changed
    cases h.get? found with
    | table entries => exact h.replace (.table entries)
  · exact nomatch changed

/-- So does the header of one more table under a key. -/
theorem Sound.headNext (h : es.Sound) (changed : es.headNext key = some es') : es'.Sound := by
  rw [Entries.headNext] at changed
  split at changed
  · obtain rfl := Option.some.inj changed
    exact h.add (.tables nofun Sound.nil)
  · next earlier last found =>
    obtain rfl := Option.some.inj changed
    cases h.get? found with
    | tables before entries =>
        refine h.replace (.tables ?_ Sound.nil)
        intro es hes
        rcases List.mem_append.mp hes with hes | hes
        · exact before es hes
        · obtain rfl := List.mem_singleton.mp hes
          exact entries
  · exact nomatch changed

end Entries

/-! ## The values of a document -/

/-- A reading of values all of which are ordered. -/
def ReadsOrdered (item : List Char → Scan Value) : Prop :=
  ∀ s v rest, item s = some (v, rest) → v.Ordered

/-- Numbers have no members, and neither have the other scalars. -/
theorem ordered_number (n : Json.Number) : (Value.number n).Ordered :=
  List.forall_mem_singleton.mpr trivial

theorem ordered_string (s : String) : (Value.string s).Ordered :=
  List.forall_mem_singleton.mpr trivial

theorem ordered_boolean (b : Bool) : (Value.boolean b).Ordered :=
  List.forall_mem_singleton.mpr trivial

theorem ordered_momentValue : momentValue.Ordered :=
  Value.ordered_object.mpr ⟨List.pairwise_singleton _ _,
    List.forall_mem_singleton.mpr (ordered_string "")⟩

/-- A whole number has no members, however it is kept. -/
theorem ordered_ofInt (i : Int) : (Value.ofInt i).Ordered := by
  cases i with
  | ofNat n => exact ordered_number _
  | negSucc m => exact ordered_number _

/-- An integer that fits is read as an ordered value. -/
theorem readsOrdered_fitting (negative : Bool) (n : Nat) : ReadsOrdered (fitting negative n) := by
  intro s v rest h
  rw [fitting] at h
  split at h
  · split at h
    · obtain ⟨rfl, -⟩ := Prod.mk.inj (Option.some.inj h)
      exact ordered_ofInt _
    · exact nomatch h
  · split at h
    · obtain ⟨rfl, -⟩ := Prod.mk.inj (Option.some.inj h)
      exact ordered_number _
    · exact nomatch h

/-- So is a number with a fraction or an exponent. -/
theorem readsOrdered_doubleOf (negative : Bool) (ds : List Char) (exponent : Int) :
    ReadsOrdered (doubleOf negative ds exponent) := by
  intro s v rest h
  rw [doubleOf] at h
  split at h
  · exact nomatch h
  · obtain ⟨rfl, -⟩ := Prod.mk.inj (Option.some.inj h)
    exact ordered_number _

/-- So is an integer of another radix. -/
theorem readsOrdered_inRadix (radix : Nat) : ReadsOrdered (inRadix radix) := by
  intro s v rest h
  rw [inRadix] at h
  split at h
  · exact nomatch h
  · exact readsOrdered_fitting _ _ _ _ _ h

/-- Whatever follows the digits of a number, its value is ordered. -/
theorem readsOrdered_afterWhole (negative : Bool) (ds : List Char) :
    ReadsOrdered (afterWhole negative ds) := by
  intro s v rest h
  unfold afterWhole at h
  split at h
  · split at h
    · exact nomatch h
    · split at h
      · exact nomatch h
      · exact readsOrdered_doubleOf _ _ _ _ _ _ h
  · split at h
    · exact nomatch h
    · exact readsOrdered_doubleOf _ _ _ _ _ _ h
    · exact readsOrdered_fitting _ _ _ _ _ h

/-- Numbers are read as ordered values. -/
theorem readsOrdered_numeral : ReadsOrdered numeral := by
  intro s v rest h
  unfold numeral at h
  split at h
  · exact readsOrdered_inRadix _ _ _ _ h
  · exact readsOrdered_inRadix _ _ _ _ h
  · exact readsOrdered_inRadix _ _ _ _ h
  · simp only at h
    split at h
    · obtain ⟨rfl, -⟩ := Prod.mk.inj (Option.some.inj h)
      exact ordered_number _
    · obtain ⟨rfl, -⟩ := Prod.mk.inj (Option.some.inj h)
      exact ordered_number _
    · split at h
      · exact nomatch h
      · exact readsOrdered_afterWhole _ _ _ _ _ h

/-- Moments are read as ordered values. -/
theorem readsOrdered_moment : ReadsOrdered moment := by
  intro s v rest h
  rw [moment] at h
  split at h
  · obtain ⟨rfl, -⟩ := Prod.mk.inj (Option.some.inj h)
    exact ordered_momentValue
  · obtain ⟨r, -, hr⟩ := Option.map_eq_some_iff.mp h
    obtain ⟨rfl, -⟩ := Prod.mk.inj hr
    exact ordered_momentValue

/-- What is neither an array nor a table is read as an ordered value. -/
theorem readsOrdered_scalar : ReadsOrdered scalar := by
  intro s v rest h
  unfold scalar at h
  split at h
  · obtain ⟨rfl, -⟩ := Prod.mk.inj (Option.some.inj h)
    exact ordered_boolean _
  · obtain ⟨rfl, -⟩ := Prod.mk.inj (Option.some.inj h)
    exact ordered_boolean _
  · obtain ⟨r, -, hr⟩ := Option.map_eq_some_iff.mp h
    obtain ⟨rfl, -⟩ := Prod.mk.inj hr
    exact ordered_string _
  · obtain ⟨r, -, hr⟩ := Option.map_eq_some_iff.mp h
    obtain ⟨rfl, -⟩ := Prod.mk.inj hr
    exact ordered_string _
  · split at h
    · next r hmoment =>
      obtain rfl := Option.some.inj h
      exact readsOrdered_moment _ _ _ hmoment
    · exact readsOrdered_numeral _ _ _ h

section Nested

variable {item : List Char → Scan Value} {lines : Nat}

/-- Arrays of ordered items are read, by induction on the fuel. -/
theorem readsOrdered_itemsFrom (reads : ReadsOrdered item) (fuel : Nat) {read : List Value}
    (sofar : ∀ v ∈ read, v.Ordered) : ReadsOrdered (itemsFrom item lines fuel read) := by
  induction fuel generalizing read with
  | zero => exact fun s v rest h => nomatch h
  | succ fuel ih =>
      intro s v rest h
      rw [itemsFrom] at h
      split at h
      · exact nomatch h
      · obtain ⟨rfl, -⟩ := Prod.mk.inj (Option.some.inj h)
        exact Value.ordered_array.mpr fun w hw => sofar w (List.mem_reverse.mp hw)
      · split at h
        · exact nomatch h
        · next w more hitem =>
          have hall : ∀ x ∈ w :: read, x.Ordered :=
            List.forall_mem_cons.mpr ⟨reads _ _ _ hitem, sofar⟩
          split at h
          · exact ih hall _ _ _ h
          · obtain ⟨rfl, -⟩ := Prod.mk.inj (Option.some.inj h)
            exact Value.ordered_array.mpr fun x hx => hall x (List.mem_reverse.mp hx)
          · exact nomatch h

/-- The value behind a key is ordered. -/
theorem ordered_of_keyValue (reads : ReadsOrdered item) {s rest : List Char} {path : List String}
    {v : Value} (h : keyValue item s = some ((path, v), rest)) : v.Ordered := by
  rw [keyValue] at h
  split at h
  · exact nomatch h
  · obtain ⟨⟨w, more⟩, hitem, heq⟩ := Option.map_eq_some_iff.mp h
    obtain ⟨⟨-, rfl⟩, -⟩ := Prod.mk.inj heq |>.imp_left Prod.mk.inj
    exact reads _ _ _ hitem
  · exact nomatch h

/-- Tables between braces stay sound entry by entry, by induction on the fuel. -/
theorem readsOrdered_bracedFrom (reads : ReadsOrdered item) (fuel : Nat) {es : Entries}
    (sound : es.Sound) : ReadsOrdered (bracedFrom item fuel es) := by
  induction fuel generalizing es with
  | zero => exact fun s v rest h => nomatch h
  | succ fuel ih =>
      intro s v rest h
      rw [bracedFrom] at h
      split at h
      · exact nomatch h
      · next path w more hkey =>
        split at h
        · exact nomatch h
        · next es' hput =>
          have hsound : es'.Sound := sound.put (ordered_of_keyValue reads hkey) hput
          split at h
          · exact ih hsound _ _ _ h
          · obtain ⟨rfl, -⟩ := Prod.mk.inj (Option.some.inj h)
            exact ordered_entriesValue fun e he => (hsound e he).ordered
          · exact nomatch h

/-- A table between braces is read as an ordered value. -/
theorem readsOrdered_braced (reads : ReadsOrdered item) (fuel : Nat) :
    ReadsOrdered (braced item fuel) := by
  intro s v rest h
  rw [braced] at h
  split at h
  · obtain ⟨rfl, -⟩ := Prod.mk.inj (Option.some.inj h)
    exact Value.ordered_object.mpr ⟨List.Pairwise.nil, nofun⟩
  · exact readsOrdered_bracedFrom reads fuel .nil _ _ _ h

end Nested

/-- Values are read as ordered ones, by induction on the depth that is left. -/
theorem readsOrdered_value (fuel depth : Nat) : ReadsOrdered (value fuel depth) := by
  induction depth with
  | zero =>
      intro s v rest h
      unfold value at h
      split at h
      · exact nomatch h
      · exact nomatch h
      · next heq => exact nomatch heq
      · next heq => exact nomatch heq
      · exact readsOrdered_scalar _ _ _ h
  | succ depth ih =>
      intro s v rest h
      unfold value at h
      split at h
      · next heq => exact nomatch heq
      · next heq => exact nomatch heq
      · next heq =>
        obtain rfl := Nat.succ.inj heq
        exact readsOrdered_itemsFrom ih fuel (List.forall_mem_nil _) _ _ _ h
      · next heq =>
        obtain rfl := Nat.succ.inj heq
        exact readsOrdered_braced ih fuel _ _ _ h
      · exact readsOrdered_scalar _ _ _ h

/-! ## The lines of a document -/

section Lines

variable {d d' : Document} {fuel lines : Nat} {s rest : List Char}

/-- A line leaves a sound document. -/
theorem sound_of_line (sound : d.entries.Sound) (h : line fuel d s = some (d', rest)) :
    d'.entries.Sound := by
  unfold line at h
  split at h
  · rw [headerNext] at h
    split at h
    · obtain ⟨d₁, hhead, heq⟩ := Option.map_eq_some_iff.mp h
      obtain ⟨rfl, -⟩ := Prod.mk.inj heq
      obtain ⟨es, hes, rfl⟩ := Option.map_eq_some_iff.mp hhead
      exact sound.update (fun _ _ _ hsound hchange => hsound.headNext hchange) hes
    · exact nomatch h
  · rw [header] at h
    split at h
    · obtain ⟨d₁, hhead, heq⟩ := Option.map_eq_some_iff.mp h
      obtain ⟨rfl, -⟩ := Prod.mk.inj heq
      obtain ⟨es, hes, rfl⟩ := Option.map_eq_some_iff.mp hhead
      exact sound.update (fun _ _ _ hsound hchange => hsound.head hchange) hes
    · exact nomatch h
  · split at h
    · next path v more hkey =>
      have hordered := ordered_of_keyValue (readsOrdered_value fuel greatestDepth) hkey
      obtain ⟨d₁, hput, heq⟩ := Option.map_eq_some_iff.mp h
      obtain ⟨rfl, -⟩ := Prod.mk.inj heq
      obtain ⟨es, hes, rfl⟩ := Option.map_eq_some_iff.mp hput
      exact sound.update (fun _ _ _ hsound hchange => hsound.put hordered hchange) hes
    · exact nomatch h

/-- So do all lines together, by induction on the fuel. -/
theorem sound_of_linesFromTop (sound : d.entries.Sound)
    (h : linesFromTop lines fuel d s = some d') : d'.entries.Sound := by
  induction fuel generalizing d s with
  | zero => exact nomatch h
  | succ fuel ih =>
      rw [linesFromTop] at h
      split at h
      · exact nomatch h
      · obtain rfl := Option.some.inj h
        exact sound
      · split at h
        · exact nomatch h
        · next d₁ more hline =>
          obtain ⟨rest, -, hrest⟩ := Option.bind_eq_some_iff.mp h
          exact ih (sound_of_line sound hline) hrest

end Lines

/-- The value of a document is ordered: it is an object, and so is each of its
    tables, in which a key has one value. -/
theorem ordered_of_parse {text : String} {v : Value} (h : parse? text = some v) : v.Ordered := by
  obtain ⟨d, hd, rfl⟩ := Option.map_eq_some_iff.mp h
  have hsound : d.entries.Sound := sound_of_linesFromTop (d := ⟨[], []⟩) .nil hd
  exact ordered_entriesValue fun e he => (hsound e he).ordered

end BusWindow.Toml
