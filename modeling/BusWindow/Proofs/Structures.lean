import BusWindow.Message.Reader
import BusWindow.Proofs.RoundTrip
import BusWindow.Proofs.Times

/-!
# Structures — typed readings take what was written

    A reading into a type of the program takes the text of a value that
    stands for what it reads: plain values by what they are taken for, lists
    and maps by their items, structures field by field into a draft that ends
    with nothing missing. The fields come by their names from an object
    (`reads_structAs`) or in their order from an array
    (`reads_structAs_array`).

    The other way round, whatever every field keeps is kept by the structure
    (`invariant_of_structAs`), in whichever of its two forms it was written.
-/

namespace BusWindow.Json

variable {α β σ : Type} {layout : Layout} {level fuel depth : Nat}

/-- What was read may be put into another form. -/
theorem Reads.map {item : Bytes → Reading α} {a : α} {text : Bytes} (h : Reads item a text)
    (f : α → β) : Reads (fun s => (item s).map fun r => (f r.1, r.2)) (f a) text := by
  intro gap rest hgap ends
  show (item (gap ++ (text ++ rest))).map _ = _
  rw [h gap rest hgap ends]
  rfl

/-! ## Plain values -/

theorem ordered_of_flat {v : Value} (flat : v.nesting = 0) : v.Ordered := by
  cases v with
  | array items => exact absurd flat (Nat.succ_ne_zero _)
  | object members => exact absurd flat (Nat.succ_ne_zero _)
  | _ => exact List.forall_mem_singleton.mpr trivial

/-- A value without brackets is read as a plain one. -/
theorem plainAs_of_value {expected : String} {taken : Taken α} {s rest : Bytes} {v : Value} {a : α}
    (read : value fuel 0 s = .ok (v, rest)) (taken_eq : taken v = .ok a) :
    plainAs expected taken s = .ok (a, rest) := by
  rw [value.eq_def] at read
  split at read
  · exact nomatch read
  · exact nomatch read
  · next heq => exact nomatch heq
  · next heq => exact nomatch heq
  · next harray hobject _ _ =>
    rw [plainAs]
    split
    · next heq => exact absurd heq (harray _ · rfl)
    · next heq => exact absurd heq (hobject _ · rfl)
    · rw [scalarAs, read]
      simp only [taken_eq]

/-- A plain value is read by what it is taken for. -/
theorem reads_plainAs {expected : String} {taken : Taken α} {v : Value} {a : α}
    (exact : v.isExact = true) (flat : v.nesting = 0) (taken_eq : taken v = .ok a) :
    Reads (plainAs expected taken) a (v.written layout level) := by
  intro gap rest hgap ends
  have hread : Reads (value (v.written layout level).length 0) v (v.written layout level) :=
    reads_written layout exact (ordered_of_flat flat) (Nat.le_of_eq flat) (Nat.le_refl _)
  exact plainAs_of_value (hread gap rest hgap ends) taken_eq

theorem isExact_ofInt (i : Int) : (Value.ofInt i).isExact = true := by
  cases i <;> rfl

theorem nesting_ofInt (i : Int) : (Value.ofInt i).nesting = 0 := by
  cases i <;> rfl

/-- The number of an integer of 64 bits denotes that integer. -/
theorem ofInt_eq {i : Int} (least : -0x8000000000000000 ≤ i) (greatest : i < Number.naturalBound) :
    ∃ n : Number, Value.ofInt i = .number n ∧ n.toInt? = some i := by
  cases i with
  | ofNat n =>
      have hlt : n < 2 ^ 64 := by
        simpa [Number.naturalBound] using greatest
      refine ⟨.ofNat n, rfl, ?_⟩
      rw [Number.ofNat, Number.toInt?, UInt64.toNat_ofNat_of_lt' hlt]
      rfl
  | negSucc m =>
      have hlt : m < 0x8000000000000000 := by omega
      refine ⟨.negative (Fin.ofNat 0x8000000000000000 m), rfl, ?_⟩
      have hval : (Fin.ofNat 0x8000000000000000 m).val = m := Nat.mod_eq_of_lt hlt
      rw [Number.toInt?, hval]
      rfl

theorem takeInt_ofInt {i low high : Int} (least : -0x8000000000000000 ≤ i)
    (greatest : i < Number.naturalBound) (hlow : low ≤ i) (hhigh : i ≤ high) (expected : String) :
    takeInt low high expected (.ofInt i) = .ok i := by
  obtain ⟨n, hn, hi⟩ := ofInt_eq least greatest
  exact takeInt_ok_iff.mpr ⟨n, hn, hi, hlow, hhigh⟩

/-- A sequence number or a count of messages is read as it was written. -/
theorem reads_seqAs {i : Int} (least : -0x8000000000000000 ≤ i) (greatest : i ≤ greatestSeq) :
    Reads seqAs i ((Value.ofInt i).written layout level) := by
  have hbelow : i < Number.naturalBound := by
    rw [greatestSeq] at greatest
    rw [Number.naturalBound]
    omega
  exact reads_plainAs (isExact_ofInt i) (nesting_ofInt i)
    (takeInt_ofInt least hbelow least greatest _)

/-- A natural number is read as it was written, if it is below the bound of
    what is read and fits 64 bits. -/
theorem reads_natAs {n bound : Nat} (below : n < bound) (fits : n < Number.naturalBound)
    (expected : String) :
    Reads (natAs bound expected) n ((Value.ofNat n).written layout level) := by
  have hlow : (0 : Int) ≤ n := Int.natCast_nonneg n
  have htake : takeInt 0 (bound - 1) expected (.ofNat n) = .ok (n : Int) :=
    takeInt_ofInt (Int.le_trans (by decide) hlow) (by omega) hlow (by omega) expected
  exact reads_plainAs (isExact_ofInt n) (nesting_ofInt n) (takeNat_ok_iff_takeInt.mpr htake)

/-- A count of things in memory is read as it was written. -/
theorem reads_countAs {n : Nat} (below : n < Number.naturalBound) :
    Reads countAs n ((Value.ofNat n).written layout level) :=
  reads_natAs below below "usize"

theorem reads_textAs (s : String) : Reads textAs s ((Value.string s).written layout level) :=
  reads_plainAs rfl rfl rfl

/-- A timestamp is read as it was written, in the years from 0 to 9999 and
    outside of leap seconds. -/
theorem reads_timeAs {t : Timestamp} (low : 0 ≤ t.date.year) (high : t.date.year ≤ 9999)
    (below : t.nanos < 1000000000) :
    Reads timeAs t ((Value.string t.text).written layout level) := by
  refine reads_plainAs rfl rfl ?_
  rw [takeTime, Timestamp.ofString_text low high below]

/-! ## Lists and maps -/

theorem listAs_array {item : Nat → Bytes → Reading α} {s more : Bytes}
    (h : skipSpace s = 0x5B :: more) :
    listAs fuel (depth + 1) item s = itemsFrom (item depth) fuel [] more := by
  unfold listAs
  rw [h]
  rfl

theorem mapAs_object {item : Nat → Bytes → Reading α} {s more : Bytes}
    (h : skipSpace s = 0x7B :: more) :
    mapAs fuel (depth + 1) item s = membersFrom (mapMember (item depth)) fuel true [] more := by
  unfold mapAs
  rw [h]
  rfl

/-- A list is read if its items are. -/
theorem reads_listAs {item : Nat → Bytes → Reading α} (form : α → Value) {items : List α}
    (begins : ∀ a ∈ items, BeginsItem ((form a).written layout (level + 1)))
    (reads : ∀ a ∈ items, Reads (item depth) a ((form a).written layout (level + 1)))
    (enough : ((Value.array (items.map form)).written layout level).length ≤ fuel) :
    Reads (listAs fuel (depth + 1) item) items
      ((Value.array (items.map form)).written layout level) := by
  intro gap rest hgap _
  obtain ⟨more, htext, hitems⟩ := itemsFrom_array form begins reads enough
  rw [htext, List.cons_append, listAs_array (skipSpace_gap_cons hgap (by decide) _), hitems]

/-- A map is read if its values are. -/
theorem reads_mapAs {item : Nat → Bytes → Reading α} (form : α → Value)
    {members : List (String × α)} (sorted : SortedMap.Sorted members)
    (reads : ∀ m ∈ members, Reads (item depth) m.2 ((form m.2).written layout (level + 1)))
    (enough : ((Value.object (members.map fun m => (m.1, form m.2))).written layout level).length
      ≤ fuel) :
    Reads (mapAs fuel (depth + 1) item) members
      ((Value.object (members.map fun m => (m.1, form m.2))).written layout level) := by
  intro gap rest hgap _
  have htakes : Takes (mapMember (item depth))
      (entries layout (level + 1) (members.map fun m => (m.1, form m.2))) [] members :=
    takes_map form reads sorted
  obtain ⟨more, htext, hmembers⟩ := membersFrom_object htakes enough
  rw [htext, List.cons_append, mapAs_object (skipSpace_gap_cons hgap (by decide) _), hmembers]

/-- The members of an object are read as a map. -/
theorem reads_members {members : Members} (exact : ∀ m ∈ members, m.2.isExact = true)
    (ordered : (Value.object members).Ordered) (nesting : ∀ m ∈ members, m.2.nesting ≤ depth)
    (enough : ((Value.object members).written layout level).length ≤ fuel) :
    Reads (mapAs fuel (depth + 1) (value fuel)) members
      ((Value.object members).written layout level) := by
  obtain ⟨hsorted, hordered⟩ := Value.ordered_object.mp ordered
  have hvalues (m : String × Value) (hm : m ∈ members) :
      Reads (value fuel depth) m.2 (m.2.written layout (level + 1)) :=
    reads_written layout (exact m hm) (hordered m hm) (nesting m hm) (length_member_le enough hm)
  have hread := @reads_mapAs _ layout level fuel depth _ id _ hsorted hvalues
  have hform : members.map (fun m => (m.1, id m.2)) = members := List.map_id _
  rw [hform] at hread
  exact hread enough

/-! ## Structures -/

/-- A member is read by the field of its name, which the draft does not have
    yet. -/
theorem fieldMember_known {fields : List (Field σ)} {f : Field σ} {e : Entry} {draft next : σ}
    (found : (fields.find? fun g => g.name == e.name) = some f) (absent : f.present draft = false)
    (reads : Reads (f.read draft) next e.text) {rest : Bytes} (ends : EndsNumber rest) :
    fieldMember fuel fields e.name draft (e.tail rest) = .ok (next, rest) := by
  rw [fieldMember, found]
  simp only [absent, e.colon_tail, reads e.gap rest e.gap_isSpace ends]
  rfl

/-- A field that the draft does not have yet is put into it. -/
theorem fieldMember_field {fields : List (Field σ)} {e : Entry} {required : Bool}
    {get : σ → Option α} {put : σ → α → σ} {read : Bytes → Reading α} {a : α} {draft : σ}
    (found : (fields.find? fun g => g.name == e.name)
      = some (field e.name required get put read))
    (absent : get draft = none) (reads : Reads read a e.text) {rest : Bytes}
    (ends : EndsNumber rest) :
    fieldMember fuel fields e.name draft (e.tail rest) = .ok (put draft a, rest) := by
  have hpresent : (field e.name required get put read).present draft = false := by
    show (get draft).isSome = false
    rw [absent]
    rfl
  exact fieldMember_known found hpresent (reads.map (put draft)) ends

/-- A field of a written object goes into the draft, and the others after
    it. -/
theorem takes_field {fields : List (Field σ)} {name : String} {required : Bool}
    {get : σ → Option α} {put : σ → α → σ} {read : Bytes → Reading α} {a : α} {v : Value}
    {more : List (String × Value)} {draft final : σ}
    (found : (fields.find? fun g => g.name == name) = some (field name required get put read))
    (absent : get draft = none) (reads : Reads read a (v.written layout level))
    (takes : Takes (fieldMember fuel fields) (entries layout level more) (put draft a) final) :
    Takes (fieldMember fuel fields) (entries layout level ((name, v) :: more)) draft final :=
  .cons (fun _ => fieldMember_field (e := Entry.written layout level (name, v)) found absent reads)
    takes

theorem structAs_object {name : String} {fields : Nat → List (Field σ)} {draft final : σ}
    {s more rest : Bytes} (h : skipSpace s = 0x7B :: more)
    (members : membersFrom (fieldMember fuel (fields depth)) fuel true draft more
      = .ok (final, rest))
    (complete : missing? (fields depth) final = none) :
    structAs name fields draft fuel (depth + 1) s = .ok (final, rest) := by
  unfold structAs
  rw [h]
  simp only [members, complete]

/-- A structure is read if its members are taken one after the other into a
    draft in which nothing is missing. -/
theorem reads_structAs_entries {name : String} {fields : Nat → List (Field σ)} {draft final : σ}
    {entries : List Entry} {last : Bytes} (hlast : ∀ b ∈ last, isSpace b = true)
    (takes : Takes (fieldMember fuel (fields depth)) entries draft final)
    (complete : missing? (fields depth) final = none) (enough : entries.length < fuel) :
    Reads (structAs name fields draft fuel (depth + 1)) final
      (0x7B :: (separated entries ++ (last ++ [0x7D]))) := by
  intro gap rest hgap _
  rw [List.cons_append, List.append_assoc, List.append_assoc]
  exact structAs_object (skipSpace_gap_cons hgap (by decide) _)
    (membersFrom_separated hlast takes enough rest) complete

theorem reads_structAs {name : String} {fields : Nat → List (Field σ)} {draft final : σ}
    {members : List (String × Value)}
    (takes : Takes (fieldMember fuel (fields depth)) (entries layout (level + 1) members) draft
      final)
    (complete : missing? (fields depth) final = none)
    (enough : ((Value.object members).written layout level).length ≤ fuel) :
    Reads (structAs name fields draft fuel (depth + 1)) final
      ((Value.object members).written layout level) := by
  obtain ⟨last, hlast, htext⟩ := @written_object_eq layout level members
  have hcount := length_le_separated (entries layout (level + 1) members)
  rw [htext] at enough ⊢
  simp only [List.length_cons, List.length_append, List.length_nil] at enough
  exact reads_structAs_entries hlast takes complete (by omega)

/-- Texts are read by fields in their order, each into the draft that the one
    before it left. No field that is left over is required. -/
inductive Fills : List (Field σ) → List Bytes → σ → σ → Prop
  | nil {fields : List (Field σ)} (optional : ∀ f ∈ fields, f.required = false) (draft : σ) :
      Fills fields [] draft draft
  | cons {f : Field σ} {fields : List (Field σ)} {text : Bytes} {texts : List Bytes}
      {draft next final : σ} (begins : BeginsItem text) (reads : Reads (f.read draft) next text)
      (fills : Fills fields texts next final) : Fills (f :: fields) (text :: texts) draft final

/-- A text is read by a field and put into the draft. -/
theorem fills_field {name : String} {required : Bool} {get : σ → Option α} {put : σ → α → σ}
    {read : Bytes → Reading α} {a : α} {fields : List (Field σ)} {text : Bytes}
    {texts : List Bytes} {draft final : σ} (begins : BeginsItem text) (reads : Reads read a text)
    (fills : Fills fields texts (put draft a) final) :
    Fills (field name required get put read :: fields) (text :: texts) draft final :=
  .cons begins (reads.map (put draft)) fills

theorem firstRequired_eq_none {fields : List (Field σ)} (h : ∀ f ∈ fields, f.required = false)
    (index : Nat) : firstRequired index fields = none := by
  induction fields generalizing index with
  | nil => rfl
  | cons f fields ih =>
      obtain ⟨hf, hfields⟩ := List.forall_mem_cons.mp h
      rw [firstRequired, hf, if_neg Bool.false_ne_true, ih hfields]

section Elements

variable {name : String} {count index : Nat} {fields : List (Field σ)} {texts : List Bytes}
  {draft final : σ} {gap last : Bytes} (hgap : ∀ b ∈ gap, isSpace b = true)
  (hlast : ∀ b ∈ last, isSpace b = true)

include hlast

/-- An array may end where no field that is left over is required. -/
theorem elementsFrom_close (optional : ∀ f ∈ fields, f.required = false) (rest : Bytes) :
    elementsFrom name count index fields draft (last ++ 0x5D :: rest) = .ok (draft, rest) := by
  cases fields with
  | nil =>
      rw [elementsFrom, endArray, skipSpace_gap_cons hlast (by decide)]
      rfl
  | cons f fields =>
      rw [elementsFrom, nextItem_close hlast]
      simp only [firstRequired_eq_none optional]

include hgap

/-- Fields after the first one are read up to the closing bracket. -/
theorem elementsFrom_more (fills : Fills fields texts draft final) (behind : index ≠ 0)
    (rest : Bytes) :
    elementsFrom name count index fields draft
        ((texts.flatMap fun text => 0x2C :: (gap ++ text)) ++ (last ++ 0x5D :: rest))
      = .ok (final, rest) := by
  induction fills generalizing index with
  | nil optional draft => exact elementsFrom_close hlast optional rest
  | @cons f fields text texts draft next final begins reads fills ih =>
      have hnotFirst : (index == 0) = false := beq_eq_false_iff_ne.mpr behind
      have hread := reads [] _ (List.forall_mem_nil _)
        (endsNumber_more texts (fun text => gap ++ text) 0x5D (by decide) rest hlast)
      rw [List.nil_append] at hread
      rw [List.flatMap_cons, List.cons_append, List.cons_append, List.append_assoc,
        List.append_assoc, elementsFrom, hnotFirst, nextItem_comma hgap begins]
      simp only [hread]
      exact ih (Nat.succ_ne_zero index)

/-- The fields of an array are read up to its closing bracket. -/
theorem elementsFrom_first {text : Bytes} (fills : Fills fields (text :: texts) draft final)
    (rest : Bytes) :
    elementsFrom name count 0 fields draft
        (gap ++ (text ++ ((texts.flatMap fun text => 0x2C :: (gap ++ text))
          ++ (last ++ 0x5D :: rest))))
      = .ok (final, rest) := by
  cases fills with
  | cons begins reads fills =>
      have hread := reads [] _ (List.forall_mem_nil _)
        (endsNumber_more texts (fun text => gap ++ text) 0x5D (by decide) rest hlast)
      rw [List.nil_append] at hread
      rw [elementsFrom, beq_self_eq_true, nextItem_first hgap begins]
      simp only [hread]
      exact elementsFrom_more hgap hlast fills Nat.one_ne_zero rest

end Elements

theorem structAs_array {name : String} {fields : Nat → List (Field σ)} {draft : σ}
    {s more : Bytes} (h : skipSpace s = 0x5B :: more) :
    structAs name fields draft fuel (depth + 1) s
      = elementsFrom name (fields depth).length 0 (fields depth) draft more := by
  unfold structAs
  rw [h]
  rfl

/-- A structure is read from an array of the values of its fields in their
    order. -/
theorem reads_structAs_array {name : String} {fields : Nat → List (Field σ)} {draft final : σ}
    {v : Value} {values : List Value}
    (fills : Fills (fields depth) ((v :: values).map (Value.written layout (level + 1))) draft
      final) :
    Reads (structAs name fields draft fuel (depth + 1)) final
      ((Value.array (v :: values)).written layout level) := by
  intro gap rest hgap _
  have htexts : (values.flatMap fun w =>
        0x2C :: (layout.gap (level + 1) ++ w.written layout (level + 1)))
      = (values.map (Value.written layout (level + 1))).flatMap fun text =>
          0x2C :: (layout.gap (level + 1) ++ text) := by
    rw [List.flatMap_map]
  rw [Value.written_array_cons, htexts, List.cons_append,
    structAs_array (skipSpace_gap_cons hgap (by decide) _)]
  simp only [List.append_assoc, List.cons_append, List.nil_append]
  exact elementsFrom_first (gap_isSpace layout (level + 1)) (gap_isSpace layout level) fills rest

/-! ## What was read -/

theorem plainAs_ok {expected : String} {taken : Taken α} {s rest : Bytes} {a : α}
    (h : plainAs expected taken s = .ok (a, rest)) : ∃ v, taken v = .ok a := by
  have hscalar {s : Bytes} (h : scalarAs taken s = .ok (a, rest)) : ∃ v, taken v = .ok a := by
    rw [scalarAs] at h
    split at h
    · exact nomatch h
    · split at h
      · next heq =>
        obtain ⟨rfl, -⟩ := Prod.mk.inj (Except.ok.inj h)
        exact ⟨_, heq⟩
      · exact nomatch h
  rw [plainAs] at h
  split at h
  · exact nomatch h
  · exact nomatch h
  · exact hscalar h

/-- Nothing is read where nothing is taken. -/
theorem scalarAs_refuse_ne_ok {expected : String} {s : Bytes} {r : α × Bytes} :
    scalarAs (refuse expected) s ≠ .ok r := by
  intro h
  rw [scalarAs] at h
  split at h
  · exact nomatch h
  · exact nomatch h

theorem takeInt_bounds {low high i : Int} {expected : String} {v : Value}
    (h : takeInt low high expected v = .ok i) : low ≤ i ∧ i ≤ high := by
  obtain ⟨-, -, -, hbounds⟩ := takeInt_ok_iff.mp h
  exact hbounds

theorem seqAs_bounds {s rest : Bytes} {i : Int} (h : seqAs s = .ok (i, rest)) :
    -0x8000000000000000 ≤ i ∧ i ≤ greatestSeq := by
  obtain ⟨v, hv⟩ := plainAs_ok h
  exact takeInt_bounds hv

theorem countAs_lt {s rest : Bytes} {n : Nat} (h : countAs s = .ok (n, rest)) :
    n < Number.naturalBound := by
  obtain ⟨v, hv⟩ := plainAs_ok h
  obtain ⟨-, hhigh⟩ := takeInt_bounds (takeNat_ok_iff_takeInt.mp hv)
  omega

/-- What holds of everything that an item reading gives holds of the items of
    a list. -/
theorem forall_of_listAs {item : Nat → Bytes → Reading α} {p : α → Prop}
    (hitem : ∀ d s a rest, depth = d + 1 → item d s = .ok (a, rest) → p a) {s rest : Bytes}
    {items : List α} (h : listAs fuel depth item s = .ok (items, rest)) : ∀ a ∈ items, p a := by
  unfold listAs at h
  split at h
  · exact nomatch h
  · exact forall_of_itemsFrom (fun s a rest hread => hitem _ s a rest rfl hread)
      (List.forall_mem_nil _) h
  · exact nomatch h
  · exact absurd h scalarAs_refuse_ne_ok

/-- A map that was read ascends, and what holds of every value that is read
    holds of its values. -/
theorem sorted_of_mapAs {item : Nat → Bytes → Reading α} {p : α → Prop}
    (hitem : ∀ d s a rest, depth = d + 1 → item d s = .ok (a, rest) → p a) {s rest : Bytes}
    {members : List (String × α)} (h : mapAs fuel depth item s = .ok (members, rest)) :
    SortedMap.Sorted members ∧ ∀ m ∈ members, p m.2 := by
  unfold mapAs at h
  split at h
  · exact nomatch h
  · exact sorted_of_membersFrom (fun s a rest hread => hitem _ s a rest rfl hread) h
  · exact nomatch h
  · exact absurd h scalarAs_refuse_ne_ok

/-- The members of an object that was read as a map are in order, and leave
    one level for it. -/
theorem ordered_of_mapAs {s rest : Bytes} {members : Members}
    (h : mapAs fuel (depth + 1) (value fuel) s = .ok (members, rest)) :
    (Value.object members).Ordered ∧ ∀ m ∈ members, m.2.nesting ≤ depth := by
  obtain ⟨hsorted, hall⟩ := sorted_of_mapAs (p := fun v => v.Ordered ∧ v.nesting ≤ depth)
    (fun d _ _ _ hd hread => Nat.succ.inj hd ▸ ordered_of_value hread) h
  exact ⟨Value.ordered_object.mpr ⟨hsorted, fun m hm => (hall m hm).1⟩, fun m hm => (hall m hm).2⟩

/-- What a field puts into a draft has been read. -/
theorem field_read_ok {name : String} {required : Bool} {get : σ → Option α} {put : σ → α → σ}
    {read : Bytes → Reading α} {draft next : σ} {s rest : Bytes}
    (h : (field name required get put read).read draft s = .ok (next, rest)) :
    ∃ a, read s = .ok (a, rest) ∧ next = put draft a := by
  obtain ⟨⟨a, rest'⟩, hread, heq⟩ := map_eq_ok h
  obtain ⟨rfl, rfl⟩ := Prod.mk.inj heq
  exact ⟨a, hread, rfl⟩

section Invariant

variable {p : σ → Prop} {fields : List (Field σ)}
  (hfields : ∀ f ∈ fields, ∀ draft s next rest, p draft → f.read draft s = .ok (next, rest) →
    p next)

include hfields

/-- What every field keeps is kept by a member, whether it is a field's or
    passed over. -/
theorem invariant_of_fieldMember {name : String} {draft next : σ} {s rest : Bytes}
    (hdraft : p draft) (h : fieldMember fuel fields name draft s = .ok (next, rest)) : p next := by
  rw [fieldMember] at h
  split at h
  · next f hfound =>
    split at h
    · unfold duplicate at h
      split at h <;> exact nomatch h
    · split at h
      · exact nomatch h
      · exact hfields f (List.mem_of_find?_eq_some hfound) _ _ _ _ hdraft h
  · split at h
    · exact nomatch h
    · obtain ⟨_, -, heq⟩ := map_eq_ok h
      obtain ⟨rfl, -⟩ := Prod.mk.inj heq
      exact hdraft

/-- What every field keeps is kept by the items of an array. -/
theorem invariant_of_elementsFrom {name : String} {count index : Nat} {draft final : σ}
    {s rest : Bytes} (hdraft : p draft)
    (h : elementsFrom name count index fields draft s = .ok (final, rest)) : p final := by
  induction fields generalizing index draft s with
  | nil =>
      obtain ⟨_, -, heq⟩ := map_eq_ok h
      obtain ⟨rfl, -⟩ := Prod.mk.inj heq
      exact hdraft
  | cons f fields ih =>
      obtain ⟨hfield, hmore⟩ := List.forall_mem_cons.mp hfields
      rw [elementsFrom] at h
      split at h
      · exact nomatch h
      · split at h
        · exact nomatch h
        · obtain ⟨rfl, -⟩ := Prod.mk.inj (Except.ok.inj h)
          exact hdraft
      · split at h
        · exact nomatch h
        · next hread => exact ih hmore (hfield _ _ _ _ hdraft hread) h

end Invariant

/-- What every field keeps is kept by a structure, written as an object or as
    an array. -/
theorem invariant_of_structAs {p : σ → Prop} {name : String} {fields : Nat → List (Field σ)}
    (hfields : ∀ d, depth = d + 1 → ∀ f ∈ fields d, ∀ draft s next rest, p draft →
      f.read draft s = .ok (next, rest) → p next)
    {draft final : σ} {s rest : Bytes} (hdraft : p draft)
    (h : structAs name fields draft fuel depth s = .ok (final, rest)) : p final := by
  unfold structAs at h
  split at h
  · exact nomatch h
  · exact nomatch h
  · exact invariant_of_elementsFrom (hfields _ rfl) hdraft h
  · split at h
    · exact nomatch h
    · next hmembers =>
      have hkept := invariant_of_membersFrom
        (fun _ _ _ _ _ hread hmember => invariant_of_fieldMember (hfields _ rfl) hread hmember)
        hdraft hmembers
      split at h
      · exact nomatch h
      · obtain ⟨rfl, -⟩ := Prod.mk.inj (Except.ok.inj h)
        exact hkept
  · exact absurd h scalarAs_refuse_ne_ok

end BusWindow.Json
