import BusWindow.Proofs.Scalars
import BusWindow.Proofs.Values

/-!
# Written values — the bytes of a value in a layout

    The writer appends to what is there already. Here the bytes of a value
    are told by the bytes of what is inside it, in either layout: brackets
    around the items, a comma and a gap between two of them, and gaps of
    nothing but space.
-/

namespace BusWindow.Json

open Utf8

/-- The space before an item, and before a closing bracket, at a level. -/
def Layout.gap (layout : Layout) (level : Nat) : Bytes := ofString (layout.lineBreak level)

/-- What stands between the name of a member and its value. -/
def Layout.colonBytes (layout : Layout) : Bytes := ofString layout.colon

/-- Between items there is white space only. -/
theorem gap_isSpace (layout : Layout) (level : Nat) : ∀ b ∈ layout.gap level, isSpace b = true := by
  cases layout with
  | compact => exact List.forall_mem_nil _
  | indented =>
      intro b hb
      rw [Layout.gap, Layout.lineBreak, ofString_ofList, encode_cons] at hb
      rcases List.mem_append.mp hb with hbreak | hspace
      · obtain rfl := List.mem_singleton.mp hbreak
        rfl
      · obtain ⟨c, hc, hb⟩ := List.mem_flatMap.mp hspace
        rw [List.eq_of_mem_replicate hc] at hb
        obtain rfl := List.mem_singleton.mp hb
        rfl

/-- The space between the colon of a member and its value. -/
def Layout.colonGap : Layout → Bytes
  | .compact => []
  | .indented => [0x20]

/-- Behind a name there is a colon. -/
theorem colonBytes_eq (layout : Layout) : layout.colonBytes = 0x3A :: layout.colonGap := by
  cases layout with
  | compact => rfl
  | indented => rfl

/-- Behind the colon there is white space only. -/
theorem colonGap_isSpace (layout : Layout) : ∀ b ∈ layout.colonGap, isSpace b = true := by
  cases layout with
  | compact => exact List.forall_mem_nil _
  | indented => exact List.forall_mem_singleton.mpr rfl

/-- A digit is neither space nor a bracket. -/
theorem begins_of_isDigit {b : UInt8} (h : isDigit b = true) :
    isSpace b = false ∧ b ≠ 0x5B ∧ b ≠ 0x5D ∧ b ≠ 0x7B := by
  simp only [isDigit, Bool.and_eq_true, decide_eq_true_eq, UInt8.le_iff_toNat_le,
    UInt8.reduceToNat] at h
  simp only [isSpace, ← UInt8.toNat_inj, Bool.or_eq_false_iff, beq_eq_false_iff_ne, ne_eq,
    UInt8.reduceToNat]
  omega

namespace Value

/-! ## The writer appends

    The equations of the writer hold by computation. -/

/-- An array is written between brackets, its first item without a comma. -/
theorem appendTo_array_cons (layout : Layout) (level : Nat) (out : String) (v : Value)
    (rest : List Value) :
    appendTo layout level out (.array (v :: rest))
      = appendItems layout (level + 1)
          (v.appendTo layout (level + 1) (out ++ "[" ++ layout.lineBreak (level + 1))) rest
        ++ layout.lineBreak level ++ "]" := rfl

/-- An object is written between braces, its first member without a comma. -/
theorem appendTo_object_cons (layout : Layout) (level : Nat) (out name : String) (v : Value)
    (rest : List (String × Value)) :
    appendTo layout level out (.object ((name, v) :: rest))
      = appendMembers layout (level + 1)
          (v.appendTo layout (level + 1) (out ++ "\x7b" ++ layout.lineBreak (level + 1)
            ++ stringText name ++ layout.colon)) rest
        ++ layout.lineBreak level ++ "\x7d" := rfl

theorem appendItems_nil (layout : Layout) (level : Nat) (out : String) :
    appendItems layout level out [] = out := rfl

/-- Each further item is written behind a comma. -/
theorem appendItems_cons (layout : Layout) (level : Nat) (out : String) (v : Value)
    (rest : List Value) :
    appendItems layout level out (v :: rest)
      = appendItems layout level
          (v.appendTo layout level (out ++ "," ++ layout.lineBreak level)) rest := rfl

theorem appendMembers_nil (layout : Layout) (level : Nat) (out : String) :
    appendMembers layout level out [] = out := rfl

/-- Each further member is written behind a comma. -/
theorem appendMembers_cons (layout : Layout) (level : Nat) (out name : String) (v : Value)
    (rest : List (String × Value)) :
    appendMembers layout level out ((name, v) :: rest)
      = appendMembers layout level
          (v.appendTo layout level (out ++ "," ++ layout.lineBreak level ++ stringText name
            ++ layout.colon)) rest := rfl

/-- Items are appended to whatever has been written, if each of them is. -/
theorem appendItems_out (layout : Layout) {items : List Value}
    (h : ∀ v ∈ items, ∀ level out, v.appendTo layout level out = out ++ v.appendTo layout level "")
    (level : Nat) (out : String) :
    appendItems layout level out items = out ++ appendItems layout level "" items := by
  induction items generalizing out with
  | nil => rw [appendItems_nil, appendItems_nil, String.append_empty]
  | cons v rest ih =>
      obtain ⟨hv, hrest⟩ := List.forall_mem_cons.mp h
      rw [appendItems_cons, appendItems_cons, ih hrest, ih hrest (v.appendTo layout level _), hv,
        hv level ("" ++ "," ++ layout.lineBreak level)]
      simp only [String.append_assoc, String.empty_append]

/-- Members are appended to whatever has been written, if each of their values
    is. -/
theorem appendMembers_out (layout : Layout) {members : List (String × Value)}
    (h : ∀ m ∈ members, ∀ level out,
      m.2.appendTo layout level out = out ++ m.2.appendTo layout level "")
    (level : Nat) (out : String) :
    appendMembers layout level out members = out ++ appendMembers layout level "" members := by
  induction members generalizing out with
  | nil => rw [appendMembers_nil, appendMembers_nil, String.append_empty]
  | cons m rest ih =>
      obtain ⟨name, v⟩ := m
      obtain ⟨hv, hrest⟩ := List.forall_mem_cons.mp h
      have hv : ∀ level out, v.appendTo layout level out = out ++ v.appendTo layout level "" := hv
      rw [appendMembers_cons, appendMembers_cons, ih hrest, ih hrest (v.appendTo layout level _),
        hv, hv level ("" ++ "," ++ layout.lineBreak level ++ stringText name ++ layout.colon)]
      simp only [String.append_assoc, String.empty_append]

/-- Whatever was written before a value stays in front of it. -/
theorem appendTo_out (layout : Layout) (v : Value) (level : Nat) (out : String) :
    v.appendTo layout level out = out ++ v.appendTo layout level "" := by
  induction v using Value.induct generalizing level out with
  | null => rfl
  | boolean b => cases b <;> rfl
  | number n => exact congrArg (out ++ ·) String.empty_append.symm
  | string s => exact congrArg (out ++ ·) String.empty_append.symm
  | array items ih =>
      cases items with
      | nil => rfl
      | cons v rest =>
          obtain ⟨hv, hrest⟩ := List.forall_mem_cons.mp ih
          rw [appendTo_array_cons, appendTo_array_cons, appendItems_out layout hrest,
            appendItems_out layout hrest _ (v.appendTo _ _ ("" ++ _ ++ _)), hv,
            hv _ ("" ++ _ ++ _)]
          simp only [String.append_assoc, String.empty_append]
  | object members ih =>
      cases members with
      | nil => rfl
      | cons m rest =>
          obtain ⟨name, v⟩ := m
          obtain ⟨hv, hrest⟩ := List.forall_mem_cons.mp ih
          have hv : ∀ level out, v.appendTo layout level out = out ++ v.appendTo layout level "" :=
            hv
          rw [appendTo_object_cons, appendTo_object_cons, appendMembers_out layout hrest,
            appendMembers_out layout hrest _ (v.appendTo _ _ ("" ++ _ ++ _ ++ _ ++ _)), hv,
            hv _ ("" ++ _ ++ _ ++ _ ++ _)]
          simp only [String.append_assoc, String.empty_append]

/-! ## The bytes of a value -/

/-- The bytes of a value that stands at a level. -/
def written (layout : Layout) (level : Nat) (v : Value) : Bytes :=
  ofString (v.appendTo layout level "")

/-- The bytes of a member that stands at a level. -/
def writtenMember (layout : Layout) (level : Nat) (m : String × Value) : Bytes :=
  0x22 :: (stringTail m.1 ++ (layout.colonBytes ++ m.2.written layout level))

variable {layout : Layout} {level : Nat}

/-- The compact form is one of the layouts. -/
theorem compactBytes_eq (v : Value) : v.compactBytes = v.written .compact 0 := rfl

/-- The bytes of the three literals. -/
theorem written_null : Value.null.written layout level = [0x6E, 0x75, 0x6C, 0x6C] := by
  show ofString ("" ++ "null") = _
  rw [String.empty_append]
  rfl

theorem written_true : (Value.boolean true).written layout level = [0x74, 0x72, 0x75, 0x65] := by
  show ofString ("" ++ "true") = _
  rw [String.empty_append]
  rfl

theorem written_false :
    (Value.boolean false).written layout level = [0x66, 0x61, 0x6C, 0x73, 0x65] := by
  show ofString ("" ++ "false") = _
  rw [String.empty_append]
  rfl

/-- A number is written by its text. -/
theorem written_number (n : Number) :
    (Value.number n).written layout level = ofString n.text := by
  show ofString ("" ++ n.text) = _
  rw [String.empty_append]

/-- A string is written between quotes. -/
theorem written_string (s : String) :
    (Value.string s).written layout level = 0x22 :: stringTail s := by
  show ofString ("" ++ stringText s) = _
  rw [String.empty_append, ofString_stringText]

/-- Items that come after others: a comma and a gap before each of them. -/
theorem ofString_appendItems (items : List Value) :
    ofString (appendItems layout level "" items)
      = items.flatMap fun v => 0x2C :: (layout.gap level ++ v.written layout level) := by
  induction items with
  | nil => rfl
  | cons v rest ih =>
      rw [appendItems_cons, appendItems_out layout fun v _ => appendTo_out layout v, appendTo_out,
        ofString_append, ofString_append, ofString_append, ofString_append, ih, List.flatMap_cons]
      rfl

/-- The bytes of further members, each behind a comma and a gap. -/
theorem ofString_appendMembers (members : List (String × Value)) :
    ofString (appendMembers layout level "" members)
      = members.flatMap fun m => 0x2C :: (layout.gap level ++ writtenMember layout level m) := by
  induction members with
  | nil => rfl
  | cons m rest ih =>
      obtain ⟨name, v⟩ := m
      rw [appendMembers_cons, appendMembers_out layout fun m _ => appendTo_out layout m.2,
        appendTo_out, List.flatMap_cons, ← ih]
      simp only [ofString_append, ofString_stringText, writtenMember, List.append_assoc,
        List.cons_append]
      rfl

/-- An empty array is written without a gap. -/
theorem written_array_nil : (Value.array []).written layout level = [0x5B, 0x5D] := by
  show ofString ("" ++ "[]") = _
  rw [String.empty_append]
  rfl

/-- The bytes of an array: its items with commas and gaps between them. -/
theorem written_array_cons (v : Value) (rest : List Value) :
    (Value.array (v :: rest)).written layout level
      = 0x5B :: (layout.gap (level + 1) ++ (v.written layout (level + 1)
          ++ ((rest.flatMap fun w =>
              0x2C :: (layout.gap (level + 1) ++ w.written layout (level + 1)))
            ++ (layout.gap level ++ [0x5D])))) := by
  rw [written, appendTo_array_cons, appendItems_out layout fun v _ => appendTo_out layout v,
    appendTo_out, ← ofString_appendItems]
  simp only [ofString_append, List.append_assoc]
  rfl

/-- An empty object is written without a gap. -/
theorem written_object_nil : (Value.object []).written layout level = [0x7B, 0x7D] := by
  show ofString ("" ++ "\x7b\x7d") = _
  rw [String.empty_append]
  rfl

/-- The bytes of an object: its members with commas and gaps between them. -/
theorem written_object_cons (m : String × Value) (rest : List (String × Value)) :
    (Value.object (m :: rest)).written layout level
      = 0x7B :: (layout.gap (level + 1) ++ (writtenMember layout (level + 1) m
          ++ ((rest.flatMap fun m =>
              0x2C :: (layout.gap (level + 1) ++ writtenMember layout (level + 1) m))
            ++ (layout.gap level ++ [0x7D])))) := by
  obtain ⟨name, v⟩ := m
  rw [written, appendTo_object_cons,
    appendMembers_out layout fun m _ => appendTo_out layout m.2, appendTo_out,
    ← ofString_appendMembers]
  simp only [ofString_append, ofString_stringText, writtenMember, List.append_assoc,
    List.cons_append]
  rfl

/-- The compact form has no gaps. -/
theorem gap_compact (level : Nat) : Layout.compact.gap level = [] := rfl

/-- The compact text of a value is the same at every level. -/
theorem written_compact (v : Value) (level : Nat) : v.written .compact level = v.compactBytes := by
  rw [compactBytes_eq]
  induction v using Value.induct generalizing level with
  | null => rw [written_null, written_null]
  | boolean b =>
      cases b with
      | true => rw [written_true, written_true]
      | false => rw [written_false, written_false]
  | number n => rw [written_number, written_number]
  | string s => rw [written_string, written_string]
  | array items ih =>
      cases items with
      | nil => rw [written_array_nil, written_array_nil]
      | cons v rest =>
          obtain ⟨hv, hrest⟩ := List.forall_mem_cons.mp ih
          have hitems (level : Nat) : (rest.flatMap fun w => 0x2C :: w.written .compact level)
              = rest.flatMap fun w => 0x2C :: w.written .compact 0 :=
            List.flatMap_congr fun w hw => congrArg _ (hrest w hw level)
          simp only [written_array_cons, gap_compact, List.nil_append, hv, hitems]
  | object members ih =>
      cases members with
      | nil => rw [written_object_nil, written_object_nil]
      | cons m rest =>
          have hmember (level : Nat) : ∀ m' ∈ m :: rest,
              writtenMember .compact level m' = writtenMember .compact 0 m' := by
            intro m' hm'
            rw [writtenMember, ih m' hm', writtenMember]
          have hmembers (level : Nat) :
              (rest.flatMap fun m => 0x2C :: writtenMember .compact level m)
                = rest.flatMap fun m => 0x2C :: writtenMember .compact 0 m :=
            List.flatMap_congr fun m' hm' =>
              congrArg _ (hmember level m' (List.mem_cons_of_mem _ hm'))
          simp only [written_object_cons, gap_compact, List.nil_append, hmembers,
            hmember _ m List.mem_cons_self]

/-- A natural number is written in digits. -/
theorem ofString_natural (n : UInt64) :
    ofString (Number.natural n).text = encode (Nat.toDigits 10 n.toNat) := by
  rw [Number.text, ofString, Nat.toString_eq_repr, Nat.toList_repr]

/-- A negative number is written in digits behind a minus sign. -/
theorem ofString_negative (m : Fin 0x8000000000000000) :
    ofString (Number.negative m).text = 0x2D :: encode (Nat.toDigits 10 (m.val + 1)) := by
  rw [Number.text, ofString_append, Nat.toString_eq_repr]
  show 0x2D :: encode (Nat.repr (m.val + 1)).toList = _
  rw [Nat.toList_repr]

/-- An exact value begins with a byte that is neither space nor a closing
    bracket. -/
theorem written_head {v : Value} (exact : v.isExact = true) :
    ∃ b more, v.written layout level = b :: more ∧ isSpace b = false ∧ b ≠ 0x5D := by
  cases v with
  | null => exact ⟨0x6E, _, written_null, rfl, by decide⟩
  | boolean b =>
      cases b with
      | true => exact ⟨0x74, _, written_true, rfl, by decide⟩
      | false => exact ⟨0x66, _, written_false, rfl, by decide⟩
  | number n =>
      rw [written_number]
      cases n with
      | natural n =>
          obtain ⟨b, more, heq, hdigit⟩ := encode_toDigits_head n.toNat
          obtain ⟨hspace, -, hclose, -⟩ := begins_of_isDigit hdigit
          exact ⟨b, more, (ofString_natural n).trans heq, hspace, hclose⟩
      | negative m => exact ⟨0x2D, _, ofString_negative m, rfl, by decide⟩
      | double x => exact absurd exact (by simp [isExact, parts, isDouble])
  | string s => exact ⟨0x22, _, written_string s, rfl, by decide⟩
  | array items =>
      cases items with
      | nil => exact ⟨0x5B, _, written_array_nil, rfl, by decide⟩
      | cons v rest => exact ⟨0x5B, _, written_array_cons v rest, rfl, by decide⟩
  | object members =>
      cases members with
      | nil => exact ⟨0x7B, _, written_object_nil, rfl, by decide⟩
      | cons m rest => exact ⟨0x7B, _, written_object_cons m rest, rfl, by decide⟩

end Value

end BusWindow.Json
