import BusWindow.Proofs.Skipping
import BusWindow.Proofs.Structures

/-!
# Records — every spelling of a record reads back as the record

    A record is written as an object with its four fields in a fixed order.
    It is read from any object with these fields, in whatever order they
    come and however their names are spelled, with anything well-formed
    between them, and from an array of the fields. Headers and a sender that
    are left out are read as none.

    * `fieldMember_unknown` passes over a member that no field asks for;
    * `takes_entries` reads members in any order: what the draft holds
      depends only on the names that have been seen;
    * `parse_spelled` is the whole statement.
-/

namespace BusWindow

open Json

namespace Json

variable {σ : Type} {fuel : Nat}

/-- The text of an object with some members, and space before its brace. -/
def objectText (entries : List Entry) (last : Bytes) : Bytes :=
  0x7B :: (separated entries ++ (last ++ [0x7D]))

/-- A member that no field asks for is passed over. -/
theorem fieldMember_unknown {fields : List (Field σ)} {e : Entry} {draft : σ}
    (unknown : (fields.find? fun f => f.name == e.name) = none) (form : WellFormed .value e.text)
    (enough : e.text.length ≤ fuel) {rest : Bytes} (ends : EndsNumber rest) :
    fieldMember fuel fields e.name draft (e.tail rest) = .ok (draft, rest) := by
  rw [fieldMember, unknown]
  simp only [e.colon_tail, reads_skipValue form enough e.gap rest e.gap_isSpace ends]
  rfl

/-- Fuel for the bytes of some members is fuel for those of each value in
    them. -/
theorem length_text_le {entries : List Entry} {e : Entry} (h : e ∈ entries) :
    e.text.length ≤ (separated entries).length := by
  have hbytes : e.text.length ≤ e.bytes.length := by
    simp only [Entry.bytes, Entry.tail, List.length_append, List.length_cons]
    omega
  cases entries with
  | nil => exact absurd h List.not_mem_nil
  | cons f more =>
      obtain ⟨-, heach⟩ := length_le_of_commas Entry.bytes more
      rw [separated, List.length_append]
      rcases List.mem_cons.mp h with rfl | hmore
      · omega
      · have hle := heach e hmore
        omega

end Json

namespace Record

variable {layout : Layout} {level fuel : Nat} {r : Record}

/-! ## The fields of a record -/

/-- The names of the fields. -/
def fieldNames : List String := ["body", "routing_key", "headers", "sender"]

/-- Whether a name is that of a field. -/
def isField (name : String) : Bool := fieldNames.contains name

/-- The fields of a record in the order in which they are written, with its
    headers and its sender or without. -/
def members (r : Record) (withHeaders withSender : Bool) : Members :=
  [("body", bytesForm r.body), ("routing_key", .string r.routingKey)]
    ++ ((if withHeaders then [("headers", .object r.headers)] else [])
      ++ if withSender then [("sender", .string r.sender)] else [])

/-- A record of which the headers, or the sender, may have been left out. -/
def kept (r : Record) (withHeaders withSender : Bool) : Record :=
  ⟨r.body, r.routingKey, if withHeaders then r.headers else [],
    if withSender then r.sender else ""⟩

/-- A record whose headers are in order, hold no double and leave room for the
    two levels around them. -/
structure Plain (r : Record) : Prop where
  ordered : (Value.object r.headers).Ordered
  exact : ∀ m ∈ r.headers, m.2.isExact = true
  nesting : ∀ m ∈ r.headers, m.2.nesting ≤ 125

/-- What is in the draft when the fields of some names have been read. -/
def draft (r : Record) (seen : String → Bool) : Draft :=
  ⟨if seen "body" then some r.body else none,
    if seen "routing_key" then some r.routingKey else none,
    if seen "headers" then some r.headers else none,
    if seen "sender" then some r.sender else none⟩

/-- Only the names of fields count. -/
theorem draft_congr (r : Record) {seen seen' : String → Bool}
    (h : ∀ name, isField name = true → seen name = seen' name) : r.draft seen = r.draft seen' := by
  rw [draft, h "body" rfl, h "routing_key" rfl, h "headers" rfl, h "sender" rfl]
  rfl

theorem find?_fields {name : String} (h : isField name = false) (depth : Nat) :
    ((fields fuel depth).find? fun f => f.name == name) = none := by
  rw [List.find?_eq_none]
  intro f hf hname
  have hnames : (fields fuel depth).map Field.name = fieldNames := rfl
  have hmem : name ∈ fieldNames := by
    rw [← hnames, ← beq_iff_eq.mp hname]
    exact List.mem_map_of_mem hf
  rw [isField, List.contains_iff_mem.mpr hmem] at h
  exact nomatch h

/-- A byte is read as it was written. -/
theorem reads_readByte (b : UInt8) :
    Reads readByte b ((Value.ofNat b.toNat).written layout level) := by
  have hlt : b.toNat < 256 := b.toNat_lt
  have hread : Reads (natAs 256 "u8") b.toNat ((Value.ofNat b.toNat).written layout level) :=
    reads_natAs hlt (hlt.trans (by decide)) "u8"
  have hbyte := hread.map UInt8.ofNat
  rwa [UInt8.ofNat_toNat] at hbyte

/-- A body is read as it was written. -/
theorem reads_body (body : Bytes) (enough : ((bytesForm body).written layout level).length ≤ fuel)
    (depth : Nat) :
    Reads (listAs fuel (depth + 1) fun _ => readByte) body
      ((bytesForm body).written layout level) := by
  refine reads_listAs (fun b : UInt8 => Value.ofNat b.toNat) ?_ ?_ enough
  · intro b _
    exact Value.written_head (isExact_ofInt b.toNat)
  · intro b _
    exact reads_readByte b

theorem reads_headers (plain : r.Plain)
    (enough : ((Value.object r.headers).written layout level).length ≤ fuel) :
    Reads (mapAs fuel 126 (value fuel)) r.headers ((Value.object r.headers).written layout level) :=
  reads_members plain.exact plain.ordered plain.nesting enough

/-! ## Objects -/

/-- A field whose name has not been seen is read, and its name has been seen
    from then on. -/
theorem fieldMember_draft (plain : r.Plain) {e : Entry} {v : Value}
    (mem : (e.name, v) ∈ r.members true true) (text : e.text = v.written layout level)
    (enough : e.text.length ≤ fuel) {seen : String → Bool} (fresh : seen e.name = false)
    {rest : Bytes} (ends : EndsNumber rest) :
    fieldMember fuel (fields fuel 126) e.name (r.draft seen) (e.tail rest)
      = .ok (r.draft fun name => seen name || e.name == name, rest) := by
  have reads {α : Type} {read : Bytes → Reading α} {a : α}
      (h : Reads read a (v.written layout level)) : Reads read a e.text := text ▸ h
  rw [text] at enough
  simp only [members, if_true, List.cons_append, List.nil_append, List.mem_cons, Prod.mk.injEq,
    List.not_mem_nil, or_false] at mem
  rcases mem with ⟨hname, rfl⟩ | ⟨hname, rfl⟩ | ⟨hname, rfl⟩ | ⟨hname, rfl⟩
  · have found : ((fields fuel 126).find? fun f => f.name == e.name) = some (field e.name true
        Draft.body (fun d x => { d with body := some x })
        (listAs fuel 126 fun _ => readByte)) := by
      rw [hname]
      rfl
    rw [hname] at fresh
    rw [fieldMember_field found (by simp [draft, fresh]) (reads (reads_body r.body enough 125))
      ends]
    simp [draft, hname]
  · have found : ((fields fuel 126).find? fun f => f.name == e.name) = some (field e.name true
        Draft.routingKey (fun d x => { d with routingKey := some x }) textAs) := by
      rw [hname]
      rfl
    rw [hname] at fresh
    rw [fieldMember_field found (by simp [draft, fresh]) (reads (reads_textAs r.routingKey)) ends]
    simp [draft, hname]
  · have found : ((fields fuel 126).find? fun f => f.name == e.name) = some (field e.name false
        Draft.headers (fun d x => { d with headers := some x }) (mapAs fuel 126 (value fuel))) := by
      rw [hname]
      rfl
    rw [hname] at fresh
    rw [fieldMember_field found (by simp [draft, fresh]) (reads (reads_headers plain enough)) ends]
    simp [draft, hname]
  · have found : ((fields fuel 126).find? fun f => f.name == e.name) = some (field e.name false
        Draft.sender (fun d x => { d with sender := some x }) textAs) := by
      rw [hname]
      rfl
    rw [hname] at fresh
    rw [fieldMember_field found (by simp [draft, fresh]) (reads (reads_textAs r.sender)) ends]
    simp [draft, hname]

/-- Members that spell a record: its fields, each once, in whatever order and
    layout, and other members that are well-formed. -/
structure Spells (r : Record) (withHeaders withSender : Bool) (entries : List Entry) : Prop where
  names : ((entries.map Entry.name).filter isField).Perm
    ((r.members withHeaders withSender).map Prod.fst)
  fields : ∀ e ∈ entries, isField e.name = true → ∃ v layout level,
    (e.name, v) ∈ r.members withHeaders withSender ∧ e.text = v.written layout level
  others : ∀ e ∈ entries, isField e.name = false → WellFormed .value e.text

/-- Members are read in any order: the draft holds the fields whose names have
    been seen. -/
theorem takes_entries (plain : r.Plain) {entries : List Entry} {seen : String → Bool}
    (enough : ∀ e ∈ entries, e.text.length ≤ fuel)
    (nodup : ((entries.map Entry.name).filter isField).Nodup)
    (fresh : ∀ e ∈ entries, isField e.name = true → seen e.name = false)
    (known : ∀ e ∈ entries, isField e.name = true → ∃ v layout level,
      (e.name, v) ∈ r.members true true ∧ e.text = v.written layout level)
    (others : ∀ e ∈ entries, isField e.name = false → WellFormed .value e.text) :
    Takes (fieldMember fuel (fields fuel 126)) entries (r.draft seen)
      (r.draft fun name => seen name || entries.any fun e => e.name == name) := by
  induction entries generalizing seen with
  | nil =>
      simp only [List.any_nil, Bool.or_false]
      exact .nil _
  | cons e entries ih =>
      obtain ⟨hfits, hallFit⟩ := List.forall_mem_cons.mp enough
      obtain ⟨hfresh, hallFresh⟩ := List.forall_mem_cons.mp fresh
      obtain ⟨hknown, hallKnown⟩ := List.forall_mem_cons.mp known
      obtain ⟨hother, hallOthers⟩ := List.forall_mem_cons.mp others
      have hreads (rest : Bytes) (ends : EndsNumber rest) :
          fieldMember fuel (fields fuel 126) e.name (r.draft seen) (e.tail rest)
            = .ok (r.draft fun name => seen name || e.name == name, rest) := by
        cases hfield : isField e.name with
        | true =>
            obtain ⟨v, layout, level, hmem, htext⟩ := hknown hfield
            exact fieldMember_draft plain hmem htext hfits (hfresh hfield) ends
        | false =>
            -- no field has the name that has been seen
            have hsame : r.draft seen = r.draft fun name => seen name || e.name == name := by
              refine r.draft_congr fun name hname => ?_
              have hne : (e.name == name) = false := by
                rw [beq_eq_false_iff_ne]
                rintro rfl
                exact nomatch hname.symm.trans hfield
              rw [hne, Bool.or_false]
            rw [← hsame]
            exact fieldMember_unknown (find?_fields hfield 126) (hother hfield) hfits ends
      have htakes := @ih (fun name => seen name || e.name == name) hallFit ?_ ?_ hallKnown
        hallOthers
      · simp only [List.any_cons, ← Bool.or_assoc]
        exact .cons hreads htakes
      · rw [List.map_cons, List.filter_cons] at nodup
        split at nodup
        · exact (List.nodup_cons.mp nodup).2
        · exact nodup
      · intro f hf hfield
        have hne : (e.name == f.name) = false := by
          rw [beq_eq_false_iff_ne]
          intro heq
          rw [List.map_cons, List.filter_cons, heq, if_pos hfield] at nodup
          exact (List.nodup_cons.mp nodup).1
            (List.mem_filter.mpr ⟨List.mem_map_of_mem hf, hfield⟩)
        rw [hallFresh f hf hfield, hne, Bool.or_false]

/-- The draft of a record that may lack its headers or its sender has what is
    required and is read as what was kept. -/
theorem draft_complete (r : Record) (withHeaders withSender : Bool) (depth : Nat) :
    missing? (fields fuel depth)
        (r.draft ((r.members withHeaders withSender).map Prod.fst).contains) = none
      ∧ (r.draft ((r.members withHeaders withSender).map Prod.fst).contains).record
        = r.kept withHeaders withSender := by
  cases withHeaders <;> cases withSender <;> exact ⟨rfl, rfl⟩

theorem nodup_names (r : Record) (withHeaders withSender : Bool) :
    ((r.members withHeaders withSender).map Prod.fst).Nodup := by
  cases withHeaders <;> cases withSender <;> simp [members]

/-- Every field that is written is one of the four. -/
theorem mem_members {r : Record} {withHeaders withSender : Bool} {m : String × Value}
    (h : m ∈ r.members withHeaders withSender) : m ∈ r.members true true := by
  simp only [members, List.mem_append] at h ⊢
  rcases h with h | h | h
  · exact Or.inl h
  · split at h
    · exact Or.inr (Or.inl h)
    · exact absurd h List.not_mem_nil
  · split at h
    · exact Or.inr (Or.inr h)
    · exact absurd h List.not_mem_nil

/-- A record is read from any object that spells it. -/
theorem reads_objectText (plain : r.Plain) {withHeaders withSender : Bool} {entries : List Entry}
    (spells : r.Spells withHeaders withSender entries) {last : Bytes}
    (space : ∀ b ∈ last, isSpace b = true) (enough : (objectText entries last).length ≤ fuel) :
    Reads (read fuel) (r.kept withHeaders withSender) (objectText entries last) := by
  have hcount := length_le_separated entries
  simp only [objectText, List.length_cons, List.length_append, List.length_nil] at enough
  have hfits : ∀ e ∈ entries, e.text.length ≤ fuel := fun e he =>
    (length_text_le he).trans (by omega)
  have hknown : ∀ e ∈ entries, isField e.name = true → ∃ v layout level,
      (e.name, v) ∈ r.members true true ∧ e.text = v.written layout level := by
    intro e he hfield
    obtain ⟨v, layout, level, hmem, htext⟩ := spells.fields e he hfield
    exact ⟨v, layout, level, mem_members hmem, htext⟩
  have hnodup := spells.names.nodup_iff.mpr (nodup_names r withHeaders withSender)
  have htakes := @takes_entries fuel r plain entries (fun _ => false) hfits hnodup
    (fun _ _ _ => rfl) hknown spells.others
  -- the names that have been seen are those of the fields that were spelled
  have hseen : (r.draft fun name => false || entries.any fun e => e.name == name)
      = r.draft ((r.members withHeaders withSender).map Prod.fst).contains := by
    refine r.draft_congr fun name hname => ?_
    rw [Bool.false_or, Bool.eq_iff_iff, List.any_eq_true, List.contains_iff_mem,
      ← spells.names.mem_iff, List.mem_filter, List.mem_map]
    simp only [beq_iff_eq, hname, and_true]
  obtain ⟨hcomplete, hrecord⟩ := @draft_complete fuel r withHeaders withSender 126
  rw [hseen] at htakes
  have hread : Reads (structAs "IngestRecord" (fields fuel) {} fuel greatestDepth) _
      (objectText entries last) :=
    reads_structAs_entries space htakes hcomplete (by omega)
  rw [← hrecord]
  exact hread.map Draft.record

/-- What is written of a record spells it. -/
theorem spells_written (r : Record) (layout : Layout) (level : Nat) :
    r.Spells true true (entries layout level (r.members true true)) := by
  refine ⟨List.Perm.refl _, ?_, ?_⟩
  · intro e he _
    obtain ⟨m, hm, rfl⟩ := List.mem_map.mp he
    exact ⟨m.2, layout, level, hm, rfl⟩
  · intro e he hother
    obtain ⟨m, hm, rfl⟩ := List.mem_map.mp he
    have hfields : ∀ name ∈ (r.members true true).map Prod.fst, isField name = true :=
      fun _ => List.contains_iff_mem.mpr
    exact nomatch (hfields _ (List.mem_map_of_mem hm)).symm.trans hother

/-! ## Arrays -/

theorem beginsItem_bytesForm (body : Bytes) :
    BeginsItem ((bytesForm body).written layout level) := by
  refine Value.written_head (Value.isExact_array.mpr fun v hv => ?_)
  obtain ⟨b, -, rfl⟩ := List.mem_map.mp hv
  exact isExact_ofInt b.toNat

/-- A record is read from the array of its fields in their order, of which the
    last ones may be missing. -/
theorem reads_array (plain : r.Plain) {withHeaders withSender : Bool}
    (inOrder : withSender = true → withHeaders = true)
    (enough : ((Value.array ((r.members withHeaders withSender).map Prod.snd)).written layout
      level).length ≤ fuel) :
    Reads (read fuel) (r.kept withHeaders withSender)
      ((Value.array ((r.members withHeaders withSender).map Prod.snd)).written layout level) := by
  have hfits := fun v hv => @length_item_le layout level fuel _ enough v hv
  have hbody : Reads (listAs fuel 126 fun _ => readByte) r.body
      ((bytesForm r.body).written layout (level + 1)) :=
    reads_body r.body (hfits _ List.mem_cons_self) 125
  have hbodyBegins : BeginsItem ((bytesForm r.body).written layout (level + 1)) :=
    beginsItem_bytesForm r.body
  have hkey : Reads textAs r.routingKey ((Value.string r.routingKey).written layout (level + 1)) :=
    reads_textAs r.routingKey
  have htextBegins (s : String) : BeginsItem ((Value.string s).written layout (level + 1)) :=
    Value.written_head rfl
  have hheadersBegin : BeginsItem ((Value.object r.headers).written layout (level + 1)) :=
    Value.written_head (Value.isExact_object.mpr plain.exact)
  -- the fields that are left over have a default
  have hfills : ∃ final, Fills (fields fuel 126)
      (((r.members withHeaders withSender).map Prod.snd).map (Value.written layout (level + 1)))
      {} final ∧ final.record = r.kept withHeaders withSender := by
    cases withHeaders with
    | false =>
        cases withSender with
        | true => exact nomatch inOrder rfl
        | false =>
            exact ⟨_, fills_field hbodyBegins hbody <| fills_field (htextBegins _) hkey <|
              .nil (List.forall_mem_cons.mpr ⟨rfl, List.forall_mem_singleton.mpr rfl⟩) _, rfl⟩
    | true =>
        have hheaders := reads_headers plain
          (hfits _ (List.mem_cons_of_mem _ (List.mem_cons_of_mem _ List.mem_cons_self)))
        cases withSender with
        | false =>
            exact ⟨_, fills_field hbodyBegins hbody <| fills_field (htextBegins _) hkey <|
              fills_field hheadersBegin hheaders <| .nil (List.forall_mem_singleton.mpr rfl) _, rfl⟩
        | true =>
            exact ⟨_, fills_field hbodyBegins hbody <| fills_field (htextBegins _) hkey <|
              fills_field hheadersBegin hheaders <|
              fills_field (htextBegins _) (reads_textAs r.sender) <|
              .nil (List.forall_mem_nil _) _, rfl⟩
  obtain ⟨final, hfills, hrecord⟩ := hfills
  have hread : Reads (structAs "IngestRecord" (fields fuel) {} fuel greatestDepth) final
      ((Value.array ((r.members withHeaders withSender).map Prod.snd)).written layout level) :=
    reads_structAs_array hfills
  rw [← hrecord]
  exact hread.map Draft.record

/-- **RECORDS READ BACK FROM EVERY SPELLING**: a record whose headers hold no
    double and nest no deeper than there is room for is read from what is
    written of it. It is read as well from every object that spells its
    fields, each once, in any order and with any well-formed members between
    them, and from the array of its fields in their order, with any space
    around. Where the headers or the sender are left out, there are none. -/
theorem parse_spelled (r : Record) (plain : r.Plain) :
    parse r.form.compactBytes = .ok r
      ∧ (∀ (withHeaders withSender : Bool) (entries : List Entry) (before last after : Bytes),
          r.Spells withHeaders withSender entries → (∀ b ∈ before, isSpace b = true) →
          (∀ b ∈ last, isSpace b = true) → (∀ b ∈ after, isSpace b = true) →
          parse (before ++ (objectText entries last ++ after))
            = .ok (r.kept withHeaders withSender))
      ∧ ∀ (withHeaders withSender : Bool) (layout : Layout) (level : Nat) (before after : Bytes),
          (withSender = true → withHeaders = true) →
          (∀ b ∈ before, isSpace b = true) → (∀ b ∈ after, isSpace b = true) →
          parse (before ++ ((Value.array ((r.members withHeaders withSender).map
              Prod.snd)).written layout level ++ after))
            = .ok (r.kept withHeaders withSender) := by
  have hfits {before text after : Bytes} :
      text.length ≤ (before ++ (text ++ after)).length + 1 := by
    simp only [List.length_append]
    omega
  refine ⟨?_, ?_, ?_⟩
  · obtain ⟨last, hlast, htext⟩ := @written_object_eq .compact 0 (r.members true true)
    have hform : r.form.compactBytes = objectText (entries .compact 1 (r.members true true)) last :=
      htext
    rw [hform]
    exact whole_of_reads
      (reads_objectText plain (r.spells_written .compact 1) hlast (Nat.le_succ _))
  · intro withHeaders withSender entries before last after spells ahead hlast behind
    exact whole_of_reads_between ahead behind (reads_objectText plain spells hlast hfits)
  · intro withHeaders withSender layout level before after inOrder ahead behind
    exact whole_of_reads_between ahead behind (reads_array plain inOrder hfits)

/-- A record with bytes that are no text, a quote in its key and a header that
    nests. -/
def quoted : Record := ⟨[0, 255], "a\"b", [("h", .array [.null])], "é"⟩

/-- A member that no field asks for: a number beyond all doubles, and half a
    character. -/
def stray : Entry :=
  { Entry.written .compact 0 ("stray", .null) with text := Utf8.ofString "[1e999,\"\\ud800\"]" }

theorem wellFormed_stray : WellFormed .value stray.text := by
  have hgap : ∀ b ∈ ([] : Bytes), isSpace b = true := List.forall_mem_nil _
  have hpower : ExponentText [0x65, 0x39, 0x39, 0x39] :=
    @ExponentText.present 0x65 0x39 [] [0x39, 0x39] (Or.inl rfl) (Or.inl rfl) rfl
      (List.all_eq_true.mp rfl)
  have hnumber : WellFormed .value [0x31, 0x65, 0x39, 0x39, 0x39] :=
    .natural (.digits rfl (by decide) (List.forall_mem_nil _)) .absent hpower
  have hstring : WellFormed .value [0x22, 0x5C, 0x75, 0x64, 0x38, 0x30, 0x30, 0x22] :=
    .string (.unit (List.all_eq_true.mp rfl) .close)
  have hlast := WellFormed.lastItem hgap hstring hgap
  exact .array (.item hgap hnumber hgap hlast)

/-- The fields out of order, without the sender. -/
def shuffled : List Entry :=
  [Entry.written .compact 0 ("headers", .object quoted.headers), stray,
    Entry.written .compact 0 ("routing_key", .string quoted.routingKey),
    Entry.written .compact 0 ("body", bytesForm quoted.body)]

theorem spells_shuffled : quoted.Spells true false shuffled := by
  refine ⟨by decide, ?_, ?_⟩
  · intro e he hfield
    simp only [shuffled, List.mem_cons, List.not_mem_nil, or_false] at he
    rcases he with rfl | rfl | rfl | rfl
    · exact ⟨_, .compact, 0, by simp [members, Entry.written], rfl⟩
    · exact nomatch hfield
    · exact ⟨_, .compact, 0, by simp [members, Entry.written], rfl⟩
    · exact ⟨_, .compact, 0, by simp [members, Entry.written], rfl⟩
  · intro e he hother
    simp only [shuffled, List.mem_cons, List.not_mem_nil, or_false] at he
    rcases he with rfl | rfl | rfl | rfl
    · exact nomatch hother
    · exact wellFormed_stray
    · exact nomatch hother
    · exact nomatch hother

theorem parse_spelled_shuffled :
    parse quoted.form.compactBytes = .ok quoted
      ∧ parse (Utf8.ofString ("\x7b\"headers\":\x7b\"h\":[null]\x7d,\"stray\":[1e999,\"\\ud800\"],"
          ++ "\"routing_key\":\"a\\\"b\",\"body\":[0,255] \x7d")) = .ok { quoted with sender := "" }
      ∧ parse (Utf8.ofString "[[0,255],\"a\\\"b\"]\n")
        = .ok { quoted with headers := [], sender := "" } := by
  have plain : quoted.Plain := by
    refine ⟨Value.ordered_object.mpr ⟨List.pairwise_singleton _ _, ?_⟩, by decide, by decide⟩
    exact List.forall_mem_singleton.mpr (Value.ordered_array.mpr
      (List.forall_mem_singleton.mpr (ordered_of_flat rfl)))
  obtain ⟨hform, hobject, harray⟩ := parse_spelled quoted plain
  have hnone : ∀ b ∈ ([] : Bytes), isSpace b = true := List.forall_mem_nil _
  have hspace : ∀ b ∈ ([0x20] : Bytes), isSpace b = true := List.forall_mem_singleton.mpr rfl
  have hbreak : ∀ b ∈ ([0x0A] : Bytes), isSpace b = true := List.forall_mem_singleton.mpr rfl
  have hread := hobject true false shuffled [] [0x20] [] spells_shuffled hnone hspace hnone
  have hread' := harray false false .compact 0 [] [0x0A] nofun hnone hbreak
  exact ⟨hform, hread, hread'⟩

end Record

end BusWindow
