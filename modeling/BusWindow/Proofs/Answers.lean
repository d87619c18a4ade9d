import BusWindow.Proofs.Structures

/-!
# Answers — the answer to a query reads back from its text

    An answer is held as the program holds it when its numbers fit 64 bits
    and its maps ascend. Such an answer is read back from its compact text,
    if no double is in it, its times have years of four digits and no leap
    seconds, and it leaves room for the levels that the answer takes itself.

    Whatever was read as an answer is held that way and is shallow enough
    (`held_of_read`), so the text of an answer that was read is read once
    more for the same answer.

    * `MessageView.reads_form` reads one view, field by field;
    * `QueryAnswer.parse_form` is the whole statement.
-/

namespace BusWindow

open Json

variable {layout : Layout} {level fuel : Nat}

/-! ## Views -/

namespace MessageView

/-- A view as the program holds it: a number of 64 bits, and members that
    ascend wherever there are any. -/
structure Held (v : MessageView) : Prop where
  seq_least : -0x8000000000000000 ≤ v.seq
  seq_greatest : v.seq ≤ greatestSeq
  headers : (Value.object v.headers).Ordered
  body : v.body.Ordered

/-- A view that leaves room for the levels around it. -/
structure Shallow (v : MessageView) : Prop where
  -- of `greatestDepth` levels the answer, its list and the view take three, and headers one more
  headers : ∀ m ∈ v.headers, m.2.nesting ≤ 123
  body : v.body.nesting ≤ 124

/-- A view that holds no double and was received in a year of four digits and
    not in a leap second. -/
structure Plain (v : MessageView) : Prop where
  headers : ∀ m ∈ v.headers, m.2.isExact = true
  body : v.body.isExact = true
  year_least : 0 ≤ v.receivedAt.date.year
  year_greatest : v.receivedAt.date.year ≤ 9999
  nanos : v.receivedAt.nanos < 1000000000

theorem beginsItem_form (v : MessageView) : BeginsItem (v.form.written layout level) := by
  rw [form, Value.written_object_cons]
  exact ⟨0x7B, _, rfl, by decide, by decide⟩

/-- A view is read as it was written, at the depth at which it stands in an
    answer. -/
theorem reads_form {v : MessageView} (held : v.Held) (shallow : v.Shallow) (plain : v.Plain)
    (enough : (v.form.written layout level).length ≤ fuel) :
    Reads (read fuel 125) v (v.form.written layout level) := by
  rw [form] at enough ⊢
  have hfits := fun m hm => @length_member_le layout level fuel _ enough m hm
  simp only [List.forall_mem_cons] at hfits
  obtain ⟨-, -, -, -, hheadersFit, hbodyFits, -⟩ := hfits
  have hseq : Reads seqAs v.seq ((Value.ofInt v.seq).written layout (level + 1)) :=
    reads_seqAs held.seq_least held.seq_greatest
  have htime : Reads timeAs v.receivedAt
      ((Value.string v.receivedAt.text).written layout (level + 1)) :=
    reads_timeAs plain.year_least plain.year_greatest plain.nanos
  have hheaders : Reads (mapAs fuel 124 (value fuel)) v.headers
      ((Value.object v.headers).written layout (level + 1)) :=
    reads_members plain.headers held.headers shallow.headers hheadersFit
  have hbody : Reads (value fuel 124) v.body (v.body.written layout (level + 1)) :=
    reads_written layout plain.body held.body shallow.body hbodyFits
  have htakes : Takes (fieldMember fuel (fields fuel 124))
      (entries layout (level + 1) [("seq", .ofInt v.seq), ("routing_key", .string v.routingKey),
        ("received_at", .string v.receivedAt.text), ("sender", .string v.sender),
        ("headers", .object v.headers), ("body", v.body)]) {}
      ⟨some v.seq, some v.routingKey, some v.receivedAt, some v.sender, some v.headers,
        some v.body⟩ :=
    takes_field rfl rfl hseq <| takes_field rfl rfl (reads_textAs _) <|
      takes_field rfl rfl htime <| takes_field rfl rfl (reads_textAs _) <|
      takes_field rfl rfl hheaders <| takes_field rfl rfl hbody <| .nil _
  have hread : Reads (structAs "MessageView" (fields fuel) {} fuel 125) _ _ :=
    reads_structAs htakes rfl enough
  exact hread.map Draft.view

/-- Every field of a view is read as the program holds it, and at the depth of
    an answer no deeper than it has room for. -/
theorem held_of_read {s rest : Bytes} {v : MessageView} (h : read fuel 125 s = .ok (v, rest)) :
    v.Held ∧ v.Shallow := by
  obtain ⟨⟨draft, rest'⟩, hread, heq⟩ := map_eq_ok h
  obtain ⟨rfl, -⟩ := Prod.mk.inj heq
  refine invariant_of_structAs (p := fun d : Draft => d.view.Held ∧ d.view.Shallow) ?_ ?_ hread
  · intro d hd f hf draft s next rest hdraft hfield
    obtain rfl := Nat.succ.inj hd
    obtain ⟨⟨hleast, hgreatest, hheaders, hbody⟩, hheaders', hbody'⟩ := hdraft
    -- the texts and the time may be any
    have hkeep {w : MessageView} (seq : w.seq = draft.view.seq)
        (headers : w.headers = draft.view.headers) (body : w.body = draft.view.body) :
        w.Held ∧ w.Shallow := by
      refine ⟨⟨seq ▸ hleast, seq ▸ hgreatest, headers ▸ hheaders, body ▸ hbody⟩,
        ⟨headers ▸ hheaders', body ▸ hbody'⟩⟩
    simp only [fields, List.mem_cons, List.not_mem_nil, or_false] at hf
    rcases hf with rfl | rfl | rfl | rfl | rfl | rfl
    · obtain ⟨i, hi, rfl⟩ := field_read_ok hfield
      obtain ⟨hleast, hgreatest⟩ := seqAs_bounds hi
      exact ⟨⟨hleast, hgreatest, hheaders, hbody⟩, ⟨hheaders', hbody'⟩⟩
    · obtain ⟨_, -, rfl⟩ := field_read_ok hfield
      exact hkeep rfl rfl rfl
    · obtain ⟨_, -, rfl⟩ := field_read_ok hfield
      exact hkeep rfl rfl rfl
    · obtain ⟨_, -, rfl⟩ := field_read_ok hfield
      exact hkeep rfl rfl rfl
    · obtain ⟨headers, hread, rfl⟩ := field_read_ok hfield
      obtain ⟨hordered, hnesting⟩ := ordered_of_mapAs hread
      exact ⟨⟨hleast, hgreatest, hordered, hbody⟩, ⟨hnesting, hbody'⟩⟩
    · obtain ⟨body, hread, rfl⟩ := field_read_ok hfield
      obtain ⟨hordered, hnesting⟩ := ordered_of_value hread
      exact ⟨⟨hleast, hgreatest, hheaders, hordered⟩, ⟨hheaders', hnesting⟩⟩
  · have hempty : (Value.object []).Ordered :=
      Value.ordered_object.mpr ⟨List.Pairwise.nil, List.forall_mem_nil _⟩
    exact ⟨⟨by decide, by decide, hempty, ordered_of_flat rfl⟩,
      ⟨List.forall_mem_nil _, Nat.zero_le _⟩⟩

end MessageView

/-! ## Answers -/

namespace QueryAnswer

/-- An answer as the program holds it: its views are, its numbers fit 64 bits,
    and its frequencies ascend. -/
structure Held (a : QueryAnswer) : Prop where
  messages : ∀ v ∈ a.messages, v.Held
  frequencies : SortedMap.Sorted a.frequencies
  counts : ∀ p ∈ a.frequencies, p.2 < Number.naturalBound
  total_least : -0x8000000000000000 ≤ a.totalReceived
  total_greatest : a.totalReceived ≤ greatestSeq
  buffered : a.buffered < Number.naturalBound

/-- An answer is read as it was written. -/
theorem reads_form {a : QueryAnswer} (held : a.Held) (shallow : ∀ v ∈ a.messages, v.Shallow)
    (plain : ∀ v ∈ a.messages, v.Plain) (enough : (a.form.written layout level).length ≤ fuel) :
    Reads (read fuel) a (a.form.written layout level) := by
  rw [form] at enough ⊢
  have hfits := fun m hm => @length_member_le layout level fuel _ enough m hm
  simp only [List.forall_mem_cons] at hfits
  obtain ⟨hmessagesFit, hfrequenciesFit, -⟩ := hfits
  have hmessages : Reads (listAs fuel 126 (MessageView.read fuel)) a.messages
      ((Value.array (a.messages.map MessageView.form)).written layout (level + 1)) := by
    refine reads_listAs MessageView.form (fun v _ => v.beginsItem_form) ?_ hmessagesFit
    intro v hv
    exact MessageView.reads_form (held.messages v hv) (shallow v hv) (plain v hv)
      (length_item_le hmessagesFit (List.mem_map_of_mem hv))
  have hfrequencies : Reads (mapAs fuel 126 fun _ => countAs) a.frequencies
      ((Value.object (a.frequencies.map fun p => (p.1, .ofNat p.2))).written layout (level + 1)) :=
    reads_mapAs Value.ofNat held.frequencies (fun p hp => reads_countAs (held.counts p hp))
      hfrequenciesFit
  have htotal : Reads seqAs a.totalReceived
      ((Value.ofInt a.totalReceived).written layout (level + 1)) :=
    reads_seqAs held.total_least held.total_greatest
  have hbuffered : Reads countAs a.buffered ((Value.ofNat a.buffered).written layout (level + 1)) :=
    reads_countAs held.buffered
  have htakes : Takes (fieldMember fuel (fields fuel 126))
      (entries layout (level + 1) [("messages", .array (a.messages.map MessageView.form)),
        ("frequencies", .object (a.frequencies.map fun p => (p.1, .ofNat p.2))),
        ("total_received", .ofInt a.totalReceived), ("buffered", .ofNat a.buffered)]) {}
      ⟨some a.messages, some a.frequencies, some a.totalReceived, some a.buffered⟩ :=
    takes_field rfl rfl hmessages <| takes_field rfl rfl hfrequencies <|
      takes_field rfl rfl htotal <| takes_field rfl rfl hbuffered <| .nil _
  have hread : Reads (structAs "QueryResponse" (fields fuel) {} fuel greatestDepth) _ _ :=
    reads_structAs htakes rfl enough
  exact hread.map Draft.answer

/-- Every field of an answer is read as the program holds it, and its views
    no deeper than they stand. -/
theorem held_of_read {s rest : Bytes} {a : QueryAnswer} (h : read fuel s = .ok (a, rest)) :
    a.Held ∧ ∀ v ∈ a.messages, v.Shallow := by
  obtain ⟨⟨draft, rest'⟩, hread, heq⟩ := map_eq_ok h
  obtain ⟨rfl, -⟩ := Prod.mk.inj heq
  refine invariant_of_structAs
    (p := fun d : Draft => d.answer.Held ∧ ∀ v ∈ d.answer.messages, v.Shallow) ?_ ?_ hread
  · intro d hd f hf draft s next rest hdraft hfield
    obtain rfl : 126 = d := Nat.succ.inj hd
    obtain ⟨⟨hmessages, hsorted, hcounts, hleast, hgreatest, hbuffered⟩, hshallow⟩ := hdraft
    simp only [fields, List.mem_cons, List.not_mem_nil, or_false] at hf
    rcases hf with rfl | rfl | rfl | rfl
    · obtain ⟨messages, hread, rfl⟩ := field_read_ok hfield
      have hall := forall_of_listAs (p := fun v : MessageView => v.Held ∧ v.Shallow)
        (fun d _ _ _ hd hread => MessageView.held_of_read (Nat.succ.inj hd ▸ hread)) hread
      exact ⟨⟨fun v hv => (hall v hv).1, hsorted, hcounts, hleast, hgreatest, hbuffered⟩,
        fun v hv => (hall v hv).2⟩
    · obtain ⟨frequencies, hread, rfl⟩ := field_read_ok hfield
      obtain ⟨hsorted, hcounts⟩ := sorted_of_mapAs (fun _ _ _ _ _ hread => countAs_lt hread) hread
      exact ⟨⟨hmessages, hsorted, hcounts, hleast, hgreatest, hbuffered⟩, hshallow⟩
    · obtain ⟨total, hread, rfl⟩ := field_read_ok hfield
      obtain ⟨hleast, hgreatest⟩ := seqAs_bounds hread
      exact ⟨⟨hmessages, hsorted, hcounts, hleast, hgreatest, hbuffered⟩, hshallow⟩
    · obtain ⟨buffered, hread, rfl⟩ := field_read_ok hfield
      exact ⟨⟨hmessages, hsorted, hcounts, hleast, hgreatest, countAs_lt hread⟩, hshallow⟩
  · exact ⟨⟨List.forall_mem_nil _, List.Pairwise.nil, List.forall_mem_nil _, by decide, by decide,
      by decide⟩, List.forall_mem_nil _⟩

/-- **ANSWERS READ BACK**: the compact text of an answer is read as that
    answer, if the program can hold it, its views are plain and they leave
    room for the levels around them; and the text of an answer with plain
    views that was itself read from a text is read as the same answer once
    more. -/
theorem parse_form :
    (∀ a : QueryAnswer, a.Held → (∀ v ∈ a.messages, v.Shallow) → (∀ v ∈ a.messages, v.Plain) →
        parse a.form.compactBytes = .ok a)
      ∧ ∀ (text : Bytes) (a : QueryAnswer), parse text = .ok a → (∀ v ∈ a.messages, v.Plain) →
          parse a.form.compactBytes = .ok a := by
  have hwritten (a : QueryAnswer) (held : a.Held) (shallow : ∀ v ∈ a.messages, v.Shallow)
      (plain : ∀ v ∈ a.messages, v.Plain) : parse a.form.compactBytes = .ok a :=
    whole_of_reads (reads_form held shallow plain (Nat.le_succ _))
  refine ⟨hwritten, ?_⟩
  intro text a h plain
  obtain ⟨rest, hread⟩ := ok_of_whole h
  obtain ⟨held, shallow⟩ := held_of_read hread
  exact hwritten a held shallow plain

/-- A value of so many levels. -/
def deep : Nat → Value
  | 0 => .null
  | n + 1 => .array [deep n]

theorem settled_deep (n : Nat) :
    (deep n).isExact = true ∧ (deep n).Ordered ∧ (deep n).nesting ≤ n := by
  induction n with
  | zero => exact ⟨rfl, ordered_of_flat rfl, Nat.le_refl 0⟩
  | succ n ih =>
      obtain ⟨hexact, hordered, hnesting⟩ := ih
      exact ⟨Value.isExact_array.mpr (List.forall_mem_singleton.mpr hexact),
        Value.ordered_array.mpr (List.forall_mem_singleton.mpr hordered),
        Value.nesting_array_le.mpr (List.forall_mem_singleton.mpr hnesting)⟩

/-- A view at its bounds: the least number, the last nanosecond of the last
    year, and as many levels as there is room for. -/
def outermostView : MessageView :=
  ⟨-0x8000000000000000, "b\u0001\"", ⟨253402300799, 999999999⟩, "é", [("", deep 123)], deep 124⟩

/-- An answer at its bounds. -/
def outermost : QueryAnswer :=
  ⟨[outermostView], [("", 0), ("b\u0001\"", 0xFFFFFFFFFFFFFFFF)], greatestSeq, 0⟩

deriving instance DecidableEq for MessageView, QueryAnswer

/-- Fields without their names, and a time in another zone. -/
def unnamed : Bytes :=
  Utf8.ofString ("[[[5, \"b\", \"1970-01-01T02:00:00.250000000+02:00\", \"\", \x7b\x7d, [1]]],"
    ++ " \x7b\"b\":1\x7d, 6, 1 ]")

/-- The answer that it is read as. -/
def unnamedAnswer : QueryAnswer :=
  ⟨[⟨5, "b", ⟨0, 250000000⟩, "", [], .array [.ofNat 1]⟩], [("b", 1)], 6, 1⟩

theorem parse_form_outermost :
    parse outermost.form.compactBytes = .ok outermost ∧ parse unnamed = .ok unnamedAnswer
      ∧ parse unnamedAnswer.form.compactBytes = .ok unnamedAnswer := by
  obtain ⟨hheader, hheaderOrdered, hheaderNesting⟩ := settled_deep 123
  obtain ⟨hbody, hbodyOrdered, hbodyNesting⟩ := settled_deep 124
  have hview : outermostView.Held :=
    ⟨by decide, by decide, Value.ordered_object.mpr ⟨List.pairwise_singleton _ _,
      List.forall_mem_singleton.mpr hheaderOrdered⟩, hbodyOrdered⟩
  have held : outermost.Held :=
    ⟨List.forall_mem_singleton.mpr hview,
      List.pairwise_pair.mpr (String.lt_iff_toList_lt.mpr (by decide)), by decide, by decide,
      by decide, by decide⟩
  have shallow : ∀ v ∈ outermost.messages, v.Shallow :=
    List.forall_mem_singleton.mpr ⟨List.forall_mem_singleton.mpr hheaderNesting, hbodyNesting⟩
  have plain : ∀ v ∈ outermost.messages, v.Plain :=
    List.forall_mem_singleton.mpr
      ⟨List.forall_mem_singleton.mpr hheader, hbody, by decide, by decide, by decide⟩
  have hparse : parse unnamed = .ok unnamedAnswer := by decide +kernel
  have plain' : ∀ v ∈ unnamedAnswer.messages, v.Plain :=
    List.forall_mem_singleton.mpr
      ⟨List.forall_mem_nil _, by decide, by decide, by decide, by decide⟩
  exact ⟨parse_form.1 outermost held shallow plain, hparse,
    parse_form.2 unnamed unnamedAnswer hparse plain'⟩

end QueryAnswer

end BusWindow
