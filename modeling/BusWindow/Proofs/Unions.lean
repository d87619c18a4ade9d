import Mathlib.Data.List.Perm.Subperm
import BusWindow.Proofs.QueryMeaning
import BusWindow.Proofs.Results

/-!
# Unions — two queries in one find the newest of what both find

    Two queries with a comma or a line end between them are one query. Its
    groups are those of the first and then those of the second, so the first
    word that is refused is the first one of the two, and a message answers
    the whole when it answers one of them. The reply is capped, and so were
    the replies to the two; nothing is lost by that, because what the whole
    finds within its cap each of them finds within the same cap.

    * `groups_append` and `clauses_append` say that the parser goes over the
      two texts one after the other, and `parse_push` puts them together;
    * `Latest` says what the newest of some messages are, and `Latest.unique`
      that it leaves no choice;
    * `mem_find_of_accepts` is about the caps, and `Numbered.latest_union`
      is the statement for a buffer;
    * `union_of_queries` is the whole statement.
-/

namespace BusWindow

/-! ## The parser on two texts -/

namespace Query

/-- A piece of a text has no character that the text does not have. -/
theorem mem_of_mem_splitOnP {p : Char → Bool} {text piece : List Char}
    (h : piece ∈ text.splitOnP p) {c : Char} (hc : c ∈ piece) : c ∈ text := by
  induction text generalizing piece with
  | nil =>
      rw [List.splitOnP_nil, List.mem_singleton] at h
      exact nomatch h ▸ hc
  | cons x rest ih =>
      rw [List.splitOnP_cons_eq_if_modifyHead] at h
      split at h
      · rcases List.mem_cons.mp h with rfl | hrest
        · exact nomatch hc
        · exact List.mem_cons_of_mem x (ih hrest hc)
      · -- the first piece of the rest has one character more
        obtain ⟨first, more, hsplit⟩ := List.exists_cons_of_ne_nil (List.splitOnP_ne_nil p rest)
        rw [hsplit, List.modifyHead_cons] at h
        rcases List.mem_cons.mp h with rfl | hmore
        · rcases List.mem_cons.mp hc with rfl | hfirst
          · exact List.mem_cons_self
          · exact List.mem_cons_of_mem x (ih (hsplit ▸ List.mem_cons_self) hfirst)
        · exact List.mem_cons_of_mem x (ih (hsplit ▸ List.mem_cons_of_mem first hmore) hc)

/-- A text with a separator in it has the groups in front of the separator
    and those behind it. -/
theorem groups_append (front back : List Char) {separator : Char}
    (ends : endsGroup separator = true) :
    groups (front ++ separator :: back) = groups front ++ groups back := by
  rw [groups, groups, groups, Text.pieces_eq_splitOnP, Text.pieces_eq_splitOnP,
    Text.pieces_eq_splitOnP, List.splitOnP_append_cons _ _ ends, List.map_append,
    List.filter_append]

/-- A blank text has no groups. -/
theorem groups_of_blank {text : List Char} (h : ∀ c ∈ text, Text.isBlank c = true) :
    groups text = [] := by
  rw [groups, Text.pieces_eq_splitOnP, List.filter_eq_nil_iff]
  intro ts hts
  obtain ⟨piece, hpiece, rfl⟩ := List.mem_map.mp hts
  have hblank : tokens piece = [] :=
    (tokens_eq_nil_iff piece).mpr fun c hc => h c (mem_of_mem_splitOnP hpiece hc)
  rw [words_eq_tokens, hblank]
  exact Bool.false_ne_true

/-- The clauses of the groups in front come first, and so does what is
    refused there. -/
theorem clauses_append (front back : List (List (List Char))) :
    clauses (front ++ back)
      = (clauses front).bind fun first => (clauses back).map fun second => first ++ second := by
  induction front with
  | nil =>
      show clauses back = (clauses back).map fun second => [] ++ second
      cases clauses back with
      | error e => rfl
      | ok second => rfl
  | cons words rest ih =>
      rw [List.cons_append, clauses, clauses, ih]
      cases Clause.ofWords {} words with
      | error e => rfl
      | ok clause =>
          cases clauses rest with
          | error e => rfl
          | ok first =>
              cases clauses back with
              | error e => rfl
              | ok second => rfl

theorem parse_of_not_asksForAll {raw : String} (h : asksForAll raw.toList = false) :
    parse raw = (clauses (groups raw.toList)).map .filter := by
  rw [parse, h]
  rfl

/-- The groups of a text that asks for everything give clauses too, though
    nobody looks at them. -/
theorem exists_clauses_of_asksForAll {raw : String} (h : asksForAll raw.toList = true) :
    ∃ spec, clauses (groups raw.toList) = .ok spec := by
  rcases (asksForAll_iff raw).mp h with hblank | rfl
  · rw [groups_of_blank hblank]
    exact ⟨[], rfl⟩
  · exact ⟨_, rfl⟩

theorem exists_clauses_of_parse {raw : String} {q : Query} (h : parse raw = .ok q) :
    ∃ spec, clauses (groups raw.toList) = .ok spec := by
  cases hall : asksForAll raw.toList with
  | true => exact exists_clauses_of_asksForAll hall
  | false =>
      rw [parse_of_not_asksForAll hall] at h
      cases hclauses : clauses (groups raw.toList) with
      | ok spec => exact ⟨spec, rfl⟩
      | error e => rw [hclauses] at h; exact nomatch h

theorem clauses_of_parse_error {raw : String} {e : InvalidRange} (h : parse raw = .error e) :
    clauses (groups raw.toList) = .error e := by
  cases hall : asksForAll raw.toList with
  | true =>
      rw [(parse_eq_all_iff raw).mpr hall] at h
      exact nomatch h
  | false =>
      rw [parse_of_not_asksForAll hall] at h
      cases hclauses : clauses (groups raw.toList) with
      | ok spec => rw [hclauses] at h; exact nomatch h
      | error e' => rw [hclauses] at h; rw [Except.error.inj h]

variable {q₁ q₂ : String} {separator : Char}

theorem toList_push_append :
    (q₁.push separator ++ q₂).toList = q₁.toList ++ separator :: q₂.toList := by
  rw [String.toList_append, String.toList_push, List.append_assoc]
  rfl

/-- Two texts together ask for everything only if each of them does. -/
theorem asksForAll_of_push (ends : endsGroup separator = true)
    (h : asksForAll (q₁.push separator ++ q₂).toList = true) :
    parse q₁ = .ok .all ∧ parse q₂ = .ok .all := by
  rcases (asksForAll_iff _).mp h with hblank | hstar
  · rw [toList_push_append] at hblank
    rw [parse_eq_all_iff, parse_eq_all_iff, asksForAll_iff, asksForAll_iff]
    exact ⟨Or.inl fun c hc => hblank c (List.mem_append_left _ hc),
      Or.inl fun c hc => hblank c (List.mem_append_right _ (List.mem_cons_of_mem _ hc))⟩
  · -- the separator is no star
    have hmem : separator ∈ (q₁.push separator ++ q₂).toList := by
      rw [toList_push_append]
      exact List.mem_append_right _ List.mem_cons_self
    rw [hstar] at hmem
    obtain rfl : separator = '*' := by simpa using hmem
    exact absurd ends (by decide)

/-- Two texts, one of which does not ask for everything, are understood one
    after the other. -/
theorem parse_push (ends : endsGroup separator = true)
    (h : parse q₁ ≠ .ok .all ∨ parse q₂ ≠ .ok .all) :
    parse (q₁.push separator ++ q₂)
      = ((clauses (groups q₁.toList)).bind fun first =>
          (clauses (groups q₂.toList)).map fun second => first ++ second).map .filter := by
  have hall : asksForAll (q₁.push separator ++ q₂).toList = false := by
    rw [Bool.eq_false_iff]
    intro hall
    obtain ⟨hall₁, hall₂⟩ := asksForAll_of_push ends hall
    exact h.elim (fun hne => hne hall₁) fun hne => hne hall₂
  rw [parse_of_not_asksForAll hall, toList_push_append, groups_append _ _ ends, clauses_append]

end Query

/-! ## The newest of some messages -/

/-- The newest of some messages: the newest first, none of them twice, as
    many as may be found, and any other one is older than all of them. -/
structure Latest (limit : Nat) (messages found : List Message) : Prop where
  mem : ∀ m ∈ found, m ∈ messages
  descending : found.Pairwise fun m m' => m'.seq < m.seq
  length_le : found.length ≤ limit
  left_out : ∀ m ∈ messages, m ∉ found → found.length = limit ∧ ∀ m' ∈ found, m.seq < m'.seq

namespace Latest

variable {limit : Nat} {messages found found' : List Message}

theorem nodup (h : Latest limit messages found) : found.Nodup := by
  refine h.descending.imp ?_
  rintro m m' hlt rfl
  exact Int.lt_irrefl _ hlt

/-- Nothing that is among the newest in one way is left out in another. -/
theorem subset (h : Latest limit messages found) (h' : Latest limit messages found') :
    found ⊆ found' := by
  intro m hm
  by_contra hnot
  obtain ⟨hfull, holder⟩ := h'.left_out m (h.mem m hm) hnot
  -- whatever took its place is newer, so it is among the first ones too
  have hsub : m :: found' ⊆ found := by
    intro m' hm'
    rcases List.mem_cons.mp hm' with rfl | hm'
    · exact hm
    · by_contra hout
      have hlt := (h.left_out m' (h'.mem m' hm') hout).2 m hm
      exact Int.lt_asymm hlt (holder m' hm')
  have hnodup : (m :: found').Nodup := List.nodup_cons.mpr ⟨hnot, h'.nodup⟩
  have hlength := (List.subperm_of_subset hnodup hsub).length_le
  have hle := h.length_le
  rw [List.length_cons] at hlength
  omega

/-- There is one way to be the newest. -/
theorem unique (h : Latest limit messages found) (h' : Latest limit messages found') :
    found = found' := by
  have hperm : found.Perm found' :=
    (List.subperm_of_subset h.nodup (h.subset h')).antisymm
      (List.subperm_of_subset h'.nodup (h'.subset h))
  refine hperm.eq_of_pairwise ?_ h.descending h'.descending
  intro m m' _ _ hlt hlt'
  exact absurd hlt' (Int.lt_asymm hlt)

end Latest

/-! ## The caps -/

theorem anyAccepts_append (c₁ c₂ : List Clause) (m : Message) :
    anyAccepts (c₁ ++ c₂) m = (anyAccepts c₁ m || anyAccepts c₂ m) := List.any_append

namespace Buffer

variable {b : Buffer} {limit : Nat} {c c₁ c₂ : List Clause} {m : Message}

/-- What a query finds within its cap, a narrower one that it answers finds
    within the same cap: fewer messages can stand in front of it. -/
theorem mem_find_of_accepts (narrower : ∀ m, anyAccepts c₁ m = true → anyAccepts c m = true)
    (hm : m ∈ b.find limit (.filter c)) (accepted : anyAccepts c₁ m = true) :
    m ∈ b.find limit (.filter c₁) := by
  have hfilter : (b.toList.reverse.filter (anyAccepts c)).filter (anyAccepts c₁)
      = b.toList.reverse.filter (anyAccepts c₁) := by
    rw [List.filter_filter]
    refine List.filter_congr ?_
    intro m _
    cases h : anyAccepts c₁ m with
    | false => rfl
    | true => rw [narrower m h]; rfl
  have hprefix : (b.find limit (.filter c)).filter (anyAccepts c₁)
      <+: b.find limit (.filter c₁) := by
    refine List.prefix_take_iff.mpr ⟨?_, ?_⟩
    · rw [← hfilter]
      exact (List.take_prefix _ _).filter _
    · exact (List.length_filter_le _ _).trans (List.length_take_le _ _)
  exact hprefix.subset (List.mem_filter.mpr ⟨hm, accepted⟩)

/-- A query that leaves out what it would accept has filled its reply. -/
theorem length_find_of_notMem (hm : m ∈ b.toList) (accepted : anyAccepts c m = true)
    (hnot : m ∉ b.find limit (.filter c)) : (b.find limit (.filter c)).length = limit := by
  have hmem : m ∈ b.toList.reverse.filter (anyAccepts c) :=
    List.mem_filter.mpr ⟨List.mem_reverse.mpr hm, accepted⟩
  have hlt : limit < (b.toList.reverse.filter (anyAccepts c)).length := by
    by_contra hle
    rw [find, List.take_of_length_le (Nat.not_lt.mp hle)] at hnot
    exact hnot hmem
  rw [find, List.length_take]
  omega

/-- A query with the clauses of two finds the newest of what the two find. -/
theorem Numbered.latest_union (h : b.Numbered) (limit : Nat) (c₁ c₂ : List Clause) :
    Latest limit (b.find limit (.filter c₁) ++ b.find limit (.filter c₂))
      (b.find limit (.filter (c₁ ++ c₂))) := by
  have hscan := h.scan limit (c₁ ++ c₂)
  have hleft (m : Message) (ha : anyAccepts c₁ m = true) : anyAccepts (c₁ ++ c₂) m = true := by
    rw [anyAccepts_append, ha]
    rfl
  have hright (m : Message) (ha : anyAccepts c₂ m = true) : anyAccepts (c₁ ++ c₂) m = true := by
    rw [anyAccepts_append, ha, Bool.or_true]
  refine ⟨?_, hscan.descending, List.length_take_le _ _, ?_⟩
  · intro m hm
    have haccepted := hscan.accepted m hm
    rw [anyAccepts_append, Bool.or_eq_true] at haccepted
    rcases haccepted with ha | ha
    · exact List.mem_append_left _ (mem_find_of_accepts hleft hm ha)
    · exact List.mem_append_right _ (mem_find_of_accepts hright hm ha)
  · intro m hm hnot
    obtain ⟨hkept, haccepted⟩ : m ∈ b.toList ∧ anyAccepts (c₁ ++ c₂) m = true := by
      rcases List.mem_append.mp hm with hm | hm
      · exact ⟨(h.scan limit c₁).kept m hm, hleft m ((h.scan limit c₁).accepted m hm)⟩
      · exact ⟨(h.scan limit c₂).kept m hm, hright m ((h.scan limit c₂).accepted m hm)⟩
    exact ⟨length_find_of_notMem hkept haccepted hnot, hscan.newest m hkept haccepted hnot⟩

end Buffer

namespace Store

open Query

variable {settings : StoreSettings} {t : Trace} {s : System}

/-- **A UNION OF QUERIES**: in every state that a run comes to, and for every
    size of a reply, two texts that name clauses make one text that names
    clauses when a comma or a line end is put between them, and what it finds
    is the newest of what the two find, each message once. If the first text
    is refused, the whole is refused for the same word, and if only the
    second one is, for that of the second. -/
theorem union_of_queries (run : Run settings t s) (q₁ q₂ : String) {separator : Char}
    (separates : separator = ',' ∨ separator = '\n') :
    (∀ c₁ c₂, parse q₁ = .ok (.filter c₁) → parse q₂ = .ok (.filter c₂) →
        ∃ c, parse (q₁.push separator ++ q₂) = .ok (.filter c)
          ∧ ∀ (limit : Nat) (found : List Message),
            (s.buffer.reply limit (.query (.filter c))).messages = found
              ↔ Latest limit ((s.buffer.reply limit (.query (.filter c₁))).messages
                  ++ (s.buffer.reply limit (.query (.filter c₂))).messages) found)
      ∧ (∀ e, parse q₁ = .error e → parse (q₁.push separator ++ q₂) = .error e)
      ∧ ∀ q e, parse q₁ = .ok q → parse q₂ = .error e →
          parse (q₁.push separator ++ q₂) = .error e := by
  have hends : endsGroup separator = true := by
    rcases separates with rfl | rfl
    · rfl
    · rfl
  refine ⟨?_, ?_, ?_⟩
  · intro c₁ c₂ h₁ h₂
    refine ⟨c₁ ++ c₂, ?_, ?_⟩
    · rw [parse_push hends (Or.inl (by rw [h₁]; exact nofun)), clauses_of_parse h₁,
        clauses_of_parse h₂]
      rfl
    · intro limit found
      have hlatest := run.numbered_buffer.latest_union limit c₁ c₂
      constructor
      · rintro rfl
        exact hlatest
      · intro hfound
        exact hlatest.unique hfound
  · intro e h₁
    rw [parse_push hends (Or.inl (by rw [h₁]; exact nofun)), clauses_of_parse_error h₁]
    rfl
  · intro q e h₁ h₂
    obtain ⟨spec, hspec⟩ := exists_clauses_of_parse h₁
    rw [parse_push hends (Or.inr (by rw [h₂]; exact nofun)), hspec, clauses_of_parse_error h₂]
    rfl

/-- With room for two messages in a reply, one of the three that the parts
    find is left out of the whole. -/
theorem union_of_queries_capped :
    Run narrow queryingRun.1 queryingRun.2
      ∧ (∃ c₁ c₂ c, parse "#1-2" = .ok (.filter c₁) ∧ parse "#3-" = .ok (.filter c₂)
          ∧ parse ("#1-2".push ',' ++ "#3-") = .ok (.filter c)
          ∧ (queryingRun.2.buffer.find 2 (.filter c₁)).map Message.seq = [2, 1]
          ∧ (queryingRun.2.buffer.find 2 (.filter c₂)).map Message.seq = [3]
          ∧ (queryingRun.2.buffer.find 2 (.filter c)).map Message.seq = [3, 2]
          ∧ Latest 2 (queryingRun.2.buffer.find 2 (.filter c₁)
              ++ queryingRun.2.buffer.find 2 (.filter c₂))
            (queryingRun.2.buffer.find 2 (.filter c)))
      ∧ parse ("#x-".push '\n' ++ "#y-") = .error ⟨"#x-"⟩
      ∧ parse ("*".push '\n' ++ "#y-") = .error ⟨"#y-"⟩ := by
  have hrun : Run narrow queryingRun.1 queryingRun.2 := Run.of_play (by decide)
  have h₁ : parse "#1-2" = .ok (.filter [{ low := 1, high := 2 }]) := rfl
  have h₂ : parse "#3-" = .ok (.filter [{ low := 3 }]) := rfl
  have h : parse ("#1-2".push ',' ++ "#3-")
      = .ok (.filter [{ low := 1, high := 2 }, { low := 3 }]) := rfl
  obtain ⟨c, hc, hlatest⟩ := (union_of_queries hrun "#1-2" "#3-" (Or.inl rfl)).1 _ _ h₁ h₂
  obtain rfl := Query.filter.inj (Except.ok.inj (h.symm.trans hc))
  refine ⟨hrun, ⟨_, _, _, h₁, h₂, h, rfl, rfl, rfl, (hlatest 2 _).mp rfl⟩, ?_, ?_⟩
  · exact (union_of_queries hrun "#x-" "#y-" (Or.inr rfl)).2.1 _ rfl
  · exact (union_of_queries hrun "*" "#y-" (Or.inr rfl)).2.2 .all _ rfl rfl

end Store

end BusWindow
