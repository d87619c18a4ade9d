import BusWindow.Proofs.Markup

/-!
# Escaping — what is escaped is read back, whatever it was

    Every character is written by itself, so an escaped text is put together
    as the text was. An ampersand stands only at the front of an entity, so
    the entities can be told from what merely looks like one: an ampersand
    that came in has become an entity itself.

    * `entity_cases` says how a character can be written;
    * `begins_of_ampersand` finds the entity at an ampersand, by induction on
      the characters that were escaped;
    * `unescapeChars_escaped` is the way back;
    * `escape_loses_nothing` is the whole statement.
-/

namespace BusWindow.Html

/-- The entities that stand for a character. -/
def entities : List (List Char) :=
  [['&', 'a', 'm', 'p', ';'], ['&', 'l', 't', ';'], ['&', 'g', 't', ';'],
    ['&', 'q', 'u', 'o', 't', ';'], ['&', '#', '3', '9', ';']]

/-- A character is written as an entity, whose only ampersand is its first
    character, or it is no ampersand and is written as it is. -/
theorem entity_cases (c : Char) :
    (∃ tail, entity c = '&' :: tail ∧ '&' ∉ tail ∧ '&' :: tail ∈ entities)
      ∨ c ≠ '&' ∧ entity c = [c] := by
  unfold entity
  split
  · exact Or.inl ⟨_, rfl, by decide, by decide⟩
  · exact Or.inl ⟨_, rfl, by decide, by decide⟩
  · exact Or.inl ⟨_, rfl, by decide, by decide⟩
  · exact Or.inl ⟨_, rfl, by decide, by decide⟩
  · exact Or.inl ⟨_, rfl, by decide, by decide⟩
  · next hamp _ _ _ _ => exact Or.inr ⟨hamp, rfl⟩

/-! ## Ampersands -/

/-- An ampersand in what is written for a character is the front of it. -/
theorem begins_of_ampersand_entity {c : Char} {before after : List Char}
    (h : entity c = before ++ '&' :: after) : before = [] ∧ '&' :: after ∈ entities := by
  rcases entity_cases c with ⟨tail, htext, honly, hentity⟩ | ⟨hamp, htext⟩
  · rw [htext] at h
    cases before with
    | nil =>
        rw [List.nil_append] at h
        exact ⟨rfl, h ▸ hentity⟩
    | cons b before =>
        -- then it would stand further on
        rw [List.cons_append] at h
        have hmem : '&' ∈ tail := by
          rw [(List.cons.inj h).2]
          exact List.mem_append_right _ List.mem_cons_self
        exact absurd hmem honly
  · have hmem : '&' ∈ [c] := by
      rw [← htext, h]
      exact List.mem_append_right _ List.mem_cons_self
    exact absurd (List.mem_singleton.mp hmem).symm hamp

/-- Every ampersand of an escaped text is the front of an entity. -/
theorem begins_of_ampersand {text before after : List Char}
    (h : text.flatMap entity = before ++ '&' :: after) :
    ∃ e ∈ entities, e <+: '&' :: after := by
  induction text generalizing before with
  | nil => exact absurd h.symm (List.append_ne_nil_of_right_ne_nil _ (List.cons_ne_nil _ _))
  | cons c text ih =>
      rw [List.flatMap_cons] at h
      rcases List.append_eq_append_iff.mp h with ⟨later, -, hlater⟩ | ⟨more, hhere, hafter⟩
      · exact ih hlater
      · cases more with
        | nil =>
            -- it is the first character of what comes next
            exact @ih [] hafter.symm
        | cons d more =>
            rw [List.cons_append] at hafter
            obtain ⟨hd, hrest⟩ := List.cons.inj hafter
            subst hd
            obtain ⟨-, hentity⟩ := begins_of_ampersand_entity hhere
            refine ⟨_, hentity, ?_⟩
            rw [hrest]
            exact List.prefix_append ('&' :: more) _

/-! ## The way back -/

theorem unescapeChars_cons {c : Char} (h : c ≠ '&') (rest : List Char) :
    unescapeChars (c :: rest) = c :: unescapeChars rest := by
  rw [unescapeChars.eq_def (c :: rest)]
  split
  case h_6 heq =>
    obtain ⟨rfl, rfl⟩ := List.cons.inj heq
    rfl
  case h_7 heq => exact nomatch heq
  all_goals
    next heq => exact absurd (List.cons.inj heq).1 h

/-- What is written for a character is read as that character. -/
theorem unescapeChars_entity (c : Char) (rest : List Char) :
    unescapeChars (entity c ++ rest) = c :: unescapeChars rest := by
  unfold entity
  -- the five entities are read by computation
  split
  case h_6 hamp _ _ _ _ => exact unescapeChars_cons hamp rest
  all_goals rfl

theorem unescapeChars_escaped (text : List Char) :
    unescapeChars (text.flatMap entity) = text := by
  induction text with
  | nil => rfl
  | cons c text ih => rw [List.flatMap_cons, unescapeChars_entity, ih]

theorem unescape_escape (text : String) : unescape (escape text) = text := by
  rw [unescape, escape, String.toList_ofList, unescapeChars_escaped, String.ofList_toList]

theorem escape_append (text more : String) :
    escape (text ++ more) = escape text ++ escape more := by
  rw [escape, String.toList_append, List.flatMap_append, String.ofList_append]
  rfl

/-- **ESCAPING LOSES NOTHING**: an escaped text holds no mark, and every
    ampersand in it is the front of one of the five entities. Reading the
    entities back from left to right gives the text, so two texts are never
    escaped alike, even if they hold entities already. A text that is joined
    of two is escaped as the two are. -/
theorem escape_loses_nothing (text : String) :
    (∀ c ∈ (escape text).toList, c ≠ '<' ∧ c ≠ '>' ∧ c ≠ '"' ∧ c ≠ '\'')
      ∧ (∀ before after : List Char, (escape text).toList = before ++ '&' :: after →
          ∃ e ∈ entities, e <+: '&' :: after)
      ∧ unescape (escape text) = text
      ∧ (∀ other : String, escape other = escape text → other = text)
      ∧ ∀ more : String, escape (text ++ more) = escape text ++ escape more := by
  refine ⟨?_, ?_, unescape_escape text, ?_, escape_append text⟩
  · intro c hc
    rw [escape, String.toList_ofList] at hc
    obtain ⟨d, -, hd⟩ := List.mem_flatMap.mp hc
    have hmark := unmarked_entity d c hd
    rw [Bool.eq_false_iff, ne_eq, isMark_iff] at hmark
    simpa only [not_or] using hmark
  · intro before after h
    rw [escape, String.toList_ofList] at h
    exact begins_of_ampersand h
  · intro other h
    rw [← unescape_escape other, h, unescape_escape]

/-- A text that holds an entity already. -/
theorem escape_loses_nothing_entity :
    escape "&amp;lt;" = "&amp;amp;lt;" ∧ unescape "&amp;amp;lt;" = "&amp;lt;"
      ∧ (∃ e ∈ entities, e <+: '&' :: "amp;amp;lt;".toList)
      ∧ escape "<" ≠ escape "&lt;" := by
  have hescape : escape "&amp;lt;" = "&amp;amp;lt;" := by decide
  obtain ⟨-, hamp, hback, -⟩ := escape_loses_nothing "&amp;lt;"
  rw [hescape] at hamp hback
  refine ⟨hescape, hback, hamp [] _ (by decide), ?_⟩
  intro h
  exact absurd ((escape_loses_nothing "&lt;").2.2.2.1 "<" h) (by decide)

end BusWindow.Html
