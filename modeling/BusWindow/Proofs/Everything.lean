import BusWindow.Proofs.QueryMeaning
import BusWindow.Proofs.Results
import BusWindow.Proofs.Tallies

/-!
# Everything — two ways to ask for all messages

    A blank query or a lone star gets the newest end of the buffer in the
    order of arrival. A query with a group of nothing but `#-` accepts every
    message, because every number lies between the bounds that are left out,
    so its walk from the newest message backwards stops only at the cap. The
    two find the same messages in opposite orders, and count the same keys.

    * `meets_boundless_iff` says what a group of `#-` asks for;
    * `find_eq_reverse` compares the walk with the end of the buffer;
    * `everything_either_way` is the whole statement.
-/

namespace BusWindow

namespace Query

/-- A range that leaves out both of its bounds. -/
def boundless : List Char := ['#', '-']

/-- A group that has tokens, all of them ranges without bounds. -/
structure AsksForAnything (group : List Char) : Prop where
  some_token : tokens group ≠ []
  only_boundless : ∀ token ∈ tokens group, token = boundless

/-- Ranges without bounds ask only for a number between the least and the
    greatest one there is. -/
theorem meets_boundless_iff {ts : List (List Char)} (h : ∀ token ∈ ts, token = boundless)
    (m : Message) : Meets m ts ↔ 0 ≤ m.seq ∧ m.seq ≤ greatestSeq := by
  have hkeys : ts.filterMap keyText? = [] :=
    List.filterMap_eq_nil_iff.mpr fun token htoken => by rw [h token htoken]; rfl
  have hlower : ts.filterMap lower? = [] :=
    List.filterMap_eq_nil_iff.mpr fun token htoken => by rw [h token htoken]; rfl
  have hupper : ts.filterMap upper? = [] :=
    List.filterMap_eq_nil_iff.mpr fun token htoken => by rw [h token htoken]; rfl
  constructor
  · rintro ⟨-, -, low, high⟩
    rw [hlower] at low
    rw [hupper] at high
    exact ⟨low, high⟩
  · rintro ⟨low, high⟩
    refine ⟨?_, ?_, ?_, ?_⟩
    · -- no token is a plain word
      intro word hword _ hrange
      rw [h word hword] at hrange
      exact nomatch hrange
    · intro text htext
      rw [hkeys] at htext
      exact nomatch htext
    · rw [hlower]
      exact low
    · rw [hupper]
      exact high

/-- A query with such a group accepts every number there is, whatever its
    other groups ask for. -/
theorem anyAccepts_of_asksForAnything {raw : String} {spec : List Clause}
    (parsed : parse raw = .ok (.filter spec))
    (anything : ∃ group ∈ groupTexts raw, AsksForAnything group) {m : Message}
    (low : 0 ≤ m.seq) (high : m.seq ≤ greatestSeq) : anyAccepts spec m = true := by
  obtain ⟨group, hgroup, hsome, honly⟩ := anything
  refine (anyAccepts_of_parse parsed m).mpr ⟨group, hgroup, ?_, ?_⟩
  · by_contra hnone
    refine hsome ((tokens_eq_nil_iff group).mpr ?_)
    intro c hc
    by_contra hblank
    exact hnone ⟨c, hc, Bool.eq_false_iff.mpr hblank⟩
  · exact (meets_boundless_iff honly m).mpr ⟨low, high⟩

end Query

namespace Buffer

variable {b : Buffer} {spec : List Clause}

/-- A walk that accepts everything goes backwards through the newest end of
    the buffer. -/
theorem find_eq_reverse (accepted : ∀ m ∈ b.toList, anyAccepts spec m = true) (limit : Nat) :
    b.find limit (.filter spec) = (b.find limit .all).reverse := by
  have hall : b.toList.reverse.filter (anyAccepts spec) = b.toList.reverse :=
    List.filter_eq_self.mpr fun m hm => accepted m (List.mem_reverse.mp hm)
  have hskipped : b.size - min b.size limit = b.toList.length - limit := by
    rw [length_toList]
    omega
  rw [find, find, hall, hskipped, List.take_reverse]

end Buffer

namespace Store

open Query

variable {settings : StoreSettings} {t : Trace} {s : System}

/-- **EVERYTHING, EITHER WAY**: in every state that a run comes to, as long
    as no message has a number beyond the greatest one there is, and for
    every size of a reply, a text with a group of nothing but `#-` is
    answered like a blank one or a star, only that the messages come in the
    opposite order: the counters agree, and so does the tally. -/
theorem everything_either_way (run : Run settings t s)
    (numbers : ∀ m ∈ s.buffer.toList, m.seq ≤ greatestSeq) {raw all : String}
    {spec : List Clause} (parsed : parse raw = .ok (.filter spec))
    (anything : ∃ group ∈ groupTexts raw, AsksForAnything group)
    (plain : (∀ c ∈ all.toList, Text.isBlank c = true) ∨ all = "*") :
    ∃ q, parse all = .ok q
      ∧ ∀ limit : Nat,
        (s.buffer.reply limit (.query (.filter spec))).messages
            = (s.buffer.reply limit (.query q)).messages.reverse
          ∧ (s.buffer.reply limit (.query (.filter spec))).totalReceived
            = (s.buffer.reply limit (.query q)).totalReceived
          ∧ (s.buffer.reply limit (.query (.filter spec))).buffered
            = (s.buffer.reply limit (.query q)).buffered
          ∧ (s.buffer.reply limit (.query (.filter spec))).frequencies
            = (s.buffer.reply limit (.query q)).frequencies := by
  refine ⟨.all, (parse_eq_all_iff all).mpr ((asksForAll_iff all).mpr plain), ?_⟩
  intro limit
  have hmessages : (s.buffer.reply limit (.query (.filter spec))).messages
      = (s.buffer.reply limit (.query .all)).messages.reverse := by
    refine Buffer.find_eq_reverse ?_ limit
    intro m hm
    exact anyAccepts_of_asksForAnything parsed anything (run.numbered_buffer.seq_nonneg hm)
      (numbers m hm)
  refine ⟨hmessages, rfl, rfl, ?_⟩
  rw [Reply.frequencies, Reply.frequencies, hmessages, List.map_reverse]
  exact Tally.ofKeys_perm (List.reverse_perm _)

/-- Beside a group that no message meets, and with room for two of three
    messages in a reply. -/
theorem everything_either_way_capped :
    Run narrow queryingRun.1 queryingRun.2
      ∧ (∀ m ∈ queryingRun.2.buffer.toList, m.seq ≤ greatestSeq)
      ∧ ∃ spec q, parse "x key:k #7-9,#- #-" = .ok (.filter spec) ∧ parse " " = .ok q
          ∧ AsksForAnything ['#', '-', ' ', '#', '-']
          ∧ (queryingRun.2.buffer.find 2 q).map Message.seq = [2, 3]
          ∧ (queryingRun.2.buffer.find 2 (.filter spec)).map Message.seq = [3, 2]
          ∧ (queryingRun.2.buffer.reply 2 (.query (.filter spec))).frequencies
            = (queryingRun.2.buffer.reply 2 (.query q)).frequencies := by
  have hrun : Run narrow queryingRun.1 queryingRun.2 := Run.of_play (by decide)
  have hgroup : AsksForAnything ['#', '-', ' ', '#', '-'] := ⟨by decide, by decide⟩
  have hmem : ['#', '-', ' ', '#', '-'] ∈ groupTexts "x key:k #7-9,#- #-" :=
    List.mem_of_getLast? rfl
  obtain ⟨spec, hspec⟩ : ∃ spec, parse "x key:k #7-9,#- #-" = .ok (.filter spec) := ⟨_, rfl⟩
  obtain ⟨q, hq, hsame⟩ := everything_either_way hrun fits_queryingRun hspec ⟨_, hmem, hgroup⟩
    ((asksForAll_iff " ").mp rfl)
  obtain ⟨hmessages, -, -, hfrequencies⟩ := hsame 2
  have hwindow : (queryingRun.2.buffer.find 2 q).map Message.seq = [2, 3] := by
    obtain rfl : Query.all = q := Except.ok.inj hq
    rfl
  refine ⟨hrun, fits_queryingRun, spec, q, hspec, hq, hgroup, hwindow, ?_, hfrequencies⟩
  have hscanned : queryingRun.2.buffer.find 2 (.filter spec)
      = (queryingRun.2.buffer.find 2 q).reverse := hmessages
  rw [hscanned, List.map_reverse, hwindow]
  rfl

end Store

end BusWindow
