import Mathlib.Data.List.Sort
import BusWindow.Proofs.QueryMeaning
import BusWindow.Proofs.Results

/-!
# Pages — ranges of numbers, and a client that pages through the buffer

    A query for a range finds the messages whose numbers lie in it, the
    newest first. The numbers in the buffer leave no gap, so the numbers that
    are found leave none either, and a client that asks for what is older
    than the last thing it saw comes down to the oldest message without
    missing or repeating any.

    * `parse_rangeText` says how the text of a range is understood, whatever
      zeros its numbers are written with;
    * `findText_rangeText` and `Numbered.map_seq_filter` are what a range finds;
    * `Pages` is the client, `Pages.unique` says that it has no choice, and
      `Numbered.exists_pages` that it comes to an end, by induction on the
      bound below which it asks;
    * `ranges_page_through` is the whole statement.
-/

namespace BusWindow

/-! ## The text of a range -/

/-- A sequence number as it is written in a query: in decimal, behind any
    number of zeros. -/
structure Numeral where
  zeros : Nat
  value : Nat
  fits : (value : Int) ≤ greatestSeq

namespace Numeral

/-- The characters of a number. -/
def text (n : Numeral) : List Char := List.replicate n.zeros '0' ++ Nat.toDigits 10 n.value

theorem isDigit_of_mem_text {n : Numeral} {c : Char} (h : c ∈ n.text) : c.isDigit = true := by
  rcases List.mem_append.mp h with hzero | hdigit
  · rw [List.eq_of_mem_replicate hzero]
    rfl
  · exact Nat.isDigit_of_mem_toDigits (by decide) (by decide) hdigit

/-- The zeros in front do not change the number. -/
theorem decimal_text (n : Numeral) : Token.decimal n.text = n.value := by
  rw [Token.decimal_eq_ofDigitChars, text, Nat.ofDigitChars_append,
    Nat.ofDigitChars_replicate_zero, Nat.mul_zero, Nat.ofDigitChars_ten_toDigits]

theorem text_ne_nil (n : Numeral) : n.text ≠ [] := by
  intro h
  exact Nat.toDigits_ne_nil (List.append_eq_nil_iff.mp h).2

end Numeral

namespace Query

/-- The characters of a bound that may be left out. -/
def boundText (bound : Option Numeral) : List Char := bound.elim [] Numeral.text

/-- The query for the messages from one number to another. -/
def rangeText (low high : Option Numeral) : String :=
  String.ofList ('#' :: (boundText low ++ '-' :: boundText high))

theorem isDigit_of_mem_boundText {bound : Option Numeral} {c : Char} (h : c ∈ boundText bound) :
    c.isDigit = true := by
  cases bound with
  | none => exact nomatch h
  | some n => exact Numeral.isDigit_of_mem_text h

theorem bound_boundText (bound : Option Numeral) :
    Token.bound (boundText bound) = some (bound.map fun n => (n.value : Int)) := by
  cases bound with
  | none => rfl
  | some n =>
      have hall : n.text.all Token.isDigit = true :=
        List.all_eq_true.mpr fun c hc => Numeral.isDigit_of_mem_text hc
      have hempty : n.text.isEmpty = false := by
        rw [Bool.eq_false_iff]
        exact mt List.isEmpty_iff.mp n.text_ne_nil
      show Token.bound n.text = some (some (n.value : Int))
      rw [Token.bound, n.decimal_text, hall, hempty, decide_eq_true n.fits]
      rfl

/-- The first hyphen of a range stands between its bounds. -/
theorem span_bounds (low high : Option Numeral) :
    (boundText low ++ '-' :: boundText high).span (· != '-')
      = (boundText low, '-' :: boundText high) :=
  Token.span_hyphen (fun h => nomatch isDigit_of_mem_boundText h) _

theorem classify_range (low high : Option Numeral) :
    Token.classify ('#' :: (boundText low ++ '-' :: boundText high))
      = .ok (.range (low.map fun n => (n.value : Int)) (high.map fun n => (n.value : Int))) := by
  simp only [Token.classify, span_bounds, bound_boundText]

/-- A text without blanks and separators is one word of one group. -/
theorem groups_of_word {word : List Char} (ne : word ≠ [])
    (plain : ∀ c ∈ word, Text.isBlank c = false ∧ endsGroup c = false) :
    groups word = [[word]] := by
  have hpieces : word.splitOnP endsGroup = [word] :=
    List.splitOnP_eq_singleton fun c hc => (plain c hc).2
  have hwords : Text.words word = [word] := by
    rw [words_eq_tokens, tokens, List.splitOnP_eq_singleton fun c hc => (plain c hc).1]
    simp [ne]
  rw [groups, Text.pieces_eq_splitOnP, hpieces, List.map_singleton, hwords]
  rfl

/-- No character of a range is blank or a separator. -/
theorem plain_of_mem_range {low high : Option Numeral} {c : Char}
    (h : c ∈ '#' :: (boundText low ++ '-' :: boundText high)) :
    Text.isBlank c = false ∧ endsGroup c = false := by
  have hdigit (hc : c.isDigit = true) : Text.isBlank c = false ∧ endsGroup c = false := by
    refine ⟨Text.isBlank_of_isDigit hc, ?_⟩
    rw [endsGroup, Bool.or_eq_false_iff, beq_eq_false_iff_ne, beq_eq_false_iff_ne]
    constructor
    · rintro rfl
      exact nomatch hc
    · rintro rfl
      exact nomatch hc
  rcases List.mem_cons.mp h with rfl | h
  · decide
  · rcases List.mem_append.mp h with hlow | h
    · exact hdigit (isDigit_of_mem_boundText hlow)
    · rcases List.mem_cons.mp h with rfl | hhigh
      · decide
      · exact hdigit (isDigit_of_mem_boundText hhigh)

/-- The clause that asks for a range and nothing else. -/
def range (low high : Option Numeral) : Clause where
  low := low.elim 0 fun n => n.value
  high := high.elim greatestSeq fun n => n.value

/-- How the text of a range is understood. -/
theorem parse_rangeText (low high : Option Numeral) :
    parse (rangeText low high) = .ok (.filter [range low high]) := by
  have hall : ¬ asksForAll (rangeText low high).toList = true := by
    rw [asksForAll_iff]
    rintro (hblank | hstar)
    · rw [rangeText, String.toList_ofList] at hblank
      exact nomatch hblank '#' List.mem_cons_self
    · have hhead := congrArg (fun raw : String => raw.toList.head?) hstar
      rw [rangeText, String.toList_ofList] at hhead
      exact nomatch hhead
  have hwords : Clause.ofWords {} ['#' :: (boundText low ++ '-' :: boundText high)]
      = .ok (range low high) := by
    simp only [Clause.ofWords, classify_range]
    cases low with
    | none => cases high <;> rfl
    | some n => cases high <;> rfl
  rw [parse, if_neg hall, rangeText, String.toList_ofList,
    groups_of_word (List.cons_ne_nil _ _) fun c hc => plain_of_mem_range hc]
  simp only [clauses, hwords]
  rfl

/-- The text by which a client asks for everything up to a number. -/
theorem rangeText_up_to {n : Nat} (fits : (n : Int) ≤ greatestSeq) :
    "#-" ++ toString n = rangeText none (some ⟨0, n, fits⟩) := by
  rw [← String.toList_inj, String.toList_append, Nat.toString_eq_ofList_toDigits]
  simp [rangeText, boundText, Numeral.text]

end Query

/-! ## What a range finds -/

/-- The numbers from one down to another; none when the first is less. -/
def downTo (high low : Int) : List Int :=
  (List.range (high + 1 - low).toNat).map fun i : Nat => high - i

theorem mem_downTo {high low n : Int} : n ∈ downTo high low ↔ low ≤ n ∧ n ≤ high := by
  rw [downTo, List.mem_map]
  constructor
  · rintro ⟨i, hi, rfl⟩
    rw [List.mem_range] at hi
    omega
  · rintro ⟨hlow, hhigh⟩
    refine ⟨(high - n).toNat, List.mem_range.mpr ?_, ?_⟩
    · omega
    · omega

theorem descending_downTo (high low : Int) : (downTo high low).Pairwise (· > ·) := by
  rw [downTo, List.pairwise_map]
  refine List.pairwise_lt_range.imp ?_
  intro i j hlt
  omega

namespace Buffer

variable {b : Buffer}

/-- What a text finds in a buffer. -/
def findText (b : Buffer) (limit : Nat) (raw : String) : Except InvalidRange (List Message) :=
  (Query.parse raw).map fun q => (b.reply limit (.query q)).messages

namespace Numbered

theorem descending (h : b.Numbered) : b.toList.reverse.Pairwise fun m m' => m'.seq < m.seq := by
  rw [List.pairwise_reverse]
  exact h.ascending

/-- The numbers in a buffer, the newest first. -/
theorem map_seq_reverse (h : b.Numbered) :
    b.toList.reverse.map Message.seq = downTo (b.received - 1) (b.received - b.size) := by
  have hsorted : (b.toList.reverse.map Message.seq).Pairwise (· > ·) :=
    List.pairwise_map.mpr h.descending
  refine hsorted.eq_of_mem_iff (descending_downTo _ _) ?_
  intro n
  have hsize := h.size_le
  rw [List.map_reverse, List.mem_reverse, h.map_seq, mem_downTo, List.mem_map]
  constructor
  · rintro ⟨i, hi, rfl⟩
    rw [List.mem_range'_1] at hi
    omega
  · rintro ⟨hlow, hhigh⟩
    refine ⟨n.toNat, List.mem_range'_1.mpr ?_, ?_⟩
    · omega
    · omega

end Numbered

/-- A range finds the newest messages with a number in it. -/
theorem findText_rangeText (b : Buffer) (limit : Nat) (low high : Option Numeral) :
    b.findText limit (Query.rangeText low high)
      = .ok ((b.toList.reverse.filter fun m =>
          decide ((Query.range low high).low ≤ m.seq)
            && decide (m.seq ≤ (Query.range low high).high)).take limit) := by
  rw [findText, Query.parse_rangeText]
  show Except.ok ((b.toList.reverse.filter (anyAccepts [Query.range low high])).take limit) = _
  congr 3
  funext m
  show (((decide _ && decide _) && true && true) || false) = _
  rw [Bool.or_false, Bool.and_true, Bool.and_true]

/-- The numbers that a range finds are those in the buffer that lie in it,
    from the upper end down. -/
theorem Numbered.map_seq_filter (h : b.Numbered) (low high : Int) :
    (b.toList.reverse.filter fun m => decide (low ≤ m.seq) && decide (m.seq ≤ high)).map Message.seq
      = downTo (min high (b.received - 1)) (max low (b.received - b.size)) := by
  have hfilter :
      (b.toList.reverse.filter fun m => decide (low ≤ m.seq) && decide (m.seq ≤ high)).map
          Message.seq
      = (downTo (b.received - 1) (b.received - b.size)).filter fun n =>
          decide (low ≤ n) && decide (n ≤ high) := by
    rw [← h.map_seq_reverse, List.filter_map]
    rfl
  rw [hfilter]
  refine List.Pairwise.eq_of_mem_iff ((descending_downTo _ _).filter _) (descending_downTo _ _) ?_
  intro n
  simp only [List.mem_filter, mem_downTo, Bool.and_eq_true, decide_eq_true_iff]
  omega

/-! ## Page after page -/

/-- The messages with a number below a bound, the newest first. -/
def below (b : Buffer) (bound : Int) : List Message :=
  b.toList.reverse.filter fun m => decide (m.seq < bound)

theorem mem_below {bound : Int} {m : Message} :
    m ∈ b.below bound ↔ m ∈ b.toList ∧ m.seq < bound := by
  rw [below, List.mem_filter, List.mem_reverse, decide_eq_true_iff]

theorem Numbered.descending_below (h : b.Numbered) (bound : Int) :
    (b.below bound).Pairwise fun m m' => m'.seq < m.seq := h.descending.filter _

theorem Numbered.below_received (h : b.Numbered) : b.below b.received = b.toList.reverse := by
  rw [below, List.filter_eq_self]
  intro m hm
  have hmem : m.seq ∈ b.toList.reverse.map Message.seq := List.mem_map_of_mem hm
  rw [h.map_seq_reverse, mem_downTo] at hmem
  exact decide_eq_true (by omega)

/-- A lower bound cuts the older end off. -/
theorem below_eq_filter {bound bound' : Int} (le : bound' ≤ bound) :
    b.below bound' = (b.below bound).filter fun m => decide (m.seq < bound') := by
  rw [below, below, List.filter_filter]
  refine List.filter_congr ?_
  intro m _
  rw [← Bool.decide_and, decide_eq_decide]
  omega

/-- What is asked for up to a number is found. -/
theorem Numbered.findText_up_to (h : b.Numbered) (limit : Nat) {n : Nat}
    (fits : (n : Int) ≤ greatestSeq) :
    b.findText limit ("#-" ++ toString n) = .ok ((b.below (n + 1 : Nat)).take limit) := by
  rw [Query.rangeText_up_to fits, findText_rangeText]
  congr 2
  refine List.filter_congr ?_
  intro m hm
  have hnonneg := h.seq_nonneg (List.mem_reverse.mp hm)
  show (decide (0 ≤ m.seq) && decide (m.seq ≤ (n : Int))) = decide (m.seq < ((n + 1 : Nat) : Int))
  rw [← Bool.decide_and, decide_eq_decide]
  omega

/-- Both bounds left out, everything is asked for. -/
theorem Numbered.findText_start (h : b.Numbered) (limit : Nat)
    (numbers : ∀ m ∈ b.toList, m.seq ≤ greatestSeq) :
    b.findText limit "#-" = .ok ((b.below b.received).take limit) := by
  have hstart : "#-" = Query.rangeText none none := rfl
  rw [hstart, findText_rangeText, h.below_received]
  congr 2
  rw [List.filter_eq_self]
  intro m hm
  rw [List.mem_reverse] at hm
  show (decide (0 ≤ m.seq) && decide (m.seq ≤ greatestSeq)) = true
  rw [decide_eq_true (h.seq_nonneg hm), decide_eq_true (numbers m hm)]
  rfl

/-- A client that asks once, and then again and again for everything that is
    older than the oldest message it has just got, until it gets nothing or
    has got the message with the number zero. -/
inductive Pages (b : Buffer) (limit : Nat) : String → List (List Message) → Prop where
  | last {raw : String} {page : List Message} (found : b.findText limit raw = .ok page)
      (ended : page = [] ∨ (page.map Message.seq).min? = some 0) : Pages b limit raw [page]
  | more {raw : String} {page : List Message} {pages : List (List Message)} {n : Nat}
      (found : b.findText limit raw = .ok page)
      (oldest : (page.map Message.seq).min? = some ((n + 1 : Nat) : Int))
      (rest : Pages b limit ("#-" ++ toString n) pages) : Pages b limit raw (page :: pages)

/-- The client has no choice. -/
theorem Pages.unique {limit : Nat} {raw : String} {pages pages' : List (List Message)}
    (h : Pages b limit raw pages) (h' : Pages b limit raw pages') : pages' = pages := by
  induction h generalizing pages' with
  | @last raw page found ended =>
      cases h' with
      | last found' => rw [Except.ok.inj (found'.symm.trans found)]
      | more found' oldest' =>
          obtain rfl := Except.ok.inj (found.symm.trans found')
          rcases ended with rfl | hzero
          · exact nomatch oldest'
          · have heq := Option.some.inj (hzero.symm.trans oldest')
            omega
  | @more raw page pages n found oldest rest ih =>
      cases h' with
      | last found' ended' =>
          obtain rfl := Except.ok.inj (found.symm.trans found')
          rcases ended' with rfl | hzero
          · exact nomatch oldest
          · have heq := Option.some.inj (hzero.symm.trans oldest)
            omega
      | @more _ page' pages' n' found' oldest' rest' =>
          obtain rfl := Except.ok.inj (found.symm.trans found')
          have heq := Option.some.inj (oldest.symm.trans oldest')
          obtain rfl : n = n' := by omega
          rw [ih rest']

/-- What a page leaves for the next one: everything older than its oldest
    message. -/
theorem Numbered.below_oldest (h : b.Numbered) {limit : Nat} {bound : Int} {m : Message}
    (hm : m ∈ (b.below bound).take limit)
    (oldest : ∀ m' ∈ (b.below bound).take limit, m.seq ≤ m'.seq) :
    b.below m.seq = (b.below bound).drop limit := by
  have hsplit : (b.below bound).take limit ++ (b.below bound).drop limit = b.below bound :=
    List.take_append_drop ..
  have hsorted := h.descending_below bound
  rw [← hsplit, List.pairwise_append] at hsorted
  have hlt := (mem_below.mp (List.mem_of_mem_take hm)).2
  have hpage : ((b.below bound).take limit).filter (fun m' => decide (m'.seq < m.seq)) = [] := by
    rw [List.filter_eq_nil_iff]
    intro m' hm'
    rw [decide_eq_true_iff]
    exact Int.not_lt.mpr (oldest m' hm')
  have hrest : ((b.below bound).drop limit).filter (fun m' => decide (m'.seq < m.seq))
      = (b.below bound).drop limit := by
    rw [List.filter_eq_self]
    intro m' hm'
    exact decide_eq_true (hsorted.2.2 m hm m' hm')
  rw [below_eq_filter (Int.le_of_lt hlt), ← hsplit, List.filter_append, hpage, hrest, hsplit,
    List.nil_append]

/-- Whatever lies below the bound comes, page after page, and the client comes
    to an end: with each page its bound falls. -/
theorem Numbered.exists_pages (h : b.Numbered) {limit : Nat} (pos : 0 < limit)
    (numbers : ∀ m ∈ b.toList, m.seq ≤ greatestSeq) {bound : Nat} {raw : String}
    (found : b.findText limit raw = .ok ((b.below bound).take limit)) :
    ∃ pages, Pages b limit raw pages ∧ pages.flatten = b.below bound := by
  induction bound using Nat.strong_induction_on generalizing raw with
  | _ bound ih =>
      have hsplit : (b.below bound).take limit ++ (b.below bound).drop limit = b.below bound :=
        List.take_append_drop ..
      cases hmin : (((b.below bound).take limit).map Message.seq).min? with
      | none =>
          -- there is room in the reply, so nothing was found because there is nothing
          have hpage : (b.below bound).take limit = [] :=
            List.map_eq_nil_iff.mp (List.min?_eq_none_iff.mp hmin)
          refine ⟨_, .last found (Or.inl hpage), ?_⟩
          rcases List.take_eq_nil_iff.mp hpage with hlimit | hbelow
          · omega
          · rw [hbelow, List.take_nil]
            rfl
      | some least =>
          obtain ⟨hmem, hleast⟩ := List.min?_eq_some_iff.mp hmin
          obtain ⟨m, hm, rfl⟩ := List.mem_map.mp hmem
          obtain ⟨hkept, hlt⟩ := mem_below.mp (List.mem_of_mem_take hm)
          have hrest : b.below m.seq = (b.below bound).drop limit :=
            h.below_oldest hm fun m' hm' => hleast _ (List.mem_map_of_mem hm')
          obtain ⟨k, hk⟩ := Int.eq_ofNat_of_zero_le (h.seq_nonneg hkept)
          cases k with
          | zero =>
              -- nothing is older than the message with the number zero
              have hnone : (b.below bound).drop limit = [] := by
                rw [← hrest, List.eq_nil_iff_forall_not_mem]
                intro m' hm'
                obtain ⟨hkept', hlt'⟩ := mem_below.mp hm'
                have hnonneg := h.seq_nonneg hkept'
                omega
              rw [hk] at hmin
              refine ⟨_, .last found (Or.inr hmin), ?_⟩
              rw [hnone, List.append_nil] at hsplit
              rw [hsplit]
              exact List.append_nil _
          | succ n =>
              have hfits := numbers m hkept
              have hnext := h.findText_up_to limit (n := n) (by omega)
              obtain ⟨pages, hpages, hflatten⟩ := ih (n + 1) (by omega) hnext
              rw [hk] at hmin hrest
              refine ⟨_, .more found hmin hpages, ?_⟩
              rw [List.flatten_cons, hflatten, hrest, hsplit]

end Buffer

namespace Store

open Query Buffer

variable {settings : StoreSettings} {t : Trace} {s : System}

/-- **RANGES PAGE THROUGH THE BUFFER**: in every state that a run comes to,
    and for every size of a reply, the text of a range finds the messages
    whose numbers lie in it, the newest first, as many as the reply may hold;
    a lower bound that is left out is zero, and an upper one the greatest
    number there is. So, as long as no message has a number beyond that one,
    a client that begins with `#-` and goes on below the oldest message it
    has got comes to an end, and its pages are the whole buffer, the newest
    first, each message once. -/
theorem ranges_page_through (run : Run settings t s) :
    (∀ (limit : Nat) (low high : Option Numeral),
        ∃ found, s.buffer.findText limit (rangeText low high) = .ok found
          ∧ found.map Message.seq
            = (downTo
                (min (high.elim greatestSeq fun n => n.value) ((s.buffer.received : Int) - 1))
                (max (low.elim 0 fun n => n.value)
                  ((s.buffer.received : Int) - s.buffer.size))).take limit
          ∧ ∀ m ∈ found, m ∈ s.buffer.toList)
      ∧ ((∀ m ∈ s.buffer.toList, m.seq ≤ greatestSeq) → ∀ limit : Nat, 0 < limit →
          ∃ pages, Pages s.buffer limit "#-" pages
            ∧ (∀ pages', Pages s.buffer limit "#-" pages' → pages' = pages)
            ∧ pages.flatten = s.buffer.toList.reverse
            ∧ (pages.flatten.map Message.seq).Nodup) := by
  have hnumbered := run.numbered_buffer
  constructor
  · intro limit low high
    refine ⟨_, findText_rangeText _ limit low high, ?_, ?_⟩
    · rw [List.map_take, hnumbered.map_seq_filter]
      rfl
    · intro m hm
      exact List.mem_reverse.mp (List.mem_of_mem_filter (List.mem_of_mem_take hm))
  · intro numbers limit pos
    obtain ⟨pages, hpages, hflatten⟩ :=
      hnumbered.exists_pages pos numbers (hnumbered.findText_start limit numbers)
    rw [hnumbered.below_received] at hflatten
    refine ⟨pages, hpages, fun pages' hpages' => hpages.unique hpages', hflatten, ?_⟩
    rw [hflatten, List.map_reverse, List.nodup_reverse]
    exact hnumbered.nodup_seq

/-- The first message has left this buffer, so a third page is asked for, and
    it is empty. -/
theorem ranges_page_through_evicted :
    Run narrow queryingRun.1 queryingRun.2
      ∧ (∃ found, queryingRun.2.buffer.findText 2 "#001-7" = .ok found
          ∧ found.map Message.seq = [3, 2])
      ∧ (∀ m ∈ queryingRun.2.buffer.toList, m.seq ≤ greatestSeq)
      ∧ ∃ pages, Pages queryingRun.2.buffer 2 "#-" pages
          ∧ pages.map (fun page => page.map Message.seq) = [[3, 2], [1], []]
          ∧ pages.flatten = queryingRun.2.buffer.toList.reverse := by
  have hrun : Run narrow queryingRun.1 queryingRun.2 := Run.of_play (by decide)
  obtain ⟨hrange, hpages⟩ := ranges_page_through hrun
  obtain ⟨found, hfound, hseq, -⟩ := hrange 2 (some ⟨2, 1, by decide⟩) (some ⟨0, 7, by decide⟩)
  obtain ⟨pages, hclient, honly, hflatten, -⟩ := hpages fits_queryingRun 2 (by decide)
  refine ⟨hrun, ⟨found, hfound, hseq⟩, fits_queryingRun, pages, hclient, ?_, hflatten⟩
  rw [← honly _ (.more rfl rfl (.more rfl rfl (.last rfl (Or.inl rfl))))]
  rfl

end Store

end BusWindow
