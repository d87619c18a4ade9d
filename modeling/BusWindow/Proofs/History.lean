import Mathlib.Data.List.DropRight
import Mathlib.Data.List.Induction
import BusWindow.Store.Buffer

/-!
# Histories — the buffer as a window on everything that came in

    The buffer is a function of the work done on it since it was made: the
    records taken in and the demands answered, in order. Out of the whole
    work, `history` makes the list of all messages there have ever been, and
    `clearedAt` the count of those that the last clearing swept away.

    * `toList_perform_ingest` and `toList_perform_answer` say what one piece
      of work does to the window;
    * `window_performAll` puts them together: after any work, the buffer is
      the last `min capacity (n - clearedAt)` of the `n` messages of the
      history, and the counter is `n`.
-/

namespace BusWindow

/-- What is picked out of a list that has one element more. -/
theorem filterMap_concat {α β : Type} (f : α → Option β) (l : List α) (x : α) :
    (l ++ [x]).filterMap f = l.filterMap f ++ (f x).toList := by
  rw [List.filterMap_append]
  cases h : f x with
  | none => simp [h]
  | some b => simp [h]

/-- A piece of work that the owner of a buffer does on it. -/
inductive Work where
  | ingest (arrival : Timestamp) (record : Record)
  | answer (demand : Demand)
  deriving Repr

namespace Work

/-- The record that a piece of work takes in, with the time of its arrival. -/
def record? : Work → Option (Timestamp × Record)
  | .ingest arrival r => some (arrival, r)
  | .answer _ => none

/-- Whether a piece of work empties the buffer. -/
def clears : Work → Bool
  | .answer .clear => true
  | _ => false

/-- All records that some work takes in, in order. -/
def records (works : List Work) : List (Timestamp × Record) := works.filterMap record?

/-- All messages there have ever been: each record carries its place among
    all records as its number. -/
def history (works : List Work) : List Message :=
  (records works).mapIdx fun i p => ⟨i, p.1, p.2⟩

/-- How many records came in before the last clearing; none if there was no
    clearing. -/
def clearedAt (works : List Work) : Nat :=
  (records (works.rdropWhile fun w => !w.clears)).length

theorem records_concat (works : List Work) (w : Work) :
    records (works ++ [w]) = records works ++ w.record?.toList :=
  filterMap_concat _ _ _

@[simp] theorem length_history (works : List Work) :
    (history works).length = (records works).length := by
  simp [history]

/-- A record that comes in is numbered by those before it. -/
theorem history_concat_ingest (works : List Work) (arrival : Timestamp) (r : Record) :
    history (works ++ [.ingest arrival r])
      = history works ++ [⟨(records works).length, arrival, r⟩] := by
  simp [history, records_concat, record?, List.mapIdx_append]

/-- An answer adds nothing to the history. -/
theorem history_concat_answer (works : List Work) (d : Demand) :
    history (works ++ [.answer d]) = history works := by
  simp [history, records_concat, record?]

/-- The message with a number stands at that place in the history. -/
theorem getElem?_history {works : List Work} {i : Nat} {m : Message}
    (h : (history works)[i]? = some m) : m.seq = i := by
  rw [history, List.getElem?_mapIdx] at h
  obtain ⟨p, -, rfl⟩ := Option.map_eq_some_iff.mp h
  rfl

theorem map_seq_history (works : List Work) :
    (history works).map Message.seq
      = (List.range (records works).length).map fun i : Nat => (i : Int) := by
  refine List.ext_getElem (by simp) ?_
  intro i h₁ h₂
  simp [history]

/-- Two messages of one history with the same number are the same message. -/
theorem eq_of_seq_eq {works : List Work} {m m' : Message} (hm : m ∈ history works)
    (hm' : m' ∈ history works) (h : m.seq = m'.seq) : m = m' := by
  obtain ⟨i, hi⟩ := List.mem_iff_getElem?.mp hm
  obtain ⟨j, hj⟩ := List.mem_iff_getElem?.mp hm'
  have hij : i = j := by
    rw [getElem?_history hi, getElem?_history hj] at h
    exact Int.ofNat.inj h
  subst hij
  exact Option.some.inj (hi.symm.trans hj)

/-- More work only makes the history longer. -/
theorem history_grows (works more : List Work) :
    history works <+: history (works ++ more) := by
  show (records works).mapIdx _ <+: (records (works ++ more)).mapIdx _
  rw [records, records, List.filterMap_append, List.mapIdx_append]
  exact List.prefix_append _ _

/-- What came before a clearing is cleared. -/
theorem clearedAt_concat_clear (works : List Work) :
    clearedAt (works ++ [.answer .clear]) = (records works).length := by
  rw [clearedAt, List.rdropWhile_concat_neg _ _ _ (by decide), records_concat]
  simp [record?]

/-- Any other work leaves the mark where it was. -/
theorem clearedAt_concat_other (works : List Work) {w : Work} (h : w.clears = false) :
    clearedAt (works ++ [w]) = clearedAt works := by
  rw [clearedAt, List.rdropWhile_concat_pos _ _ _ (by simp [h])]
  rfl

/-- No more records can have been swept away than came in. -/
theorem clearedAt_le (works : List Work) : clearedAt works ≤ (records works).length := by
  have hpre : works.rdropWhile (fun w => !w.clears) <+: works := List.rdropWhile_prefix _ _
  exact (hpre.filterMap record?).length_le

end Work

namespace Buffer

open Work

/-- Does a piece of work on a buffer. -/
def perform (b : Buffer) : Work → Buffer
  | .ingest arrival r => b.add arrival r
  | .answer d => b.after d

/-- Does some work on a buffer, in order. -/
def performAll (b : Buffer) (works : List Work) : Buffer := works.foldl perform b

@[simp] theorem performAll_nil (b : Buffer) : b.performAll [] = b := rfl

theorem performAll_concat (b : Buffer) (works : List Work) (w : Work) :
    b.performAll (works ++ [w]) = (b.performAll works).perform w :=
  List.foldl_concat ..

/-! ## What one piece of work does -/

theorem length_toList (b : Buffer) : b.toList.length = b.size := Fifo.length_toList _

/-- Only clearing changes the buffer; every other demand is a reading. -/
theorem after_of_ne_clear (b : Buffer) {d : Demand} (h : d ≠ .clear) : b.after d = b := by
  cases d with
  | clear => exact absurd rfl h
  | query q => rfl
  | dump => rfl
  | stats => rfl

@[simp] theorem capacity_perform (b : Buffer) (w : Work) :
    (b.perform w).capacity = b.capacity := by
  cases w with
  | ingest arrival r => rfl
  | answer d => cases d <;> rfl

/-- The counter counts records, and nothing else. -/
theorem received_perform (b : Buffer) (w : Work) :
    (b.perform w).received = b.received + w.record?.toList.length := by
  cases w with
  | ingest arrival r => rfl
  | answer d => cases d <;> rfl

/-- Taking in a record puts one message at the end, and the first one leaves
    when there is no room for both. -/
theorem toList_perform_ingest (b : Buffer) (arrival : Timestamp) (r : Record) :
    (b.perform (.ingest arrival r)).toList
      = if b.capacity < b.size + 1 then (b.toList ++ [b.message arrival r]).tail
        else b.toList ++ [b.message arrival r] := by
  show (if b.capacity < b.size + 1 then (b.messages.push (b.message arrival r)).dropFirst
    else b.messages.push (b.message arrival r)).toList = _
  by_cases hfull : b.capacity < b.size + 1
  · rw [if_pos hfull, if_pos hfull, Fifo.toList_dropFirst, Fifo.toList_push]
    rfl
  · rw [if_neg hfull, if_neg hfull, Fifo.toList_push]
    rfl

/-- An answer leaves the buffer as it is, unless it clears. -/
theorem toList_perform_answer (b : Buffer) (d : Demand) :
    (b.perform (.answer d)).toList = if d = .clear then [] else b.toList := by
  by_cases hd : d = .clear
  · rw [if_pos hd, hd]
    rfl
  · rw [if_neg hd]
    show (b.after d).toList = b.toList
    rw [after_of_ne_clear b hd]

@[simp] theorem capacity_performAll (b : Buffer) (works : List Work) :
    (b.performAll works).capacity = b.capacity := by
  induction works using List.reverseRecOn with
  | nil => rfl
  | append_singleton works w ih => rw [performAll_concat, capacity_perform, ih]

/-- Over any work the counter is the number of records. -/
theorem received_performAll (capacity : Nat) (works : List Work) :
    ((empty capacity).performAll works).received = (records works).length := by
  induction works using List.reverseRecOn with
  | nil => rfl
  | append_singleton works w ih =>
      rw [performAll_concat, received_perform, ih, records_concat, List.length_append]

/-! ## The window -/

/-- The last elements of a list, one fewer: the first of them goes. -/
private theorem tail_rtake {α : Type} (l : List α) {k : Nat} (h : k + 1 ≤ l.length) :
    (l.rtake (k + 1)).tail = l.rtake k := by
  rw [List.rtake, List.tail_drop]
  congr 1
  omega

private theorem length_rtake {α : Type} (l : List α) {k : Nat} (h : k ≤ l.length) :
    (l.rtake k).length = k := by
  rw [List.rtake, List.length_drop]
  omega

/-- A window on the last `k` elements of a list, but no more than `c`, moves
    on by one element. -/
private theorem rtake_move {α : Type} (l : List α) (x : α) (c : Nat) {k : Nat}
    (h : k ≤ l.length) :
    (if c < min c k + 1 then (l.rtake (min c k) ++ [x]).tail else l.rtake (min c k) ++ [x])
      = (l ++ [x]).rtake (min c (k + 1)) := by
  have hlength : (l ++ [x]).length = l.length + 1 := List.length_append
  rw [← List.rtake_concat_succ]
  by_cases hfull : c < min c k + 1
  · -- the window was full, and its first element leaves
    rw [if_pos hfull, tail_rtake _ (by omega)]
    congr 1
    omega
  · rw [if_neg hfull]
    congr 1
    omega

/-- After any work, the buffer holds the last messages of the history: all
    those since the last clearing, or as many as there is room for. -/
theorem toList_performAll (capacity : Nat) (works : List Work) :
    ((empty capacity).performAll works).toList
      = (history works).rtake (min capacity ((records works).length - clearedAt works)) := by
  induction works using List.reverseRecOn with
  | nil => simp [history, records, Buffer.toList, empty]
  | append_singleton works w ih =>
      rw [performAll_concat]
      have hcleared := clearedAt_le works
      have hcap : ((empty capacity).performAll works).capacity = capacity :=
        capacity_performAll _ _
      cases w with
      | ingest arrival r =>
          have hlength : (records works).length - clearedAt works ≤ (history works).length := by
            rw [length_history]
            omega
          -- the size before is the length of the window before
          have hsize : ((empty capacity).performAll works).size
              = min capacity ((records works).length - clearedAt works) := by
            rw [← length_toList, ih, length_rtake _ (by omega)]
          have hmsg : ((empty capacity).performAll works).message arrival r
              = ⟨(records works).length, arrival, r⟩ := by
            rw [message, received_performAll]
          have hcount : (records (works ++ [.ingest arrival r])).length
                - clearedAt (works ++ [.ingest arrival r])
              = (records works).length - clearedAt works + 1 := by
            rw [clearedAt_concat_other works (w := .ingest arrival r) rfl, records_concat,
              List.length_append]
            show (records works).length + 1 - clearedAt works = _
            omega
          rw [toList_perform_ingest, hcap, hsize, ih, hmsg, rtake_move _ _ _ hlength,
            history_concat_ingest, hcount]
      | answer d =>
          rw [toList_perform_answer, history_concat_answer, records_concat]
          by_cases hd : d = .clear
          · -- everything that came in before is swept away
            subst hd
            rw [if_pos rfl, clearedAt_concat_clear]
            simp [record?]
          · have hkeep : (Work.answer d).clears = false := by
              cases d with
              | clear => exact absurd rfl hd
              | query q => rfl
              | dump => rfl
              | stats => rfl
            rw [if_neg hd, ih, clearedAt_concat_other works hkeep]
            simp [record?]

/-- What the buffer holds is part of the history. -/
theorem mem_history_of_mem {capacity : Nat} {works : List Work} {m : Message}
    (h : m ∈ ((empty capacity).performAll works).toList) : m ∈ history works := by
  rw [toList_performAll] at h
  exact List.mem_of_mem_drop h

/-- The buffer holds as much of what came since the last clearing as it has
    room for. -/
theorem size_performAll (capacity : Nat) (works : List Work) :
    ((empty capacity).performAll works).size
      = min capacity ((records works).length - clearedAt works) := by
  rw [← length_toList, toList_performAll, length_rtake _ (by rw [length_history]; omega)]

/-- The numbers in the buffer ascend one by one and end at the last number
    that was given away. -/
theorem map_seq_performAll (capacity : Nat) (works : List Work) :
    ((empty capacity).performAll works).toList.map Message.seq
      = (List.range' ((records works).length
            - min capacity ((records works).length - clearedAt works))
          (min capacity ((records works).length - clearedAt works))).map
        fun i : Nat => (i : Int) := by
  rw [toList_performAll, List.rtake, List.map_drop, map_seq_history, ← List.map_drop,
    List.range_eq_range', List.drop_range', length_history]
  congr 2 <;> omega

/-- **THE BUFFER REFINES THE HISTORY**: whatever work was done on a new
    buffer, it holds the last messages of the history, numbered as they came
    in, as many as came since the last clearing or as there is room for. The
    count and the numbers are never set back, and every demand but clearing
    is a mere reading that reports both counters. -/
theorem window_performAll (capacity limit : Nat) (works : List Work) :
    let b := (empty capacity).performAll works
    let n := (records works).length
    let kept := min capacity (n - clearedAt works)
    b.received = n
      ∧ b.toList = (history works).rtake kept
      ∧ b.toList.map Message.seq = (List.range' (n - kept) kept).map (fun i : Nat => (i : Int))
      ∧ (∀ more, ∀ m ∈ b.toList, ∀ m' ∈ ((empty capacity).performAll (works ++ more)).toList,
          m.seq = m'.seq → m = m')
      ∧ b.size = kept ∧ b.size ≤ capacity
      ∧ (∀ d, d ≠ .clear → b.perform (.answer d) = b)
      ∧ ∀ d, (b.reply limit d).totalReceived = n ∧ (b.reply limit d).buffered = kept := by
  intro b n kept
  have hreceived : b.received = n := received_performAll capacity works
  have hsize : b.size = kept := size_performAll capacity works
  refine ⟨hreceived, toList_performAll capacity works, map_seq_performAll capacity works,
    ?_, hsize, ?_, ?_, ?_⟩
  · intro more m hm m' hm' heq
    have hlater : m ∈ history (works ++ more) :=
      (history_grows works more).subset (mem_history_of_mem hm)
    exact eq_of_seq_eq hlater (mem_history_of_mem hm') heq
  · rw [hsize]
    exact Nat.min_le_left _ _
  · intro d hd
    exact after_of_ne_clear b hd
  · intro d
    refine ⟨?_, hsize⟩
    show (b.received : Int) = n
    rw [hreceived]

end Buffer

end BusWindow
