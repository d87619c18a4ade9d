/-!
# Queues — first in, first out

    A queue is kept as two lists: what leaves next stands in `front`, what
    came last stands first in `back`. The length is counted along, so asking
    for it costs nothing. `toList` is the queue as a list, the element that
    leaves next first; each operation is described by what it does to it.
-/

namespace BusWindow

/-- A queue of elements with its length. -/
structure Fifo (α : Type) where
  front : List α
  back : List α
  size : Nat
  size_eq : size = front.length + back.length
  deriving Repr

namespace Fifo

variable {α : Type}

/-- The queue that holds nothing. -/
def empty : Fifo α := ⟨[], [], 0, rfl⟩

/-- The elements in the order in which they leave. -/
def toList (q : Fifo α) : List α := q.front ++ q.back.reverse

/-- Adds an element at the end. -/
def push (q : Fifo α) (a : α) : Fifo α :=
  ⟨q.front, a :: q.back, q.size + 1, by simp [q.size_eq]; omega⟩

/-- The queue that holds the elements of a list. -/
def ofList (xs : List α) : Fifo α := ⟨xs, [], xs.length, by simp⟩

/-- Takes the element that leaves next, if there is one. -/
def pop? (q : Fifo α) : Option (α × Fifo α) :=
  match q with
  | ⟨a :: front, back, size, h⟩ => some (a, ⟨front, back, size - 1, by simp at h; omega⟩)
  | ⟨[], back, _, _⟩ =>
    match back.reverse with
    | [] => none
    | a :: front => some (a, ofList front)

/-- The queue without the element that leaves next. -/
def dropFirst (q : Fifo α) : Fifo α :=
  match q.pop? with
  | some (_, rest) => rest
  | none => q

/-- The queue without the elements that fail a test. -/
def filter (q : Fifo α) (keep : α → Bool) : Fifo α := ofList (q.toList.filter keep)

@[simp] theorem toList_empty : (empty : Fifo α).toList = [] := rfl

/-- A new item is the last of the queue. -/
@[simp] theorem toList_push (q : Fifo α) (a : α) :
    (q.push a).toList = q.toList ++ [a] := by
  simp [toList, push]

@[simp] theorem toList_ofList (xs : List α) : (ofList xs).toList = xs := by
  simp [toList, ofList]

@[simp] theorem length_toList (q : Fifo α) : q.toList.length = q.size := by
  simp [toList, q.size_eq]

/-- What is kept stays in its order. -/
@[simp] theorem toList_filter (q : Fifo α) (keep : α → Bool) :
    (q.filter keep).toList = q.toList.filter keep := by
  simp [filter]

/-- What `pop?` takes is the head of the list, and it leaves the tail. -/
theorem pop?_eq_some_iff {q : Fifo α} {a : α} {xs : List α} :
    (∃ r, q.pop? = some (a, r) ∧ r.toList = xs) ↔ q.toList = a :: xs := by
  rcases q with ⟨front, back, size, h⟩
  cases front with
  | cons b front =>
    constructor
    · rintro ⟨r, hr, rfl⟩
      simp only [pop?, Option.some.injEq, Prod.mk.injEq] at hr
      rcases hr with ⟨rfl, rfl⟩
      simp [toList]
    · intro hq
      simp only [toList, List.cons_append, List.cons.injEq] at hq
      rcases hq with ⟨rfl, rfl⟩
      exact ⟨_, rfl, rfl⟩
  | nil =>
    simp only [pop?, toList, List.nil_append]
    cases hb : back.reverse with
    | nil => simp
    | cons b front =>
      constructor
      · rintro ⟨r, hr, rfl⟩
        simp only [Option.some.injEq, Prod.mk.injEq] at hr
        rcases hr with ⟨rfl, rfl⟩
        simp [ofList]
      · intro hq
        simp only [List.cons.injEq] at hq
        rcases hq with ⟨rfl, rfl⟩
        exact ⟨_, rfl, by simp [ofList]⟩

theorem pop?_eq_none_iff {q : Fifo α} : q.pop? = none ↔ q.toList = [] := by
  rcases q with ⟨front, back, size, h⟩
  cases front with
  | cons b front => simp [pop?, toList]
  | nil =>
    simp only [pop?, toList, List.nil_append]
    cases hb : back.reverse with
    | nil => simp
    | cons b front => simp

/-- What is dropped is the oldest item. -/
@[simp] theorem toList_dropFirst (q : Fifo α) : q.dropFirst.toList = q.toList.tail := by
  unfold dropFirst
  cases hq : q.pop? with
  | none => rw [pop?_eq_none_iff.mp hq]; rfl
  | some p =>
    rcases p with ⟨a, r⟩
    rw [pop?_eq_some_iff.mp ⟨r, hq, rfl⟩]
    rfl

end Fifo

end BusWindow
