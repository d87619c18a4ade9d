import Mathlib.Data.List.Nodup
import BusWindow.Store.Mailbox

/-!
# Mailboxes — what is in them, and who stands in line

    A mailbox is seen as two lists: its contents, oldest message first, and
    the line of the senders that have not put their message there yet. Each
    operation is described by what it does to the two. A mailbox is sound
    when no more slots are taken than there are and nobody stands in line
    twice; every operation keeps it so.
-/

namespace BusWindow.Mailbox

variable {α : Type}

/-- The messages in a mailbox, the oldest first. -/
def contents (m : Mailbox α) : List α := m.queue.toList

/-- The senders in line, those who own a slot already first. -/
def line (m : Mailbox α) : List (Nat × α) := m.granted ++ m.waiting.toList

/-- No more slots are taken than there are, and nobody stands in line
    twice. -/
structure Sound (m : Mailbox α) : Prop where
  taken_le : m.taken ≤ m.limit
  nodup : (m.line.map Prod.fst).Nodup

/-- The size that is kept is the number of messages queued. -/
theorem size_queue (m : Mailbox α) : m.queue.size = m.contents.length :=
  (Fifo.length_toList _).symm

/-- A sound mailbox holds no more than it has slots. -/
theorem length_contents_le {m : Mailbox α} (h : m.Sound) : m.contents.length ≤ m.limit := by
  have htaken : m.queue.size + m.granted.length ≤ m.limit := h.taken_le
  rw [size_queue] at htaken
  omega

/-- A new mailbox is sound. -/
theorem sound_empty (limit : Nat) : (empty limit : Mailbox α).Sound := by
  refine ⟨?_, List.nodup_nil⟩
  show 0 ≤ max limit 1
  omega

/-! ## Granting a slot -/

/-- Granting a slot either finds none free and changes nothing, or moves the
    first in line to those that have one. -/
theorem grant_cases (m : Mailbox α) :
    m.grant = m ∨ m.hasRoom = true ∧ ∃ sender rest, m.waiting.toList = sender :: rest.toList
      ∧ m.grant = { m with granted := m.granted ++ [sender], waiting := rest } := by
  rw [grant]
  by_cases hroom : m.hasRoom = true
  · rw [if_pos hroom]
    cases hpop : m.waiting.pop? with
    | none => exact Or.inl rfl
    | some p =>
        obtain ⟨sender, rest⟩ := p
        exact Or.inr ⟨hroom, sender, rest, Fifo.pop?_eq_some_iff.mp ⟨rest, hpop, rfl⟩, rfl⟩
  · rw [if_neg hroom]
    exact Or.inl rfl

/-- Granting a slot queues nothing. -/
@[simp] theorem contents_grant (m : Mailbox α) : m.grant.contents = m.contents := by
  rcases grant_cases m with h | ⟨-, sender, rest, -, h⟩
  · rw [h]
  · rw [h]
    rfl

/-- Granting a slot makes no new one, and no other step does. -/
@[simp] theorem limit_grant (m : Mailbox α) : m.grant.limit = m.limit := by
  rcases grant_cases m with h | ⟨-, sender, rest, -, h⟩ <;> rw [h]

/-- Granting moves nobody in the line: the first one behind those with a
    slot becomes the last one with a slot. -/
@[simp] theorem line_grant (m : Mailbox α) : m.grant.line = m.line := by
  rcases grant_cases m with h | ⟨-, sender, rest, hwaiting, h⟩
  · rw [h]
  · rw [h]
    show (m.granted ++ [sender]) ++ rest.toList = m.granted ++ m.waiting.toList
    rw [hwaiting, List.append_assoc]
    rfl

/-- A sound mailbox stays sound when a slot is granted. -/
theorem Sound.grant {m : Mailbox α} (h : m.Sound) : m.grant.Sound := by
  refine ⟨?_, by rw [line_grant]; exact h.nodup⟩
  rcases grant_cases m with heq | ⟨hroom, sender, rest, -, heq⟩
  · rw [heq]
    exact h.taken_le
  · rw [heq]
    have hfree : m.queue.size + m.granted.length < m.limit := of_decide_eq_true hroom
    show m.queue.size + (m.granted ++ [sender]).length ≤ m.limit
    rw [List.length_append, List.length_singleton]
    omega

/-! ## Taking the oldest message -/

/-- What taking does: the oldest message leaves, and its slot is granted to the
    next in line. -/
theorem take?_eq_some {m m' : Mailbox α} {a : α} (h : m.take? = some (a, m')) :
    ∃ rest, m.contents = a :: rest.toList ∧ m' = { m with queue := rest }.grant := by
  rw [take?] at h
  cases hpop : m.queue.pop? with
  | none => rw [hpop] at h; exact nomatch h
  | some p =>
      obtain ⟨b, rest⟩ := p
      rw [hpop] at h
      obtain ⟨rfl, rfl⟩ := Prod.mk.inj (Option.some.inj h)
      exact ⟨rest, Fifo.pop?_eq_some_iff.mp ⟨rest, hpop, rfl⟩, rfl⟩

/-- Whenever a message is queued, the oldest one can be taken. -/
theorem take?_of_contents {m : Mailbox α} {a : α} {rest : List α} (h : m.contents = a :: rest) :
    ∃ m', m.take? = some (a, m') ∧ m'.contents = rest := by
  obtain ⟨queue, hpop, hrest⟩ := Fifo.pop?_eq_some_iff.mpr h
  refine ⟨{ m with queue := queue }.grant, ?_, ?_⟩
  · rw [take?, hpop]
  · rw [contents_grant]
    exact hrest

/-- The message taken is the first of the queue. -/
theorem contents_of_take? {m m' : Mailbox α} {a : α} (h : m.take? = some (a, m')) :
    m.contents = a :: m'.contents := by
  obtain ⟨rest, hcontents, rfl⟩ := take?_eq_some h
  rw [hcontents, contents_grant]
  rfl

/-- Taking a message lets nobody out of the line. -/
theorem line_of_take? {m m' : Mailbox α} {a : α} (h : m.take? = some (a, m')) :
    m'.line = m.line := by
  obtain ⟨rest, -, rfl⟩ := take?_eq_some h
  rw [line_grant]
  rfl

/-- Taking a message makes no new slot. -/
theorem limit_of_take? {m m' : Mailbox α} {a : α} (h : m.take? = some (a, m')) :
    m'.limit = m.limit := by
  obtain ⟨rest, -, rfl⟩ := take?_eq_some h
  rw [limit_grant]

/-- A sound mailbox stays sound when a message is taken. -/
theorem Sound.take {m m' : Mailbox α} {a : α} (hm : m.Sound) (h : m.take? = some (a, m')) :
    m'.Sound := by
  obtain ⟨rest, hcontents, rfl⟩ := take?_eq_some h
  refine Sound.grant ⟨?_, hm.nodup⟩
  have htaken : m.queue.size + m.granted.length ≤ m.limit := hm.taken_le
  have hsize : m.queue.size = rest.size + 1 := by
    rw [size_queue, hcontents, List.length_cons, Fifo.length_toList]
  show rest.size + m.granted.length ≤ m.limit
  omega

/-! ## Sending -/

/-- A message is queued behind the others. -/
theorem contents_push (m : Mailbox α) (a : α) : (m.push a).contents = m.contents ++ [a] :=
  Fifo.toList_push _ _

/-- A message that is queued takes one slot. -/
theorem taken_push (m : Mailbox α) (a : α) : (m.push a).taken = m.taken + 1 := by
  show m.queue.size + 1 + m.granted.length = m.queue.size + m.granted.length + 1
  omega

/-- A message is lost when the mailbox is closed, goes in when there is room,
    and waits with its sender at the end of the line otherwise. -/
theorem send_cases (m : Mailbox α) (id : Nat) (a : α) :
    m.send id a = (m, .lost)
      ∨ m.hasRoom = true ∧ m.send id a = (m.push a, .accepted)
      ∨ m.send id a = ({ m with waiting := m.waiting.push (id, a) }, .waits) := by
  rw [send]
  by_cases hclosed : m.closed = true
  · rw [if_pos hclosed]
    exact Or.inl rfl
  · rw [if_neg hclosed]
    by_cases hroom : m.hasRoom = true
    · rw [if_pos hroom]
      exact Or.inr (Or.inl ⟨hroom, rfl⟩)
    · rw [if_neg hroom]
      exact Or.inr (Or.inr rfl)

/-- A sound mailbox with room for a message stays sound with it. -/
theorem Sound.push {m : Mailbox α} (h : m.Sound) (hroom : m.hasRoom = true) (a : α) :
    (m.push a).Sound := by
  refine ⟨?_, h.nodup⟩
  have hfree : m.taken < m.limit := of_decide_eq_true hroom
  rw [taken_push]
  show m.taken + 1 ≤ m.limit
  omega

/-- Who waits stands at the end of the line. -/
theorem line_wait (m : Mailbox α) (id : Nat) (a : α) :
    ({ m with waiting := m.waiting.push (id, a) } : Mailbox α).line = m.line ++ [(id, a)] := by
  show m.granted ++ (m.waiting.push (id, a)).toList = (m.granted ++ m.waiting.toList) ++ [(id, a)]
  rw [Fifo.toList_push, List.append_assoc]

/-- A sound mailbox stays sound whatever a send comes to, if the sender is not
    in line already. -/
theorem Sound.send {m : Mailbox α} (h : m.Sound) {id : Nat} (hid : id ∉ m.line.map Prod.fst)
    (a : α) : (m.send id a).1.Sound := by
  rcases send_cases m id a with heq | ⟨hroom, heq⟩ | heq
  · rw [heq]
    exact h
  · rw [heq]
    exact h.push hroom a
  · -- the new one is last in line, under a number that nobody there has
    rw [heq]
    refine ⟨h.taken_le, ?_⟩
    rw [line_wait, List.map_append, List.nodup_append]
    refine ⟨h.nodup, List.nodup_singleton _, ?_⟩
    intro x hx y hy hxy
    rw [List.map_singleton, List.mem_singleton] at hy
    rw [hxy, hy] at hx
    exact hid hx

/-- Whoever stands in line after a sending stood there before or has just
    sent. -/
theorem mem_line_send {m : Mailbox α} {id : Nat} {a : α} {p : Nat × α}
    (hp : p ∈ (m.send id a).1.line) : p ∈ m.line ∨ p = (id, a) := by
  rcases send_cases m id a with heq | ⟨-, heq⟩ | heq
  · rw [heq] at hp
    exact Or.inl hp
  · rw [heq] at hp
    exact Or.inl hp
  · rw [heq, line_wait] at hp
    exact (List.mem_append.mp hp).imp_right List.mem_singleton.mp

/-- A send queues its own message at most. -/
theorem mem_contents_send {m : Mailbox α} {id : Nat} {a b : α}
    (hb : b ∈ (m.send id a).1.contents) : b ∈ m.contents ∨ b = a := by
  rcases send_cases m id a with heq | ⟨-, heq⟩ | heq
  · rw [heq] at hb
    exact Or.inl hb
  · rw [heq, contents_push] at hb
    exact (List.mem_append.mp hb).imp_right List.mem_singleton.mp
  · rw [heq] at hb
    exact Or.inl hb

@[simp] theorem limit_send (m : Mailbox α) (id : Nat) (a : α) :
    (m.send id a).1.limit = m.limit := by
  rcases send_cases m id a with heq | ⟨-, heq⟩ | heq <;> rw [heq]
  rfl

/-! ## Leaving the line -/

/-- The line without one of its senders. -/
def lineWithout (m : Mailbox α) (id : Nat) : List (Nat × α) :=
  m.line.filter fun p => p.1 != id

/-- All others stay in line. -/
theorem mem_lineWithout {m : Mailbox α} {id : Nat} {p : Nat × α} :
    p ∈ m.lineWithout id ↔ p ∈ m.line ∧ p.1 ≠ id := by
  simp [lineWithout]

/-- Nobody is taken out of a line that they are not in. -/
private theorem filter_eq_self_of_notMem {l : List (Nat × α)} {id : Nat}
    (h : id ∉ l.map Prod.fst) : (l.filter fun p => p.1 != id) = l := by
  rw [List.filter_eq_self]
  intro p hp
  have hne : p.1 ≠ id := fun heq => h (List.mem_map.mpr ⟨p, hp, heq⟩)
  simpa using hne

/-- Whoever owns a slot stands in line once, so taking the slot away takes
    the sender out of the line. -/
theorem filter_granted_append {m : Mailbox α} (h : m.Sound) {id : Nat} {a : α}
    (hmem : (id, a) ∈ m.granted) :
    (m.granted.filter fun g => g.1 != id) ++ m.waiting.toList = m.lineWithout id := by
  -- whoever owns a slot does not stand among those without one
  have hdisjoint : id ∉ m.waiting.toList.map Prod.fst := by
    have hnodup := h.nodup
    rw [line, List.map_append, List.nodup_append] at hnodup
    intro hw
    exact hnodup.2.2 id (List.mem_map.mpr ⟨(id, a), hmem, rfl⟩) id hw rfl
  rw [lineWithout, line, List.filter_append, filter_eq_self_of_notMem hdisjoint]

/-- Who has a slot and leaves gives it back. -/
theorem length_filter_granted_lt {m : Mailbox α} {id : Nat} {a : α}
    (hmem : (id, a) ∈ m.granted) :
    (m.granted.filter fun g => g.1 != id).length < m.granted.length :=
  List.length_filter_lt_length_iff_exists.mpr ⟨(id, a), hmem, by simp⟩

/-- Without one of them the line still holds everybody once. -/
theorem nodup_lineWithout {m : Mailbox α} (h : m.Sound) (id : Nat) :
    ((m.lineWithout id).map Prod.fst).Nodup :=
  h.nodup.sublist (List.filter_sublist.map Prod.fst)

/-- A sender that looks for its slot loses its message when the mailbox is
    closed, puts it into its slot when it owns one, and goes on waiting
    otherwise. -/
theorem resume_cases (m : Mailbox α) (id : Nat) :
    m.resume id = (m, .lost) ∨ m.resume id = (m, .waits)
      ∨ ∃ a, (id, a) ∈ m.granted
        ∧ m.resume id = ({ m with granted := m.granted.filter fun g => g.1 != id }.push a,
          .accepted) := by
  rw [resume]
  by_cases hclosed : m.closed = true
  · rw [if_pos hclosed]
    exact Or.inl rfl
  · rw [if_neg hclosed]
    cases hfind : m.granted.find? fun g => g.1 == id with
    | none => exact Or.inr (Or.inl rfl)
    | some g =>
        obtain ⟨k, a⟩ := g
        have hk : k = id := by simpa using List.find?_some hfind
        subst hk
        exact Or.inr (Or.inr ⟨a, List.mem_of_find?_eq_some hfind, rfl⟩)

/-- Looking for a slot brings nobody into the line, and the sender that puts
    its message into the slot leaves it. -/
theorem mem_line_resume {m : Mailbox α} (h : m.Sound) {id : Nat} {p : Nat × α}
    (hp : p ∈ (m.resume id).1.line) :
    p ∈ m.line ∧ ((m.resume id).2 = .accepted → p.1 ≠ id) := by
  rcases resume_cases m id with heq | heq | ⟨a, hmem, heq⟩
  · rw [heq] at hp ⊢
    exact ⟨hp, nofun⟩
  · rw [heq] at hp ⊢
    exact ⟨hp, nofun⟩
  · rw [heq] at hp
    have hwithout : p ∈ m.lineWithout id := by
      rw [← filter_granted_append h hmem]
      exact hp
    obtain ⟨hline, hne⟩ := mem_lineWithout.mp hwithout
    exact ⟨hline, fun _ => hne⟩

/-- A waiter that comes back queues its own message at most. -/
theorem mem_contents_resume {m : Mailbox α} {id : Nat} {b : α}
    (hb : b ∈ (m.resume id).1.contents) : b ∈ m.contents ∨ (id, b) ∈ m.line := by
  rcases resume_cases m id with heq | heq | ⟨a, hmem, heq⟩
  · rw [heq] at hb
    exact Or.inl hb
  · rw [heq] at hb
    exact Or.inl hb
  · rw [heq, contents_push] at hb
    rcases List.mem_append.mp hb with hold | hnew
    · exact Or.inl hold
    · obtain rfl := List.mem_singleton.mp hnew
      exact Or.inr (List.mem_append_left _ hmem)

@[simp] theorem limit_resume (m : Mailbox α) (id : Nat) :
    (m.resume id).1.limit = m.limit := by
  rcases resume_cases m id with heq | heq | ⟨a, -, heq⟩ <;> rw [heq]
  rfl

/-- A sound mailbox stays sound whatever coming back comes to. -/
theorem Sound.resume {m : Mailbox α} (h : m.Sound) (id : Nat) : (m.resume id).1.Sound := by
  rcases resume_cases m id with heq | heq | ⟨a, hmem, heq⟩
  · rw [heq]
    exact h
  · rw [heq]
    exact h
  · rw [heq]
    refine ⟨?_, ?_⟩
    · have htaken : m.queue.size + m.granted.length ≤ m.limit := h.taken_le
      have hfewer := length_filter_granted_lt hmem
      rw [taken_push]
      show m.queue.size + (m.granted.filter fun g => g.1 != id).length + 1 ≤ m.limit
      omega
    · show (((m.granted.filter fun g => g.1 != id) ++ m.waiting.toList).map Prod.fst).Nodup
      rw [filter_granted_append h hmem]
      exact nodup_lineWithout h id

/-- Leaving the line takes no message out of the queue. -/
@[simp] theorem contents_withdraw (m : Mailbox α) (id : Nat) :
    (m.withdraw id).contents = m.contents := by
  rw [withdraw]
  split
  · rw [contents_grant]
    rfl
  · rfl

@[simp] theorem limit_withdraw (m : Mailbox α) (id : Nat) :
    (m.withdraw id).limit = m.limit := by
  rw [withdraw]
  split
  · rw [limit_grant]
  · rfl

/-- Withdrawing takes a sender out of the line, with a slot or without. -/
theorem line_withdraw {m : Mailbox α} (h : m.Sound) (id : Nat) :
    (m.withdraw id).line = m.lineWithout id := by
  rw [withdraw]
  by_cases hany : (m.granted.any fun g => g.1 == id) = true
  · rw [if_pos hany, line_grant]
    obtain ⟨⟨k, a⟩, hmem, hk⟩ := List.any_eq_true.mp hany
    have hk : k = id := by simpa using hk
    subst hk
    exact filter_granted_append h hmem
  · -- nobody with this number owns a slot, so those who do all stay
    rw [if_neg hany]
    have hnot : id ∉ m.granted.map Prod.fst := by
      intro hmem
      obtain ⟨p, hp, heq⟩ := List.mem_map.mp hmem
      exact hany (List.any_eq_true.mpr ⟨p, hp, by simpa using heq⟩)
    show m.granted ++ (m.waiting.filter fun w => w.1 != id).toList = m.lineWithout id
    rw [lineWithout, line, Fifo.toList_filter, List.filter_append, filter_eq_self_of_notMem hnot]

/-- A sound mailbox stays sound when somebody leaves the line. -/
theorem Sound.withdraw {m : Mailbox α} (h : m.Sound) (id : Nat) : (m.withdraw id).Sound := by
  refine ⟨?_, by rw [line_withdraw h]; exact nodup_lineWithout h id⟩
  rw [limit_withdraw, Mailbox.withdraw]
  by_cases hany : (m.granted.any fun g => g.1 == id) = true
  · -- the slot falls free, and it may be granted again at once
    rw [if_pos hany]
    obtain ⟨⟨k, a⟩, hmem, hk⟩ := List.any_eq_true.mp hany
    have hk : k = id := by simpa using hk
    subst hk
    have hfewer := length_filter_granted_lt hmem
    have hsound : ({ m with granted := m.granted.filter fun g => g.1 != k } : Mailbox α).Sound := by
      refine ⟨?_, ?_⟩
      · have htaken : m.queue.size + m.granted.length ≤ m.limit := h.taken_le
        show m.queue.size + (m.granted.filter fun g => g.1 != k).length ≤ m.limit
        omega
      · show (((m.granted.filter fun g => g.1 != k) ++ m.waiting.toList).map Prod.fst).Nodup
        rw [filter_granted_append h hmem]
        exact nodup_lineWithout h k
    have hle := hsound.grant.taken_le
    rw [limit_grant] at hle
    exact hle
  · rw [if_neg hany]
    exact h.taken_le

/-- A closed mailbox is sound. -/
theorem Sound.close {m : Mailbox α} : m.close.Sound :=
  ⟨Nat.zero_le _, List.nodup_nil⟩

/-! ## A mailbox that is closed -/

/-- What is sent to a closed mailbox is lost. -/
theorem send_closed {m : Mailbox α} (h : m.closed = true) (id : Nat) (a : α) :
    m.send id a = (m, .lost) := by
  rw [send, if_pos h]

/-- Who waits at a mailbox that is closed comes back with nothing. -/
theorem resume_closed {m : Mailbox α} (h : m.closed = true) (id : Nat) :
    m.resume id = (m, .lost) := by
  rw [resume, if_pos h]

/-- Granting a slot neither closes nor opens, and neither does any other step
    but closing. -/
@[simp] theorem closed_grant (m : Mailbox α) : m.grant.closed = m.closed := by
  rcases grant_cases m with h | ⟨-, sender, rest, -, h⟩ <;> rw [h]

@[simp] theorem closed_withdraw (m : Mailbox α) (id : Nat) :
    (m.withdraw id).closed = m.closed := by
  rw [withdraw]
  split
  · rw [closed_grant]
  · rfl

/-- Taking a message neither closes nor opens. -/
theorem closed_of_take? {m m' : Mailbox α} {a : α} (h : m.take? = some (a, m')) :
    m'.closed = m.closed := by
  obtain ⟨rest, -, rfl⟩ := take?_eq_some h
  rw [closed_grant]

/-- In an open mailbox a message is not lost. -/
theorem send_accepted {m : Mailbox α} (h : m.closed = false) {id : Nat} {a : α}
    (ended : (m.send id a).2 ≠ .waits) : (m.send id a).2 = .accepted := by
  rw [send, h] at ended ⊢
  by_cases hroom : m.hasRoom = true
  · simp [hroom]
  · simp [hroom] at ended

/-- Waiting at an open mailbox ends with the message queued. -/
theorem resume_accepted {m : Mailbox α} (h : m.closed = false) {id : Nat}
    (ended : (m.resume id).2 ≠ .waits) : (m.resume id).2 = .accepted := by
  rw [resume, h] at ended ⊢
  cases hfind : m.granted.find? fun g => g.1 == id with
  | none => simp [hfind] at ended
  | some g => simp

/-- A mailbox with nothing in it and nobody in line has room. -/
theorem hasRoom_of_empty {m : Mailbox α} (contents : m.contents = []) (line : m.line = [])
    (limit : 0 < m.limit) : m.hasRoom = true := by
  have hgranted : m.granted = [] := (List.append_eq_nil_iff.mp line).1
  refine decide_eq_true ?_
  rw [taken, size_queue, contents, hgranted]
  exact limit

@[simp] theorem closed_send (m : Mailbox α) (id : Nat) (a : α) :
    (m.send id a).1.closed = m.closed := by
  rcases send_cases m id a with heq | ⟨-, heq⟩ | heq <;> rw [heq]
  rfl

@[simp] theorem closed_resume (m : Mailbox α) (id : Nat) :
    (m.resume id).1.closed = m.closed := by
  rcases resume_cases m id with heq | heq | ⟨a, -, heq⟩ <;> rw [heq]
  rfl

end BusWindow.Mailbox
