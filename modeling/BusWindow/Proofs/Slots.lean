import BusWindow.Proofs.Contents

/-!
# Slots — whoever stands in line for one can come to it

    No slot of a mailbox lies idle while a sender waits for one. So as long
    as the owner has not stopped, a sender in line can always be brought to
    its slot: those that own one use it, and the owner takes in records,
    whatever it is about. Nobody has to go away for that.

    * `NoIdleSlot` is kept by every operation of a mailbox, and
      `Run.noIdleSlot` says that it always holds of the mailbox for records;
    * `System.distance` is a measure of what stands between a sender in line
      and its slot, and `Run.comes_nearer` takes a step that lowers it, with
      one case for each thing that the owner may be about;
    * `Run.gets_slot` puts such steps together, by induction on the measure.
-/

namespace BusWindow

/-! ## No slot lies idle -/

namespace Mailbox

variable {α : Type} {m m' : Mailbox α} {id : Nat} {a : α}

/-- While senders wait for a slot, all slots are taken. -/
def NoIdleSlot (m : Mailbox α) : Prop := m.waiting.toList ≠ [] → m.limit ≤ m.taken

/-- Whoever owns a slot owns one. -/
theorem length_filter_granted (h : m.Sound) (hmem : (id, a) ∈ m.granted) :
    (m.granted.filter fun g => g.1 != id).length + 1 = m.granted.length := by
  have hnodup : (m.granted.map Prod.fst).Nodup := by
    have hline := h.nodup
    rw [line, List.map_append, List.nodup_append] at hline
    exact hline.1
  have hid : id ∈ m.granted.map Prod.fst := List.mem_map.mpr ⟨(id, a), hmem, rfl⟩
  have hlength := List.length_erase_add_one hid
  rw [hnodup.erase_eq_filter, List.filter_map, List.length_map, List.length_map] at hlength
  exact hlength

namespace NoIdleSlot

/-- In an empty mailbox nobody waits. -/
theorem empty (limit : Nat) : NoIdleSlot (empty limit : Mailbox α) := fun h => absurd rfl h

/-- Where all slots but one are taken, granting takes the last one. -/
theorem grant (h : m.waiting.toList ≠ [] → m.limit ≤ m.taken + 1) : NoIdleSlot m.grant := by
  rw [Mailbox.grant]
  split
  · cases hpop : m.waiting.pop? with
    | none => exact fun hwaiting => absurd (Fifo.pop?_eq_none_iff.mp hpop) hwaiting
    | some p =>
        obtain ⟨sender, rest⟩ := p
        have hwaiting : m.waiting.toList = sender :: rest.toList :=
          Fifo.pop?_eq_some_iff.mp ⟨rest, hpop, rfl⟩
        intro _
        have hle := h (hwaiting ▸ List.cons_ne_nil _ _)
        show m.limit ≤ m.queue.size + (m.granted ++ [sender]).length
        rw [List.length_append, List.length_singleton]
        exact hle
  · next room =>
    intro _
    rw [hasRoom, decide_eq_true_iff] at room
    exact Nat.not_lt.mp room

/-- A slot that gets free is granted at once. -/
theorem take (h : NoIdleSlot m) (take : m.take? = some (a, m')) : NoIdleSlot m' := by
  obtain ⟨rest, hcontents, rfl⟩ := take?_eq_some take
  refine grant fun hwaiting => ?_
  have hle := h hwaiting
  have hsize : m.queue.size = rest.size + 1 := by
    rw [size_queue, hcontents, List.length_cons, Fifo.length_toList]
  show m.limit ≤ rest.size + m.granted.length + 1
  rw [taken] at hle
  omega

/-- Nobody waits while there is a free slot. -/
theorem send (h : NoIdleSlot m) (id : Nat) (a : α) : NoIdleSlot (m.send id a).1 := by
  rw [Mailbox.send]
  split
  · exact h
  · split
    · intro hwaiting
      rw [taken_push]
      exact (h hwaiting).trans (Nat.le_succ _)
    · next room =>
      intro _
      rw [hasRoom, decide_eq_true_iff] at room
      exact Nat.not_lt.mp room

/-- A slot that is used stays taken. -/
theorem resume (h : NoIdleSlot m) (sound : m.Sound) (id : Nat) : NoIdleSlot (m.resume id).1 := by
  rcases resume_cases m id with heq | heq | ⟨a, hmem, heq⟩
  · rw [heq]
    exact h
  · rw [heq]
    exact h
  · rw [heq]
    intro hwaiting
    have hle := h hwaiting
    have hlength := length_filter_granted sound hmem
    rw [taken_push]
    show m.limit ≤ m.queue.size + (m.granted.filter fun g => g.1 != id).length + 1
    rw [taken] at hle
    omega

/-- A slot given back is granted to the next in line. -/
theorem withdraw (h : NoIdleSlot m) (sound : m.Sound) (id : Nat) : NoIdleSlot (m.withdraw id) := by
  rw [Mailbox.withdraw]
  split
  · next hany =>
    obtain ⟨⟨k, a⟩, hmem, hk⟩ := List.any_eq_true.mp hany
    obtain rfl : k = id := by simpa using hk
    have hlength := length_filter_granted sound hmem
    refine grant fun hwaiting => ?_
    have hle := h hwaiting
    show m.limit ≤ m.queue.size + (m.granted.filter fun g => g.1 != k).length + 1
    rw [taken] at hle
    omega
  · -- if somebody is left waiting, somebody waited before
    intro hwaiting
    refine h fun hnone => hwaiting ?_
    show (m.waiting.filter fun w => w.1 != id).toList = []
    rw [Fifo.toList_filter, hnone]
    rfl

theorem close (m : Mailbox α) : NoIdleSlot m.close := fun h => absurd rfl h

end NoIdleSlot

/-- A sender that owns a slot puts its message there and leaves the line. -/
structure Resumed (m m' : Mailbox α) (id : Nat) (sent : Sent) : Prop where
  accepted : sent = .accepted
  line : m'.line = m.lineWithout id
  contents : m'.contents.length = m.contents.length + 1

theorem resumed (sound : m.Sound) (open_ : m.closed = false) (hmem : (id, a) ∈ m.granted) :
    Resumed m (m.resume id).1 id (m.resume id).2 := by
  cases hfind : m.granted.find? fun g => g.1 == id with
  | none => exact absurd (beq_self_eq_true id) (List.find?_eq_none.mp hfind (id, a) hmem)
  | some g =>
      obtain ⟨k, b⟩ := g
      obtain rfl : k = id := by simpa using List.find?_some hfind
      have hresume : m.resume k
          = ({ m with granted := m.granted.filter fun g => g.1 != k }.push b, .accepted) := by
        rw [Mailbox.resume, open_, if_neg Bool.false_ne_true, hfind]
      rw [hresume]
      refine ⟨rfl, filter_granted_append sound hmem, ?_⟩
      rw [contents_push, List.length_append]
      rfl

end Mailbox

namespace Store

variable {settings : StoreSettings} {t t' : Trace} {s s' : System} {a : Action} {e : Event}
  {id : Nat} {r : Record}

/-- Along a run no slot lies idle while somebody waits. -/
theorem Run.noIdleSlot (run : Run settings t s) : s.records.NoIdleSlot := by
  induction run with
  | new => exact .empty _
  | step run h ih =>
      cases (Step.of_step h).intake with
      | quiet records => rwa [records]
      | take _ take => exact ih.take take
      | send records =>
          rw [records]
          exact ih.send _ _
      | resume records =>
          rw [records]
          exact ih.resume run.ledger.sound _
      | withdraw records =>
          rw [records]
          exact ih.withdraw run.ledger.sound _
      | close records =>
          rw [records]
          exact .close _

/-! ## The way to a slot -/

/-- What stands between the senders in line and their slots. Whoever leaves
    the line brings one record more, so a place in line counts twice; an owner
    that is not ready has to come to that first. -/
def System.distance (s : System) : Nat :=
  2 * (2 * s.records.line.length + s.records.contents.length)
    + if s.owner = .ready then 0 else 1

/-- Taking a record brings the last in line nearer to a slot. -/
theorem System.distance_lt_of_take (line : s'.records.line = s.records.line)
    (contents : s.records.contents.length = s'.records.contents.length + 1) :
    s'.distance < s.distance := by
  rw [distance, distance, line]
  split <;> split <;> omega

/-- So does coming back for the next request. -/
theorem System.distance_lt_of_ready (records : s'.records = s.records) (owner : s'.owner = .ready)
    (before : s.owner ≠ .ready) : s'.distance < s.distance := by
  rw [distance, distance, records, if_pos owner, if_neg before]
  exact Nat.lt_succ_self _

theorem System.distance_lt_of_resumed (line : s'.records.line.length < s.records.line.length)
    (contents : s'.records.contents.length = s.records.contents.length + 1) :
    s'.distance < s.distance := by
  rw [distance, distance]
  split <;> split <;> omega

/-- Where nobody owns a slot but somebody waits for one, a record lies in the
    mailbox. -/
theorem Run.exists_take (run : Run settings t s) (line : (id, r) ∈ s.records.line)
    (granted : s.records.granted = []) :
    ∃ r' m, s.records.take? = some (r', m) ∧ m.line = s.records.line
      ∧ s.records.contents.length = m.contents.length + 1 := by
  have hwaiting : s.records.waiting.toList ≠ [] := by
    rw [Mailbox.line, granted, List.nil_append] at line
    exact List.ne_nil_of_mem line
  have htaken := run.noIdleSlot hwaiting
  rw [Mailbox.taken, granted, Mailbox.size_queue, run.ledger.limit] at htaken
  cases hcontents : s.records.contents with
  | nil =>
      rw [hcontents] at htaken
      exact absurd htaken (by simp)
  | cons r' rest =>
      obtain ⟨m, htake, hrest⟩ := Mailbox.take?_of_contents hcontents
      exact ⟨r', m, htake, Mailbox.line_of_take? htake, by rw [hrest]; rfl⟩

/-- A sender that has no slot yet can be brought nearer to one. -/
theorem Run.comes_nearer (run : Run settings t s) (running : s.owner ≠ .stopped)
    (line : (id, r) ∈ s.records.line) (without : ∀ x ∈ s.records.granted, x.1 ≠ id) :
    ∃ a s' e, Step s a s' e ∧ s'.owner ≠ .stopped ∧ (id, r) ∈ s'.records.line
      ∧ s'.distance < s.distance := by
  obtain ⟨hopen, -⟩ := run.open_mailboxes running
  cases hgranted : s.records.granted with
  | cons x more =>
      -- somebody else can use its slot
      obtain ⟨k, r'⟩ := x
      have hmem : (k, r') ∈ s.records.granted := hgranted ▸ List.mem_cons_self
      have hne : id ≠ k := (without _ hmem).symm
      have hresumed := Mailbox.resumed run.ledger.sound hopen hmem
      refine ⟨_, _, _, @Step.resumeSend s k, running, ?_,
        System.distance_lt_of_resumed ?_ hresumed.contents⟩
      · show (id, r) ∈ (s.records.resume k).1.line
        rw [hresumed.line]
        exact Mailbox.mem_lineWithout.mpr ⟨line, hne⟩
      · show (s.records.resume k).1.line.length < s.records.line.length
        rw [hresumed.line]
        exact List.length_filter_lt_length_iff_exists.mpr
          ⟨(k, r'), List.mem_append_left _ hmem, by simp⟩
  | nil =>
      obtain ⟨r', m, htake, hline, hcontents⟩ := run.exists_take line hgranted
      have hmem : (id, r) ∈ m.line := hline ▸ line
      cases howner : s.owner with
      | stopped => exact absurd howner running
      | notStarted =>
          exact ⟨_, _, _, .start howner, nofun, line,
            System.distance_lt_of_ready rfl rfl (by rw [howner]; exact nofun)⟩
      | ready =>
          exact ⟨_, _, _, @Step.takeRecord s ⟨0, 0⟩ r' m howner htake, running, hmem,
            System.distance_lt_of_take hline hcontents⟩
      | draining left k d =>
          cases left with
          | succ left =>
              exact ⟨_, _, _, @Step.drainRecord s left k d ⟨0, 0⟩ r' m howner htake, nofun, hmem,
                System.distance_lt_of_take hline hcontents⟩
          | zero =>
              have hready : s.owner ≠ .ready := by
                rw [howner]
                exact nofun
              cases hwaits : s.isWaiting k with
              | true =>
                  exact ⟨_, _, _, .serve howner (Or.inl rfl) hwaits, nofun, line,
                    System.distance_lt_of_ready rfl rfl hready⟩
              | false =>
                  exact ⟨_, _, _, .skip howner (Or.inl rfl) hwaits, nofun, line,
                    System.distance_lt_of_ready rfl rfl hready⟩

/-- A run can go on until a sender in line has its slot and has used it. -/
theorem Run.gets_slot (run : Run settings t s) (running : s.owner ≠ .stopped)
    (line : (id, r) ∈ s.records.line) :
    ∃ t' s' a, Run settings (t ++ t') s' ∧ s'.owner ≠ .stopped
      ∧ (a, .recordSent id .accepted) ∈ t' := by
  induction hdistance : s.distance using Nat.strong_induction_on generalizing t s with
  | h n ih =>
      subst hdistance
      by_cases hgranted : ∃ x ∈ s.records.granted, x.1 = id
      · obtain ⟨⟨k, r'⟩, hmem, rfl⟩ := hgranted
        obtain ⟨hopen, -⟩ := run.open_mailboxes running
        have haccepted := (Mailbox.resumed run.ledger.sound hopen hmem).accepted
        refine ⟨_, _, .resumeSend k, run.step (@Step.resumeSend s k).step_eq, running, ?_⟩
        rw [haccepted]
        exact List.mem_cons_self
      · have hwithout : ∀ x ∈ s.records.granted, x.1 ≠ id := fun x hx heq => hgranted ⟨x, hx, heq⟩
        obtain ⟨a, s₁, e, hstep, hrunning, hline, hnearer⟩ :=
          run.comes_nearer running line hwithout
        obtain ⟨t', s', b, hrun, hrunning', hback⟩ :=
          ih _ hnearer (run.step hstep.step_eq) hrunning hline rfl
        rw [List.append_assoc] at hrun
        exact ⟨_, s', b, hrun, hrunning', List.mem_append_right _ hback⟩

end Store

end BusWindow
