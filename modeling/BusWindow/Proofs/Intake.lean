import BusWindow.Proofs.Run

/-!
# Intake — records on their way to the buffer

    A record is on its way in three stages: its publisher may stand in line,
    then it lies in the mailbox, then it has a number. `Ledger` ties the
    stages to the trace: the records whose sending was completed are those
    that were numbered, followed by those in the mailbox, in one order.

    * `Step.intake` sorts the steps by what they do to the mailbox for
      records, and `Ledger.step` has one case for each sort;
    * `Run.ledger` is the same of every run;
    * `Run.withdrawn_unsent` says of a publisher that went away while it
      waited that its record never comes in.
-/

namespace BusWindow.Store

/-- The number under which the sending of a record was completed. -/
def Event.sentId? : Event → Option Nat
  | .recordSent id .accepted => some id
  | _ => none

namespace Trace

/-- The numbers under which the sending of a record was completed, in the
    order of completion. -/
def sent (t : Trace) : List Nat := t.filterMap fun x => x.2.sentId?

/-- The record that is on its way under a number. -/
def recordOf (t : Trace) (id : Nat) : Option Record :=
  match t.begun.lookup id with
  | some (.send r) => some r
  | _ => none

/-- The records whose sending was completed, in the order of completion. -/
def sentRecords (t : Trace) : List Record := t.sent.filterMap t.recordOf

theorem sent_append (t t' : Trace) : sent (t ++ t') = t.sent ++ sent t' :=
  List.filterMap_append

theorem sent_concat (t : Trace) (x : Action × Event) :
    sent (t ++ [x]) = t.sent ++ x.2.sentId?.toList :=
  filterMap_concat _ _ _

theorem sent_singleton (x : Action × Event) : sent [x] = x.2.sentId?.toList :=
  filterMap_concat _ [] _

end Trace

variable {settings : StoreSettings} {t t' : Trace} {s s' : System} {a : Action} {e : Event}

theorem Run.recordOf_eq (run : Run settings t s) {id : Nat} {r : Record}
    (h : (id, .send r) ∈ t.begun) : t.recordOf id = some r := by
  have hlookup : t.begun.lookup id = some (.send r) := by
    cases hfound : t.begun.lookup id with
    | none =>
        have hne := List.lookup_eq_none_iff.mp hfound (id, .send r) h
        simp at hne
    | some b =>
        -- whatever is found under the number is what was begun under it
        obtain ⟨l₁, l₂, hsplit, -⟩ := List.lookup_eq_some_iff.mp hfound
        have hb : (id, b) ∈ t.begun := by
          rw [hsplit]
          exact List.mem_append_right _ List.mem_cons_self
        rw [run.begun_unique hb h]
  rw [Trace.recordOf, hlookup]

/-- What was sent in the front part of a run stays what it was. -/
theorem Run.sentRecords_append (run : Run settings (t ++ t') s)
    (hbegun : ∀ id ∈ t.sent, ∃ r, (id, Action.send r) ∈ t.begun) :
    Trace.sentRecords (t ++ t')
      = t.sentRecords ++ (Trace.sent t').filterMap (Trace.recordOf (t ++ t')) := by
  obtain ⟨s₁, run₁⟩ := run.front
  rw [Trace.sentRecords, Trace.sent_append, List.filterMap_append]
  congr 1
  refine List.filterMap_congr ?_
  intro id hid
  obtain ⟨r, hr⟩ := hbegun id hid
  rw [run.recordOf_eq (Trace.mem_begun_append hr t'), run₁.recordOf_eq hr]

/-! ## The mailbox for records -/

/-- What a step can do to the mailbox for records. -/
inductive Intake (s s' : System) : Action → Event → Prop where
  | quiet {a : Action} {e : Event} (records : s'.records = s.records)
      (sent : e.sentId? = none) (message : e.message? = none)
      (owner : s.owner = .stopped → s'.owner = .stopped) : Intake s s' a e
  | take {a : Action} {arrival : Timestamp} {r : Record} (owner : s.owner ≠ .stopped)
      (take : s.records.take? = some (r, s'.records)) :
      Intake s s' a (.numbered (s.buffer.message arrival r))
  | send {r : Record} (records : s'.records = (s.records.send s.next r).1)
      (owner : s'.owner = s.owner) :
      Intake s s' (.send r) (.recordSent s.next (s.records.send s.next r).2)
  | resume {id : Nat} (records : s'.records = (s.records.resume id).1)
      (owner : s'.owner = s.owner) :
      Intake s s' (.resumeSend id) (.recordSent id (s.records.resume id).2)
  | withdraw {id : Nat} (records : s'.records = s.records.withdraw id)
      (owner : s'.owner = s.owner) : Intake s s' (.withdrawSend id) (.withdrawn id)
  | close {a : Action} (records : s'.records = s.records.close)
      (owner : s'.owner = .stopped) : Intake s s' a .ownerStopped

theorem Step.intake (h : Step s a s' e) : Intake s s' a e := by
  cases h with
  | start owner => exact .quiet rfl rfl rfl fun h => nomatch owner.symm.trans h
  | discard => exact .close rfl rfl
  | abort => exact .close rfl rfl
  | takeRecord owner take => exact .take (fun h => nomatch owner.symm.trans h) take
  | takeShutdown => exact .close rfl rfl
  | takeDemand owner => exact .quiet rfl rfl rfl fun h => nomatch owner.symm.trans h
  | drainRecord owner take => exact .take (fun h => nomatch owner.symm.trans h) take
  | serve owner => exact .quiet rfl rfl rfl fun h => nomatch owner.symm.trans h
  | skip owner => exact .quiet rfl rfl rfl fun h => nomatch owner.symm.trans h
  | send => exact .send rfl rfl
  | resumeSend => exact .resume rfl rfl
  | withdrawSend => exact .withdraw rfl rfl
  | _ => exact .quiet rfl rfl rfl id

/-- The mailbox for records, told against the trace that led to it. -/
structure Ledger (settings : StoreSettings) (t : Trace) (s : System) : Prop where
  sound : s.records.Sound
  limit : s.records.limit = max settings.ingestQueue 1
  line_begun : ∀ p ∈ s.records.line, (p.1, Action.send p.2) ∈ t.begun
  line_unsent : ∀ p ∈ s.records.line, p.1 ∉ t.sent
  sent_begun : ∀ id ∈ t.sent, ∃ r, (id, Action.send r) ∈ t.begun
  sent_nodup : t.sent.Nodup
  flow : s.owner ≠ .stopped →
    t.sentRecords = t.numbered.map Message.record ++ s.records.contents

namespace Ledger

theorem new (settings : StoreSettings) : Ledger settings [] (System.new settings) where
  sound := Mailbox.sound_empty _
  limit := rfl
  line_begun := by intro p hp; exact nomatch hp
  line_unsent := by intro p hp; exact nomatch hp
  sent_begun := by intro id hid; exact nomatch hid
  sent_nodup := List.nodup_nil
  flow := by intro _; rfl

/-- A step that completes no sending leaves the record of what was sent as it
    was. -/
theorem sentRecords_concat (l : Ledger settings t s) (run : Run settings (t ++ [(a, e)]) s')
    (h : e.sentId? = none) : Trace.sentRecords (t ++ [(a, e)]) = t.sentRecords := by
  rw [run.sentRecords_append l.sent_begun, Trace.sent_singleton, h]
  exact List.append_nil _

/-- A step that completes the sending of a record adds it to those sent. -/
theorem sentRecords_concat_of_begun (l : Ledger settings t s)
    (run : Run settings (t ++ [(a, e)]) s') {id : Nat} {r : Record} (h : e.sentId? = some id)
    (hr : (id, .send r) ∈ Trace.begun (t ++ [(a, e)])) :
    Trace.sentRecords (t ++ [(a, e)]) = t.sentRecords ++ [r] := by
  rw [run.sentRecords_append l.sent_begun, Trace.sent_singleton, h]
  simp [run.recordOf_eq hr]

theorem sent_lt_next (l : Ledger settings t s) (run : Run settings t s) {id : Nat}
    (h : id ∈ t.sent) : id < s.next := by
  obtain ⟨r, hr⟩ := l.sent_begun id h
  exact run.lt_next hr

theorem line_lt_next (l : Ledger settings t s) (run : Run settings t s) {id : Nat}
    (h : id ∈ s.records.line.map Prod.fst) : id < s.next := by
  obtain ⟨p, hp, rfl⟩ := List.mem_map.mp h
  exact run.lt_next (l.line_begun p hp)

/-- Who stood in line before a step was begun and has not been sent. -/
theorem line_old (l : Ledger settings t s) (x : Action × Event) {p : Nat × Record}
    (hp : p ∈ s.records.line) :
    (p.1, Action.send p.2) ∈ Trace.begun (t ++ [x]) ∧ p.1 ∉ t.sent :=
  ⟨Trace.mem_begun_append (l.line_begun p hp) _, l.line_unsent p hp⟩

/-- A step that completes no sending keeps the ledger if it keeps the order
    of what is numbered and what lies in the mailbox, and nobody joins the
    line whose record was not begun to be sent. -/
theorem concat_unsent (l : Ledger settings t s) (run : Run settings (t ++ [(a, e)]) s')
    (hsent : e.sentId? = none) (sound : s'.records.Sound)
    (limit : s'.records.limit = s.records.limit)
    (line : ∀ p ∈ s'.records.line,
      (p.1, Action.send p.2) ∈ Trace.begun (t ++ [(a, e)]) ∧ p.1 ∉ t.sent)
    (flow : s'.owner ≠ .stopped → s.owner ≠ .stopped
      ∧ s.records.contents = (e.message?.toList).map Message.record ++ s'.records.contents) :
    Ledger settings (t ++ [(a, e)]) s' where
  sound := sound
  limit := limit.trans l.limit
  line_begun := fun p hp => (line p hp).1
  line_unsent := by
    intro p hp
    rw [Trace.sent_concat, hsent]
    simpa using (line p hp).2
  sent_begun := by
    intro id hid
    rw [Trace.sent_concat, hsent] at hid
    obtain ⟨r, hr⟩ := l.sent_begun id (by simpa using hid)
    exact ⟨r, Trace.mem_begun_append hr _⟩
  sent_nodup := by
    rw [Trace.sent_concat, hsent]
    simpa using l.sent_nodup
  flow := by
    intro hrunning
    obtain ⟨howner, hcontents⟩ := flow hrunning
    rw [l.sentRecords_concat run hsent, l.flow howner, hcontents, Trace.numbered_concat,
      List.map_append, List.append_assoc]

/-- A step that leaves the mailbox as it was keeps the ledger. -/
theorem concat_same (l : Ledger settings t s) (run : Run settings (t ++ [(a, e)]) s')
    (hsent : e.sentId? = none) (hmessage : e.message? = none) (records : s'.records = s.records)
    (owner : s.owner = .stopped → s'.owner = .stopped) : Ledger settings (t ++ [(a, e)]) s' := by
  refine l.concat_unsent run hsent (records ▸ l.sound) (by rw [records]) ?_ ?_
  · rw [records]
    intro p hp
    exact l.line_old _ hp
  · intro hrunning
    refine ⟨fun hstopped => hrunning (owner hstopped), ?_⟩
    rw [hmessage, records]
    rfl

/-- A step that completes the sending of a record keeps the ledger if it puts
    the record at the end of the mailbox and its sender out of the line. -/
theorem concat_sent (l : Ledger settings t s) (run : Run settings (t ++ [(a, e)]) s')
    {id : Nat} {r : Record} (hsent : e.sentId? = some id) (hmessage : e.message? = none)
    (hbegun : (id, .send r) ∈ Trace.begun (t ++ [(a, e)])) (hunsent : id ∉ t.sent)
    (sound : s'.records.Sound) (limit : s'.records.limit = s.records.limit)
    (line : ∀ p ∈ s'.records.line, p ∈ s.records.line ∧ p.1 ≠ id)
    (contents : s'.records.contents = s.records.contents ++ [r])
    (owner : s'.owner = s.owner) :
    Ledger settings (t ++ [(a, e)]) s' where
  sound := sound
  limit := limit.trans l.limit
  line_begun := fun p hp => Trace.mem_begun_append (l.line_begun p (line p hp).1) _
  line_unsent := by
    intro p hp
    obtain ⟨hline, hne⟩ := line p hp
    rw [Trace.sent_concat, hsent]
    intro hmem
    rcases List.mem_append.mp hmem with hold | hnew
    · exact l.line_unsent p hline hold
    · exact hne (by simpa using hnew)
  sent_begun := by
    intro k hk
    rw [Trace.sent_concat, hsent] at hk
    rcases List.mem_append.mp hk with hold | hnew
    · obtain ⟨r', hr'⟩ := l.sent_begun k hold
      exact ⟨r', Trace.mem_begun_append hr' _⟩
    · have hk : k = id := by simpa using hnew
      exact ⟨r, hk ▸ hbegun⟩
  sent_nodup := by
    rw [Trace.sent_concat, hsent, List.nodup_append]
    refine ⟨l.sent_nodup, List.nodup_singleton _, ?_⟩
    intro x hx y hy hxy
    have hy : y = id := by simpa using hy
    rw [hxy, hy] at hx
    exact hunsent hx
  flow := by
    intro hrunning
    rw [l.sentRecords_concat_of_begun run hsent hbegun, l.flow (owner ▸ hrunning), contents,
      Trace.numbered_concat, hmessage]
    simp

/-- Sending keeps the ledger, whether the record is lost, goes into the
    mailbox or has its sender wait. -/
theorem concat_send (l : Ledger settings t s) (run : Run settings t s) {r : Record}
    (run' : Run settings (t ++ [(.send r, .recordSent s.next (s.records.send s.next r).2)]) s')
    (records : s'.records = (s.records.send s.next r).1) (owner : s'.owner = s.owner) :
    Ledger settings (t ++ [(.send r, .recordSent s.next (s.records.send s.next r).2)]) s' := by
  have hfresh : s.next ∉ s.records.line.map Prod.fst :=
    fun hmem => Nat.lt_irrefl _ (l.line_lt_next run hmem)
  have hunsent : s.next ∉ t.sent := fun hmem => Nat.lt_irrefl _ (l.sent_lt_next run hmem)
  have hsound : s'.records.Sound := by
    rw [records]
    exact l.sound.send hfresh r
  have hbegun (sent : Sent) :
      (s.next, Action.send r) ∈ Trace.begun (t ++ [(.send r, .recordSent s.next sent)]) := by
    rw [Trace.begun_concat]
    exact List.mem_append_right _ List.mem_cons_self
  rcases Mailbox.send_cases s.records s.next r with heq | ⟨-, heq⟩ | heq
  · rw [heq] at records run' ⊢
    exact l.concat_same run' rfl rfl records fun hstopped => owner.trans hstopped
  · -- the record goes in: nobody with its number can have stood in line
    rw [heq] at records run' ⊢
    refine l.concat_sent run' rfl rfl (hbegun _) hunsent hsound (by rw [records]; rfl) ?_ ?_ owner
    · rw [records]
      intro p hp
      refine ⟨hp, ?_⟩
      intro hp'
      exact hfresh (List.mem_map.mpr ⟨p, hp, hp'⟩)
    · rw [records]
      exact Mailbox.contents_push _ _
  · -- the sender joins the line, and nothing else moves
    rw [heq] at records run' ⊢
    refine l.concat_unsent run' rfl hsound (by rw [records]) ?_ ?_
    · rw [records]
      intro p hp
      rw [Mailbox.line_wait] at hp
      rcases List.mem_append.mp hp with hold | hnew
      · exact l.line_old _ hold
      · obtain rfl := List.mem_singleton.mp hnew
        exact ⟨hbegun _, hunsent⟩
    · intro hrunning
      refine ⟨owner ▸ hrunning, ?_⟩
      rw [records]
      rfl

/-- A sender's look for its slot keeps the ledger. -/
theorem concat_resume (l : Ledger settings t s) {id : Nat}
    (run' : Run settings (t ++ [(.resumeSend id, .recordSent id (s.records.resume id).2)]) s')
    (records : s'.records = (s.records.resume id).1) (owner : s'.owner = s.owner) :
    Ledger settings (t ++ [(.resumeSend id, .recordSent id (s.records.resume id).2)]) s' := by
  have hsound : s'.records.Sound := by
    rw [records]
    exact l.sound.resume id
  have hline (p : Nat × Record) (hp : p ∈ s'.records.line) :
      p ∈ s.records.line ∧ ((s.records.resume id).2 = .accepted → p.1 ≠ id) := by
    rw [records] at hp
    exact Mailbox.mem_line_resume l.sound hp
  rcases Mailbox.resume_cases s.records id with heq | heq | ⟨r, hmem, heq⟩
  · rw [heq] at records run' ⊢
    exact l.concat_same run' rfl rfl records fun hstopped => owner.trans hstopped
  · rw [heq] at records run' ⊢
    exact l.concat_same run' rfl rfl records fun hstopped => owner.trans hstopped
  · -- the sender owns a slot, so it stood in line and was not sent before
    have howner : (id, r) ∈ s.records.line := List.mem_append_left _ hmem
    rw [heq] at records run' hline ⊢
    refine l.concat_sent run' rfl rfl (l.line_old _ howner).1 (l.line_unsent _ howner) hsound
      (by rw [records]; rfl) ?_ ?_ owner
    · intro p hp
      exact ⟨(hline p hp).1, (hline p hp).2 rfl⟩
    · rw [records]
      exact Mailbox.contents_push _ _

/-- One step keeps the ledger. -/
theorem step (l : Ledger settings t s) (run : Run settings t s) (h : Step s a s' e) :
    Ledger settings (t ++ [(a, e)]) s' := by
  have run' : Run settings (t ++ [(a, e)]) s' := run.step h.step_eq
  cases h.intake with
  | quiet records sent message owner => exact l.concat_same run' sent message records owner
  | take owner take =>
      -- the first record of the mailbox is now the last one with a number
      refine l.concat_unsent run' rfl (l.sound.take take) (Mailbox.limit_of_take? take) ?_ ?_
      · rw [Mailbox.line_of_take? take]
        intro p hp
        exact l.line_old _ hp
      · intro _
        exact ⟨owner, Mailbox.contents_of_take? take⟩
  | send records owner => exact l.concat_send run run' records owner
  | resume records owner => exact l.concat_resume run' records owner
  | @withdraw id records owner =>
      refine l.concat_unsent run' rfl ?_ ?_ ?_ ?_
      · rw [records]
        exact l.sound.withdraw id
      · rw [records]
        exact Mailbox.limit_withdraw _ _
      · rw [records, Mailbox.line_withdraw l.sound]
        intro p hp
        exact l.line_old _ (Mailbox.mem_lineWithout.mp hp).1
      · intro hrunning
        refine ⟨owner ▸ hrunning, ?_⟩
        rw [records, Mailbox.contents_withdraw]
        rfl
  | close records owner =>
      refine l.concat_unsent run' rfl (records ▸ .close) (by rw [records]; rfl) ?_ ?_
      · rw [records]
        intro p hp
        exact nomatch hp
      · intro hrunning
        exact absurd owner hrunning

end Ledger

theorem Run.ledger (run : Run settings t s) : Ledger settings t s := by
  induction run with
  | new => exact .new settings
  | step run h ih => exact ih.step run (.of_step h)

/-- Every completed sending is of one record. -/
theorem Ledger.length_sentRecords (l : Ledger settings t s) (run : Run settings t s) :
    t.sentRecords.length = t.sent.length := by
  rw [Trace.sentRecords, List.length_filterMap_eq_countP, List.countP_eq_length]
  intro id hid
  obtain ⟨r, hr⟩ := l.sent_begun id hid
  rw [run.recordOf_eq hr]
  rfl

/-! ## Records that are given up -/

/-- A record that was begun to be sent and will never be: its sender is not
    in line any more. -/
structure Gone (t : Trace) (s : System) (id : Nat) : Prop where
  begun : ∃ r, (id, Action.send r) ∈ t.begun
  line : id ∉ s.records.line.map Prod.fst
  unsent : id ∉ t.sent

/-- Whoever stands in line after a step stood there before or has just
    begun. -/
theorem Intake.mem_line (h : Intake s s' a e) (sound : s.records.Sound) {p : Nat × Record}
    (hp : p ∈ s'.records.line) : p ∈ s.records.line ∨ p.1 = s.next := by
  cases h with
  | quiet records => exact Or.inl (records ▸ hp)
  | take owner take => exact Or.inl (Mailbox.line_of_take? take ▸ hp)
  | send records =>
      rw [records] at hp
      exact (Mailbox.mem_line_send hp).imp_right (congrArg Prod.fst)
  | resume records =>
      rw [records] at hp
      exact Or.inl (Mailbox.mem_line_resume sound hp).1
  | withdraw records =>
      rw [records, Mailbox.line_withdraw sound] at hp
      exact Or.inl (Mailbox.mem_lineWithout.mp hp).1
  | close records =>
      rw [records] at hp
      exact nomatch hp

/-- Whose sending is completed in a step stood in line before or has just
    begun. -/
theorem Intake.sentId_eq (h : Intake s s' a e) {id : Nat} (hid : e.sentId? = some id) :
    id ∈ s.records.line.map Prod.fst ∨ id = s.next := by
  cases h with
  | quiet _ sent => rw [sent] at hid; exact nomatch hid
  | take => exact nomatch hid
  | @send r =>
      rcases Mailbox.send_cases s.records s.next r with heq | ⟨-, heq⟩ | heq
      · rw [heq] at hid
        exact nomatch hid
      · rw [heq] at hid
        exact Or.inr (Option.some.inj hid).symm
      · rw [heq] at hid
        exact nomatch hid
  | @resume k =>
      rcases Mailbox.resume_cases s.records k with heq | heq | ⟨r, hmem, heq⟩
      · rw [heq] at hid
        exact nomatch hid
      · rw [heq] at hid
        exact nomatch hid
      · rw [heq] at hid
        obtain rfl := Option.some.inj hid
        exact Or.inl (List.mem_map.mpr ⟨(k, r), List.mem_append_left _ hmem, rfl⟩)
  | withdraw => exact nomatch hid
  | close => exact nomatch hid

theorem Gone.step {id : Nat} (g : Gone t s id) (run : Run settings t s) (h : Step s a s' e) :
    Gone (t ++ [(a, e)]) s' id := by
  obtain ⟨r, hr⟩ := g.begun
  -- the number is given away already, so nothing new can begin under it
  have hold : id ≠ s.next := Nat.ne_of_lt (run.lt_next hr)
  refine ⟨⟨r, Trace.mem_begun_append hr _⟩, ?_, ?_⟩
  · intro hmem
    obtain ⟨p, hp, rfl⟩ := List.mem_map.mp hmem
    rcases h.intake.mem_line run.ledger.sound hp with hline | hnext
    · exact g.line (List.mem_map.mpr ⟨p, hline, rfl⟩)
    · exact hold hnext
  · rw [Trace.sent_concat]
    intro hmem
    rcases List.mem_append.mp hmem with hsent | hnew
    · exact g.unsent hsent
    · rcases h.intake.sentId_eq (Option.mem_toList.mp hnew) with hline | hnext
      · exact g.line hline
      · exact hold hnext

/-- What is gone stays gone for the rest of a run. -/
theorem Gone.append {id : Nat} {s₁ : System} (g : Gone t s₁ id) (run₁ : Run settings t s₁)
    (run : Run settings (t ++ t') s) : Gone (t ++ t') s id := by
  induction t' using List.reverseRecOn generalizing s with
  | nil =>
      rw [List.append_nil] at run ⊢
      exact run.unique run₁ ▸ g
  | append_singleton t' x ih =>
      rw [← List.append_assoc] at run ⊢
      obtain ⟨s₀, run₀, hstep⟩ := run.last
      exact (ih run₀).step run₀ hstep

/-- A record whose sender went away while it waited is never sent. -/
theorem Run.withdrawn_unsent {t₁ t₂ : Trace} {id : Nat} {r : Record}
    (run : Run settings (t₁ ++ (.withdrawSend id, .withdrawn id) :: t₂) s)
    (begun : (id, .send r) ∈ t₁.begun) (unsent : id ∉ t₁.sent) :
    id ∉ Trace.sent (t₁ ++ (.withdrawSend id, .withdrawn id) :: t₂) := by
  obtain ⟨s₁, s₂, run₁, hstep, run₂⟩ := run.at_place
  have hgone : Gone (t₁ ++ [(.withdrawSend id, .withdrawn id)]) s₂ id := by
    refine ⟨⟨r, Trace.mem_begun_append begun _⟩, ?_, ?_⟩
    · cases hstep with
      | withdrawSend =>
          intro hmem
          obtain ⟨p, hp, heq⟩ := List.mem_map.mp hmem
          rw [Mailbox.line_withdraw run₁.ledger.sound] at hp
          exact (Mailbox.mem_lineWithout.mp hp).2 heq
    · rw [Trace.sent_concat]
      simpa [Event.sentId?] using unsent
  rw [List.append_cons] at run ⊢
  exact (hgone.append run₂ run).unsent

end BusWindow.Store
