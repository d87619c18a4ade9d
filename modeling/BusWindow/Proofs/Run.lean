import BusWindow.Proofs.History
import BusWindow.Proofs.Mailbox
import BusWindow.Store.System

/-!
# Runs — everything that can happen to a store, in any order

    `Step` spells the rule of the store out as a relation, one constructor
    for each thing that can happen, and `step_iff` says that it is the same
    rule. A run is any sequence of possible actions from a new store on; its
    trace lists the actions with what came of them.

    Most of what is known about a state can be read off the trace that led to
    it: who got which number (`Run.map_begun`), and what was done on the
    buffer (`Run.buffer_eq`, `Run.numbered_eq`).
-/

namespace BusWindow.Store

/-- The rule of the store, one constructor for each thing that can happen. -/
inductive Step : System → Action → System → Event → Prop where
  | start {s : System} (owner : s.owner = .notStarted) :
      Step s .start { s with owner := .ready } .ownerStarted
  | discard {s : System} (owner : s.owner = .notStarted) :
      Step s .discard s.stop .ownerStopped
  | abort {s : System} (owner : s.owner = .ready) :
      Step s .abort s.stop .ownerStopped
  | takeRecord {s : System} {arrival : Timestamp} {r : Record} {records : Mailbox Record}
      (owner : s.owner = .ready) (take : s.records.take? = some (r, records)) :
      Step s (.takeRecord arrival) ({ s with records := records }.number arrival r)
        (.numbered (s.buffer.message arrival r))
  | takeShutdown {s : System} {requests : Mailbox Request}
      (owner : s.owner = .ready) (take : s.requests.take? = some (.shutdown, requests)) :
      Step s .takeRequest { s with requests := requests }.stop .ownerStopped
  | takeDemand {s : System} {id : Nat} {d : Demand} {requests : Mailbox Request}
      (owner : s.owner = .ready) (take : s.requests.take? = some (.demand id d, requests)) :
      Step s .takeRequest
        { s with requests := requests, owner := .draining s.records.limit id d } (.taken id)
  | drainRecord {s : System} {left id : Nat} {d : Demand} {arrival : Timestamp} {r : Record}
      {records : Mailbox Record}
      (owner : s.owner = .draining (left + 1) id d)
      (take : s.records.take? = some (r, records)) :
      Step s (.drainRecord arrival)
        ({ s with owner := .draining left id d, records := records }.number arrival r)
        (.numbered (s.buffer.message arrival r))
  | serve {s : System} {left id : Nat} {d : Demand}
      (owner : s.owner = .draining left id d)
      (drained : left = 0 ∨ s.records.queue.size = 0) (waits : s.isWaiting id = true) :
      Step s .serve
        ({ s with owner := .ready, buffer := s.buffer.after d }.answer id
          (s.buffer.reply s.settings.maxResults d))
        (.served id d (s.buffer.reply s.settings.maxResults d))
  | skip {s : System} {left id : Nat} {d : Demand}
      (owner : s.owner = .draining left id d)
      (drained : left = 0 ∨ s.records.queue.size = 0) (waits : s.isWaiting id = false) :
      Step s .serve { s with owner := .ready } (.skipped id)
  | askClosed {s : System} {d : Demand} (closed : s.requests.closed = true) :
      Step s (.ask d) s.numberTaken (.refused s.next .closed)
  | askQueued {s : System} {d : Demand} (closed : s.requests.closed = false)
      (room : s.requests.hasRoom = true) :
      Step s (.ask d) (s.enqueue d) (.queued s.next d)
  | askOverloaded {s : System} {d : Demand} (closed : s.requests.closed = false)
      (room : s.requests.hasRoom = false) :
      Step s (.ask d) s.numberTaken (.refused s.next .overloaded)
  | refuse {s : System} {e : InvalidRange} :
      Step s (.refuse e) s.numberTaken (.refused s.next (.invalidRange e))
  | collectReply {s : System} {id : Nat} {r : Reply} (call : s.call? id = some (.answered r)) :
      Step s (.collect id) (s.forget id) (.returned id (some r))
  | collectNone {s : System} {id : Nat} (call : s.call? id = some .dropped) :
      Step s (.collect id) (s.forget id) (.returned id none)
  | giveUp {s : System} {id : Nat} (waits : s.isWaiting id = true) :
      Step s (.giveUp id) (s.forget id) (.gaveUp id)
  | send {s : System} {r : Record} :
      Step s (.send r) ({ s with records := (s.records.send s.next r).1 }.numberTaken)
        (.recordSent s.next (s.records.send s.next r).2)
  | resumeSend {s : System} {id : Nat} :
      Step s (.resumeSend id) { s with records := (s.records.resume id).1 }
        (.recordSent id (s.records.resume id).2)
  | withdrawSend {s : System} {id : Nat} :
      Step s (.withdrawSend id) { s with records := s.records.withdraw id } (.withdrawn id)
  | sendShutdown {s : System} :
      Step s .sendShutdown ({ s with requests := (s.requests.send s.next .shutdown).1 }.numberTaken)
        (.shutdownSent s.next (s.requests.send s.next .shutdown).2)
  | resumeShutdown {s : System} {id : Nat} :
      Step s (.resumeShutdown id) { s with requests := (s.requests.resume id).1 }
        (.shutdownSent id (s.requests.resume id).2)
  | withdrawShutdown {s : System} {id : Nat} :
      Step s (.withdrawShutdown id) { s with requests := s.requests.withdraw id } (.withdrawn id)

variable {settings : StoreSettings} {s s' : System} {a : Action} {e : Event}

theorem Step.of_step (h : s.step a = some (s', e)) : Step s a s' e := by
  cases a with
  | start =>
      simp only [System.step] at h
      split at h
      · obtain ⟨rfl, rfl⟩ := Prod.mk.inj (Option.some.inj h)
        exact .start ‹_›
      · exact nomatch h
  | discard =>
      simp only [System.step] at h
      split at h
      · obtain ⟨rfl, rfl⟩ := Prod.mk.inj (Option.some.inj h)
        exact .discard ‹_›
      · exact nomatch h
  | abort =>
      simp only [System.step] at h
      split at h
      · obtain ⟨rfl, rfl⟩ := Prod.mk.inj (Option.some.inj h)
        exact .abort ‹_›
      · exact nomatch h
  | takeRecord arrival =>
      simp only [System.step, System.takeIn] at h
      split at h
      · split at h
        · obtain ⟨rfl, rfl⟩ := Prod.mk.inj (Option.some.inj h)
          exact .takeRecord ‹_› ‹_›
        · exact nomatch h
      · exact nomatch h
  | takeRequest =>
      simp only [System.step] at h
      split at h
      · obtain ⟨rfl, rfl⟩ := Prod.mk.inj (Option.some.inj h)
        exact .takeShutdown ‹_› ‹_›
      · obtain ⟨rfl, rfl⟩ := Prod.mk.inj (Option.some.inj h)
        exact .takeDemand ‹_› ‹_›
      · exact nomatch h
  | drainRecord arrival =>
      simp only [System.step, System.takeIn] at h
      split at h
      · split at h
        · obtain ⟨rfl, rfl⟩ := Prod.mk.inj (Option.some.inj h)
          exact .drainRecord ‹_› ‹_›
        · exact nomatch h
      · exact nomatch h
  | serve =>
      simp only [System.step, System.serve] at h
      split at h
      · split at h
        · split at h
          · obtain ⟨rfl, rfl⟩ := Prod.mk.inj (Option.some.inj h)
            exact .serve ‹_› ‹_› ‹_›
          · obtain ⟨rfl, rfl⟩ := Prod.mk.inj (Option.some.inj h)
            exact .skip ‹_› ‹_› (Bool.eq_false_iff.mpr ‹_›)
        · exact nomatch h
      · exact nomatch h
  | ask d =>
      simp only [System.step] at h
      split at h
      · obtain ⟨rfl, rfl⟩ := Prod.mk.inj (Option.some.inj h)
        exact .askClosed ‹_›
      · split at h
        · obtain ⟨rfl, rfl⟩ := Prod.mk.inj (Option.some.inj h)
          exact .askQueued (Bool.eq_false_iff.mpr ‹_›) ‹_›
        · obtain ⟨rfl, rfl⟩ := Prod.mk.inj (Option.some.inj h)
          exact .askOverloaded (Bool.eq_false_iff.mpr ‹_›) (Bool.eq_false_iff.mpr ‹_›)
  | refuse e =>
      obtain ⟨rfl, rfl⟩ := Prod.mk.inj (Option.some.inj h)
      exact .refuse
  | collect id =>
      simp only [System.step] at h
      split at h
      · obtain ⟨rfl, rfl⟩ := Prod.mk.inj (Option.some.inj h)
        exact .collectReply ‹_›
      · obtain ⟨rfl, rfl⟩ := Prod.mk.inj (Option.some.inj h)
        exact .collectNone ‹_›
      · exact nomatch h
  | giveUp id =>
      simp only [System.step] at h
      split at h
      · obtain ⟨rfl, rfl⟩ := Prod.mk.inj (Option.some.inj h)
        exact .giveUp ‹_›
      · exact nomatch h
  | send r =>
      obtain ⟨rfl, rfl⟩ := Prod.mk.inj (Option.some.inj h)
      exact .send
  | resumeSend id =>
      obtain ⟨rfl, rfl⟩ := Prod.mk.inj (Option.some.inj h)
      exact .resumeSend
  | withdrawSend id =>
      obtain ⟨rfl, rfl⟩ := Prod.mk.inj (Option.some.inj h)
      exact .withdrawSend
  | sendShutdown =>
      obtain ⟨rfl, rfl⟩ := Prod.mk.inj (Option.some.inj h)
      exact .sendShutdown
  | resumeShutdown id =>
      obtain ⟨rfl, rfl⟩ := Prod.mk.inj (Option.some.inj h)
      exact .resumeShutdown
  | withdrawShutdown id =>
      obtain ⟨rfl, rfl⟩ := Prod.mk.inj (Option.some.inj h)
      exact .withdrawShutdown

theorem Step.step_eq (h : Step s a s' e) : s.step a = some (s', e) := by
  cases h with
  | start owner => simp [System.step, owner]
  | discard owner => simp [System.step, owner]
  | abort owner => simp [System.step, owner]
  | takeRecord owner take => simp [System.step, System.takeIn, owner, take]
  | takeShutdown owner take => simp [System.step, owner, take]
  | takeDemand owner take => simp [System.step, owner, take]
  | drainRecord owner take => simp [System.step, System.takeIn, owner, take]
  | serve owner drained waits => simp [System.step, System.serve, owner, drained, waits]
  | skip owner drained waits => simp [System.step, System.serve, owner, drained, waits]
  | askClosed closed => simp [System.step, closed]
  | askQueued closed room => simp [System.step, closed, room]
  | askOverloaded closed room => simp [System.step, closed, room]
  | refuse => rfl
  | collectReply call => simp [System.step, call]
  | collectNone call => simp [System.step, call]
  | giveUp waits => simp [System.step, waits]
  | send => rfl
  | resumeSend => rfl
  | withdrawSend => rfl
  | sendShutdown => rfl
  | resumeShutdown => rfl
  | withdrawShutdown => rfl

/-- The relation is the rule. -/
theorem step_iff : s.step a = some (s', e) ↔ Step s a s' e :=
  ⟨Step.of_step, Step.step_eq⟩

/-! ## Traces and runs -/

/-- What was done and what came of it, in order. -/
abbrev Trace := List (Action × Event)

/-- The runs of a store from the moment it is made: every sequence of actions
    each of which is possible when its turn comes. -/
inductive Run (settings : StoreSettings) : Trace → System → Prop where
  | new : Run settings [] (System.new settings)
  | step {t : Trace} {s s' : System} {a : Action} {e : Event} :
      Run settings t s → s.step a = some (s', e) → Run settings (t ++ [(a, e)]) s'

namespace Run

variable {t t₁ t₂ : Trace} {x : Action × Event}

/-- The last step of a run. -/
theorem last (run : Run settings (t ++ [x]) s) :
    ∃ s₀, Run settings t s₀ ∧ Step s₀ x.1 s x.2 := by
  generalize hall : t ++ [x] = all at run
  cases run with
  | new => simp at hall
  | @step t' s₀ s' a e run h =>
      obtain ⟨rfl, hx⟩ := List.append_inj' hall rfl
      obtain rfl := List.singleton_inj.mp hx
      exact ⟨s₀, run, .of_step h⟩

/-- Every run passes through a state after each front part of its trace. -/
theorem front (run : Run settings (t₁ ++ t₂) s) : ∃ s₁, Run settings t₁ s₁ := by
  induction t₂ using List.reverseRecOn generalizing s with
  | nil => exact ⟨s, by simpa using run⟩
  | append_singleton t₂ x ih =>
      rw [← List.append_assoc] at run
      obtain ⟨s₀, run₀, -⟩ := run.last
      exact ih run₀

/-- The step of a run at one place of its trace. -/
theorem at_place (run : Run settings (t₁ ++ x :: t₂) s) :
    ∃ s₁ s₂, Run settings t₁ s₁ ∧ Step s₁ x.1 s₂ x.2 ∧ Run settings (t₁ ++ [x]) s₂ := by
  rw [List.append_cons] at run
  obtain ⟨s₂, run₂⟩ := run.front
  obtain ⟨s₁, run₁, hstep⟩ := run₂.last
  exact ⟨s₁, s₂, run₁, hstep, run₂⟩

/-- A trace leads to one state only. -/
theorem unique (run : Run settings t s) : ∀ {s'}, Run settings t s' → s = s' := by
  induction run with
  | new =>
      intro s' run'
      generalize hall : ([] : Trace) = all at run'
      cases run' with
      | new => rfl
      | step => simp at hall
  | @step t₀ s₀ s₁ a e _ h ih =>
      intro s' run'
      obtain ⟨s₀', run₀, h'⟩ := run'.last
      -- the states before the last step agree, and the rule is a function
      obtain rfl := ih run₀
      have heq : some (s₁, e) = some (s', e) := h.symm.trans h'.step_eq
      exact congrArg Prod.fst (Option.some.inj heq)

theorem settings_eq (run : Run settings t s) : s.settings = settings := by
  induction run with
  | new => rfl
  | step _ h ih =>
      rw [← ih]
      cases Step.of_step h <;> rfl

end Run

/-! ## Numbers given away -/

/-- The number that an action is given when it is the beginning of something:
    a record on its way, a call, a shutdown. -/
def begins : Action × Event → Option (Nat × Action)
  | (.send r, .recordSent id _) => some (id, .send r)
  | (.ask d, .queued id _) => some (id, .ask d)
  | (.ask d, .refused id _) => some (id, .ask d)
  | (.refuse e, .refused id _) => some (id, .refuse e)
  | (.sendShutdown, .shutdownSent id _) => some (id, .sendShutdown)
  | _ => none

namespace Trace

/-- Everything that was begun, under the number that it was given. -/
def begun (t : Trace) : List (Nat × Action) := t.filterMap begins

theorem begun_concat (t : Trace) (x : Action × Event) :
    begun (t ++ [x]) = t.begun ++ (begins x).toList :=
  filterMap_concat _ _ _

theorem mem_begun_append {t : Trace} {p : Nat × Action} (h : p ∈ t.begun) (t' : Trace) :
    p ∈ begun (t ++ t') := by
  rw [begun, List.filterMap_append]
  exact List.mem_append_left _ h

end Trace

/-- What is begun gets the next number, and nothing else moves the numbers. -/
theorem Step.next_eq (h : Step s a s' e) :
    begins (a, e) = none ∧ s'.next = s.next
      ∨ begins (a, e) = some (s.next, a) ∧ s'.next = s.next + 1 := by
  cases h with
  | askClosed => exact Or.inr ⟨rfl, rfl⟩
  | askQueued => exact Or.inr ⟨rfl, rfl⟩
  | askOverloaded => exact Or.inr ⟨rfl, rfl⟩
  | refuse => exact Or.inr ⟨rfl, rfl⟩
  | send => exact Or.inr ⟨rfl, rfl⟩
  | sendShutdown => exact Or.inr ⟨rfl, rfl⟩
  | _ => exact Or.inl ⟨rfl, rfl⟩

namespace Run

variable {t t₁ t₂ : Trace} {x : Action × Event}

/-- Numbers are given away one after the other, each of them once. -/
theorem map_begun (run : Run settings t s) : t.begun.map Prod.fst = List.range s.next := by
  induction run with
  | new => rfl
  | step _ h ih =>
      rw [Trace.begun_concat, List.map_append, ih]
      rcases (Step.of_step h).next_eq with ⟨hbegins, hnext⟩ | ⟨hbegins, hnext⟩
      · rw [hbegins, hnext]
        exact List.append_nil _
      · rw [hbegins, hnext, List.range_succ]
        rfl

theorem lt_next (run : Run settings t s) {p : Nat × Action} (h : p ∈ t.begun) :
    p.1 < s.next := by
  have hmem : p.1 ∈ t.begun.map Prod.fst := List.mem_map.mpr ⟨p, h, rfl⟩
  rw [run.map_begun] at hmem
  exact List.mem_range.mp hmem

/-- Nothing that was begun has the number that is given away next. -/
theorem next_notMem (run : Run settings t s) (a : Action) : (s.next, a) ∉ t.begun :=
  fun h => Nat.lt_irrefl _ (run.lt_next h)

/-- A number tells what was begun under it. -/
theorem begun_unique (run : Run settings t s) {id : Nat} {a b : Action}
    (ha : (id, a) ∈ t.begun) (hb : (id, b) ∈ t.begun) : a = b := by
  have hnodup : (t.begun.map Prod.fst).Nodup := by
    rw [run.map_begun]
    exact List.nodup_range
  have heq := List.inj_on_of_nodup_map hnodup ha hb rfl
  exact congrArg Prod.snd heq

end Run

/-! ## Work on the buffer -/

/-- The work on the buffer that an event tells of. -/
def Event.work? : Event → Option Work
  | .numbered m => some (.ingest m.receivedAt m.record)
  | .served _ d _ => some (.answer d)
  | _ => none

/-- The message that an event tells of. -/
def Event.message? : Event → Option Message
  | .numbered m => some m
  | _ => none

namespace Trace

/-- The work that was done on the buffer, in order. -/
def works (t : Trace) : List Work := t.filterMap fun x => x.2.work?

/-- The messages that were made, in order. -/
def numbered (t : Trace) : List Message := t.filterMap fun x => x.2.message?

theorem works_concat (t : Trace) (x : Action × Event) :
    works (t ++ [x]) = t.works ++ x.2.work?.toList :=
  filterMap_concat _ _ _

theorem numbered_append (t t' : Trace) : numbered (t ++ t') = t.numbered ++ numbered t' :=
  List.filterMap_append

theorem numbered_concat (t : Trace) (x : Action × Event) :
    numbered (t ++ [x]) = t.numbered ++ x.2.message?.toList :=
  filterMap_concat _ _ _

end Trace

/-- A step changes the buffer by the work that its event tells of. -/
theorem Step.buffer_eq (h : Step s a s' e) :
    s'.buffer = s.buffer.performAll e.work?.toList := by
  cases h <;> rfl

/-- The message that a step makes is the next one of the buffer. -/
theorem Step.numbered_inv {m : Message} (h : Step s a s' (.numbered m)) :
    m = s.buffer.message m.receivedAt m.record := by
  cases h with
  | takeRecord => rfl
  | drainRecord => rfl

namespace Run

variable {t t₁ t₂ : Trace}

/-- The buffer is what the work told of in the trace makes of a new one. -/
theorem buffer_eq (run : Run settings t s) :
    s.buffer = (Buffer.empty settings.capacity).performAll t.works := by
  induction run with
  | new => rfl
  | step _ h ih =>
      rw [(Step.of_step h).buffer_eq, ih, Trace.works_concat]
      exact List.foldl_append.symm

/-- The messages that were made are the history of that work: the first one
    has the number zero, and each one the number after the one before. -/
theorem numbered_eq (run : Run settings t s) : t.numbered = Work.history t.works := by
  induction run with
  | new => rfl
  | @step t s s' a e run h ih =>
      rw [Trace.numbered_concat, Trace.works_concat, ih]
      cases e with
      | numbered m =>
          -- the counter of the buffer is the length of the history so far
          have hm := (Step.of_step h).numbered_inv
          rw [Buffer.message, run.buffer_eq, Buffer.received_performAll] at hm
          show Work.history t.works ++ [m]
            = Work.history (t.works ++ [.ingest m.receivedAt m.record])
          rw [Work.history_concat_ingest, ← hm]
      | served id d r =>
          show Work.history t.works ++ [] = Work.history (t.works ++ [.answer d])
          rw [Work.history_concat_answer, List.append_nil]
      | _ =>
          show Work.history t.works ++ [] = Work.history (t.works ++ [])
          rw [List.append_nil, List.append_nil]

theorem received_eq (run : Run settings t s) : s.buffer.received = t.numbered.length := by
  rw [run.buffer_eq, run.numbered_eq, Buffer.received_performAll, Work.length_history]

end Run

/-! ## Playing actions -/

/-- Performs actions one after the other, if each one is possible. -/
def System.play (s : System) : List Action → Option (Trace × System)
  | [] => some ([], s)
  | a :: rest =>
    match s.step a with
    | some (s', e) => (s'.play rest).map fun r => ((a, e) :: r.1, r.2)
    | none => none

/-- What was played is a run. -/
theorem Run.play {actions : List Action} {t t' : Trace} {s s' : System}
    (run : Run settings t s) (h : s.play actions = some (t', s')) :
    Run settings (t ++ t') s' := by
  induction actions generalizing t t' s with
  | nil =>
      obtain ⟨rfl, rfl⟩ := Prod.mk.inj (Option.some.inj h)
      rw [List.append_nil]
      exact run
  | cons a rest ih =>
      simp only [System.play] at h
      cases hstep : s.step a with
      | none => rw [hstep] at h; exact nomatch h
      | some p =>
          obtain ⟨s₁, e⟩ := p
          rw [hstep] at h
          obtain ⟨⟨t₁, s₂⟩, hplay, hr⟩ := Option.map_eq_some_iff.mp h
          obtain ⟨rfl, rfl⟩ := Prod.mk.inj hr
          have hrun := ih (run.step hstep) hplay
          rwa [List.append_assoc] at hrun

/-- Actions that can be played on a new store make a run. -/
theorem Run.of_play {actions : List Action}
    (h : ((System.new settings).play actions).isSome = true) :
    Run settings (((System.new settings).play actions).get h).1
      (((System.new settings).play actions).get h).2 :=
  Run.play .new (Option.some_get h).symm

end BusWindow.Store
