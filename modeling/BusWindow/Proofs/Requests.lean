import BusWindow.Proofs.Calls

/-!
# Requests — first in, first out

    Calls and shutdowns enter one mailbox, and the owner takes out what came
    in first. So what entered is, in this order, what was taken and what
    still lies in the mailbox; a shutdown is never taken before a call that
    entered before it, and no call is taken after a shutdown.

    * `Step.passage` sorts the steps by what they do to this order, and
      `Run.order` is the same of every run;
    * `Run.reached` says that whatever was taken is served or skipped before
      the owner turns to anything else.
-/

namespace BusWindow.Store

variable {settings : StoreSettings} {t t₁ t₂ : Trace} {s s' : System} {a : Action} {e : Event}

/-! ## What enters, and what is taken -/

/-- The call that a request is of; a shutdown is of none. -/
def Request.call? : Request → Option Nat
  | .demand id _ => some id
  | .shutdown => none

/-- The call of a request that has entered the mailbox, as an event tells of
    it. -/
def Event.entered? : Event → Option (Option Nat)
  | .queued id _ => some (some id)
  | .shutdownSent _ .accepted => some none
  | _ => none

/-- No call enters the mailbox by a shutdown. -/
theorem Event.entered?_shutdownSent (k id : Nat) (sent : Sent) :
    (Event.shutdownSent k sent).entered? ≠ some (some id) := by
  cases sent with
  | accepted => exact nofun
  | waits => exact nofun
  | lost => exact nofun

/-- The call that the owner has turned to, as an event tells of it. -/
def Event.taken? : Event → Option Nat
  | .taken id => some id
  | _ => none

namespace Trace

/-- The calls of all requests that entered the mailbox, in order. -/
def entered (t : Trace) : List (Option Nat) := t.filterMap fun x => x.2.entered?

/-- The calls that the owner turned to, in order. -/
def taken (t : Trace) : List Nat := t.filterMap fun x => x.2.taken?

theorem entered_append (t t' : Trace) : entered (t ++ t') = t.entered ++ entered t' :=
  List.filterMap_append

theorem entered_concat (t : Trace) (x : Action × Event) :
    entered (t ++ [x]) = t.entered ++ x.2.entered?.toList :=
  filterMap_concat _ _ _

theorem taken_append (t t' : Trace) : taken (t ++ t') = t.taken ++ taken t' :=
  List.filterMap_append

theorem taken_concat (t : Trace) (x : Action × Event) :
    taken (t ++ [x]) = t.taken ++ x.2.taken?.toList :=
  filterMap_concat _ _ _

/-- A trace in which a shutdown has entered. -/
theorem entered_shutdown (t₁ t₂ : Trace) (a : Action) (k : Nat) :
    entered (t₁ ++ (a, .shutdownSent k .accepted) :: t₂) = t₁.entered ++ none :: t₂.entered :=
  entered_append _ _

theorem mem_entered {t : Trace} {id : Nat} {d : Demand} (h : (a, .queued id d) ∈ t) :
    some id ∈ t.entered :=
  List.mem_filterMap.mpr ⟨_, h, rfl⟩

end Trace

/-- What is begun at one place of a run has a number that was not given away
    before. -/
theorem Run.begun_once {x : Action × Event} (run : Run settings (t₁ ++ x :: t₂) s) {id : Nat}
    {b : Action} (h : begins x = some (id, b)) (c : Action) : (id, c) ∉ t₁.begun := by
  obtain ⟨s₁, s₂, run₁, hstep, -⟩ := run.at_place
  rcases hstep.next_eq with ⟨hnone, -⟩ | ⟨hsome, -⟩
  · exact nomatch hnone.symm.trans h
  · obtain ⟨rfl, -⟩ := Prod.mk.inj (Option.some.inj (hsome.symm.trans h))
    exact run₁.next_notMem c

/-- What was begun under one number was begun in one place. -/
theorem Run.place_unique (run : Run settings t s) {x y : Action × Event} {id : Nat} {b c : Action}
    (hx : x ∈ t) (hy : y ∈ t) (hb : begins x = some (id, b)) (hc : begins y = some (id, c)) :
    x = y := by
  obtain ⟨t₁, t₂, rfl⟩ := List.append_of_mem hx
  rcases List.mem_append.mp hy with hy | hy
  · exact absurd (List.mem_filterMap.mpr ⟨y, hy, hc⟩) (run.begun_once hb c)
  · rcases List.mem_cons.mp hy with heq | hy
    · exact heq.symm
    · obtain ⟨u₁, u₂, rfl⟩ := List.append_of_mem hy
      have hbegun : (id, b) ∈ Trace.begun (t₁ ++ x :: u₁) :=
        List.mem_filterMap.mpr ⟨x, List.mem_append_right _ List.mem_cons_self, hb⟩
      rw [← List.cons_append, ← List.append_assoc] at run
      exact absurd hbegun (run.begun_once hc b)

/-- Whoever entered the mailbox asked. -/
theorem Run.asked_of_entered (run : Run settings t s) {id : Nat} (h : some id ∈ t.entered) :
    ∃ d, (Action.ask d, Event.queued id d) ∈ t := by
  obtain ⟨⟨a, e⟩, hx, hentered⟩ := List.mem_filterMap.mp h
  obtain ⟨t₁, t₂, rfl⟩ := List.append_of_mem hx
  obtain ⟨s₁, s₂, -, hstep, -⟩ := run.at_place
  cases hstep with
  | @askQueued d =>
      obtain rfl := Option.some.inj (Option.some.inj hentered)
      exact ⟨d, hx⟩
  | sendShutdown => exact absurd hentered (Event.entered?_shutdownSent _ _ _)
  | resumeShutdown => exact absurd hentered (Event.entered?_shutdownSent _ _ _)
  | _ => exact nomatch hentered

/-! ## The order of requests -/

/-- What a step can do to the order of requests. -/
inductive Passage (s s' : System) : Event → Prop where
  | quiet {e : Event} (entered : e.entered? = none) (taken : e.taken? = none)
      (contents : s'.owner ≠ .stopped →
        s.owner ≠ .stopped ∧ s'.requests.contents = s.requests.contents) : Passage s s' e
  | enter {e : Event} (q : Request) (entered : e.entered? = some q.call?) (taken : e.taken? = none)
      (owner : s'.owner = s.owner) (contents : s'.requests.contents = s.requests.contents ++ [q]) :
      Passage s s' e
  | take {id : Nat} {d : Demand} (owner : s.owner = .ready)
      (contents : s.requests.contents = .demand id d :: s'.requests.contents) :
      Passage s s' (.taken id)

theorem Step.passage (h : Step s a s' e) (i : Inbox settings t s) : Passage s s' e := by
  have hnothing {s' : System} {e : Event} (entered : e.entered? = none) (taken : e.taken? = none)
      (owner : s'.owner = s.owner) (contents : s'.requests.contents = s.requests.contents) :
      Passage s s' e :=
    .quiet entered taken fun hrunning => ⟨owner ▸ hrunning, contents⟩
  cases h with
  | start owner => exact .quiet rfl rfl fun _ => ⟨fun h => (nomatch owner.symm.trans h), rfl⟩
  | discard => exact .quiet rfl rfl fun hrunning => absurd rfl hrunning
  | abort => exact .quiet rfl rfl fun hrunning => absurd rfl hrunning
  | takeRecord => exact hnothing rfl rfl rfl rfl
  | takeShutdown => exact .quiet rfl rfl fun hrunning => absurd rfl hrunning
  | takeDemand owner take => exact .take owner (Mailbox.contents_of_take? take)
  | drainRecord owner => exact .quiet rfl rfl fun _ => ⟨fun h => (nomatch owner.symm.trans h), rfl⟩
  | serve owner => exact .quiet rfl rfl fun _ => ⟨fun h => (nomatch owner.symm.trans h), rfl⟩
  | skip owner => exact .quiet rfl rfl fun _ => ⟨fun h => (nomatch owner.symm.trans h), rfl⟩
  | askQueued => exact .enter _ rfl rfl rfl (Mailbox.contents_push _ _)
  | sendShutdown =>
      rcases Mailbox.send_cases s.requests s.next .shutdown with heq | ⟨-, heq⟩ | heq
      · rw [heq]
        exact hnothing rfl rfl rfl rfl
      · rw [heq]
        exact .enter .shutdown rfl rfl rfl (Mailbox.contents_push _ _)
      · rw [heq]
        exact hnothing rfl rfl rfl rfl
  | @resumeShutdown id =>
      rcases Mailbox.resume_cases s.requests id with heq | heq | ⟨q, hmem, heq⟩
      · rw [heq]
        exact hnothing rfl rfl rfl rfl
      · rw [heq]
        exact hnothing rfl rfl rfl rfl
      · -- only shutdowns stand in line
        obtain ⟨rfl, -⟩ : q = .shutdown ∧ _ := i.line_begun (id, q) (List.mem_append_left _ hmem)
        rw [heq]
        exact .enter .shutdown rfl rfl rfl (Mailbox.contents_push _ _)
  | withdrawShutdown => exact hnothing rfl rfl rfl (Mailbox.contents_withdraw _ _)
  | _ => exact hnothing rfl rfl rfl rfl

/-- What entered the mailbox is what was taken and then something else, which
    is what still lies in the mailbox until the owner stops. -/
theorem Run.order (run : Run settings t s) :
    ∃ rest, t.entered = t.taken.map some ++ rest
      ∧ (s.owner ≠ .stopped → rest = s.requests.contents.map Request.call?) := by
  induction run with
  | new => exact ⟨[], rfl, fun _ => rfl⟩
  | @step t s s' a e run h ih =>
      obtain ⟨rest, horder, hrest⟩ := ih
      rw [Trace.entered_concat, Trace.taken_concat, horder]
      cases (Step.of_step h).passage run.inbox with
      | quiet entered taken contents =>
          refine ⟨rest, by simp [entered, taken], ?_⟩
          intro hrunning
          obtain ⟨howner, hcontents⟩ := contents hrunning
          rw [hrest howner, hcontents]
      | enter q entered taken owner contents =>
          refine ⟨rest ++ [q.call?], by simp [entered, taken], ?_⟩
          intro hrunning
          rw [hrest (owner ▸ hrunning), contents, List.map_append]
          rfl
      | @take id d owner contents =>
          -- what is taken moves from the front of the rest to what was taken
          have hrest := hrest (by rw [owner]; exact nofun)
          rw [contents, List.map_cons] at hrest
          refine ⟨s'.requests.contents.map Request.call?, ?_, fun _ => rfl⟩
          rw [hrest]
          simp [Event.entered?, Event.taken?, Request.call?]

/-- A list without an element lies before the element in every list that it
    begins. -/
private theorem prefix_of_notMem {α : Type} {x : α} {l rest front back : List α} (h : x ∉ l)
    (heq : l ++ rest = front ++ x :: back) : l <+: front := by
  rcases List.append_eq_append_iff.mp heq with ⟨u, rfl, -⟩ | ⟨u, hl, hback⟩
  · exact List.prefix_append _ _
  · cases u with
    | nil =>
        rw [List.append_nil] at hl
        exact hl ▸ List.prefix_rfl
    | cons y u =>
        obtain ⟨rfl, -⟩ := List.cons_eq_cons.mp hback
        rw [hl] at h
        exact absurd (List.mem_append_right _ List.mem_cons_self) h

/-- A call that entered after a shutdown is never taken. -/
theorem Run.untaken_after_shutdown {k : Nat}
    (run : Run settings (t₁ ++ (a, .shutdownSent k .accepted) :: t₂) s) {id : Nat} {d : Demand}
    (asked : (Action.ask d, Event.queued id d) ∈ t₂) :
    id ∉ Trace.taken (t₁ ++ (a, .shutdownSent k .accepted) :: t₂) := by
  intro hmem
  obtain ⟨rest, horder, -⟩ := run.order
  rw [Trace.entered_shutdown] at horder
  have hbefore := prefix_of_notMem (by simp) horder.symm
  -- otherwise its number would have been given away twice
  obtain ⟨s₁, run₁⟩ := run.front
  obtain ⟨d', asked'⟩ :=
    run₁.asked_of_entered (hbefore.subset (List.mem_map.mpr ⟨id, hmem, rfl⟩))
  obtain ⟨u₁, u₂, rfl⟩ := List.append_of_mem asked
  rw [← List.cons_append, ← List.append_assoc] at run
  exact run.begun_once rfl (.ask d')
    (List.mem_filterMap.mpr ⟨_, List.mem_append_left _ asked', rfl⟩)

/-- If the owner has stopped because of a shutdown, it had taken every call
    that entered before the first one. -/
theorem Run.taken_before_shutdown {k : Nat}
    (run : Run settings (t₁ ++ (a, .shutdownSent k .accepted) :: t₂) s)
    (first : none ∉ t₁.entered) {id : Nat} {d : Demand}
    (asked : (Action.ask d, Event.queued id d) ∈ t₁)
    (stopped : (Action.takeRequest, Event.ownerStopped)
      ∈ t₁ ++ (a, .shutdownSent k .accepted) :: t₂) :
    id ∈ Trace.taken (t₁ ++ (a, .shutdownSent k .accepted) :: t₂) := by
  obtain ⟨u₁, u₂, hsplit⟩ := List.append_of_mem stopped
  have hentered := Trace.entered_shutdown t₁ t₂ a k
  rw [hsplit] at run hentered ⊢
  obtain ⟨s₁, s₂, run₁, hstep, -⟩ := run.at_place
  obtain ⟨rest, horder, hrest⟩ := run₁.order
  cases hstep with
  | takeShutdown owner take =>
      -- a shutdown was first in the mailbox, so what had been taken lies before the first one
      have hrest := hrest (by rw [owner]; exact nofun)
      rw [Mailbox.contents_of_take? take, List.map_cons] at hrest
      rw [Trace.entered_append, horder, hrest, List.append_assoc, List.cons_append] at hentered
      have hmem := (prefix_of_notMem first hentered.symm).subset (Trace.mem_entered asked)
      obtain ⟨id', hid', heq⟩ := List.mem_map.mp hmem
      rw [Trace.taken_append]
      exact List.mem_append_left _ (Option.some.inj heq ▸ hid')

/-! ## What becomes of what was taken -/

/-- The owner leaves a request that it has taken only by serving or skipping
    it. -/
theorem Step.of_draining {left id : Nat} {d : Demand} (h : Step s a s' e)
    (owner : s.owner = .draining left id d) :
    (∃ left', s'.owner = .draining left' id d)
      ∨ a = .serve ∧ (e = .skipped id ∨ ∃ r, e = .served id d r) := by
  cases h with
  | start other => exact nomatch owner.symm.trans other
  | discard other => exact nomatch owner.symm.trans other
  | abort other => exact nomatch owner.symm.trans other
  | takeRecord other => exact nomatch owner.symm.trans other
  | takeShutdown other => exact nomatch owner.symm.trans other
  | takeDemand other => exact nomatch owner.symm.trans other
  | drainRecord same =>
      obtain ⟨-, rfl, rfl⟩ := Owner.draining.inj (owner.symm.trans same)
      exact Or.inl ⟨_, rfl⟩
  | serve same =>
      obtain ⟨-, rfl, rfl⟩ := Owner.draining.inj (owner.symm.trans same)
      exact Or.inr ⟨rfl, Or.inr ⟨_, rfl⟩⟩
  | skip same =>
      obtain ⟨-, rfl, rfl⟩ := Owner.draining.inj (owner.symm.trans same)
      exact Or.inr ⟨rfl, Or.inl rfl⟩
  | _ => exact Or.inl ⟨left, owner⟩

/-- Every call that was taken was served or skipped, unless it is the one
    that the owner is on the way to. -/
theorem Run.reached (run : Run settings t s) {id : Nat} (h : id ∈ t.taken) :
    (∃ left d, s.owner = .draining left id d)
      ∨ (∃ d r, (Action.serve, Event.served id d r) ∈ t)
      ∨ (Action.serve, Event.skipped id) ∈ t := by
  induction run with
  | new => exact nomatch h
  | @step t s s' a e run hstep ih =>
      rw [Trace.taken_concat] at h
      rcases List.mem_append.mp h with hold | hnew
      · rcases ih hold with ⟨left, d, howner⟩ | ⟨d, r, hserved⟩ | hskipped
        · have hlast : (a, e) ∈ t ++ [(a, e)] := List.mem_append_right _ List.mem_cons_self
          rcases (Step.of_step hstep).of_draining howner with
            ⟨left', howner'⟩ | ⟨rfl, rfl | ⟨r, rfl⟩⟩
          · exact Or.inl ⟨left', d, howner'⟩
          · exact Or.inr (Or.inr hlast)
          · exact Or.inr (Or.inl ⟨d, r, hlast⟩)
        · exact Or.inr (Or.inl ⟨d, r, List.mem_append_left _ hserved⟩)
        · exact Or.inr (Or.inr (List.mem_append_left _ hskipped))
      · cases Step.of_step hstep with
        | @takeDemand id' d =>
            have hid : id = id' := by simpa [Event.taken?] using hnew
            subst hid
            exact Or.inl ⟨_, d, rfl⟩
        | _ => exact nomatch hnew

/-- What was served was taken before. -/
theorem Run.taken_of_served (run : Run settings t s) {id : Nat} {d : Demand} {r : Reply}
    (h : (d, r) ∈ t.servings id) : id ∈ t.taken := by
  obtain ⟨t₁, t₂, rfl⟩ := run.serving_inv h
  obtain ⟨_, _, _, before, after, _, _, _, _, _, _, w⟩ := run.served_inv
  rw [Trace.taken_append, w.split, Trace.taken_append]
  exact List.mem_append_left _ (List.mem_append_right _ List.mem_cons_self)

end BusWindow.Store
