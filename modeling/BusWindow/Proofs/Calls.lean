import BusWindow.Proofs.Visibility

/-!
# Calls — a call is applied if and only if it is answered

    A call is refused at once, or it waits for the owner. While it waits it
    is answered by being served, dropped by a stop of the owner, or given up
    by its client; whatever comes first ends the waiting. `Story` lists what
    can be told of one call at any time: how far it has come, how often it
    was served, and what it came back with.

    * `Step.reception` sorts the steps by what they do to the open calls, and
      `Register.step` has one case for each sort;
    * `Run.register` is the same of every run;
    * `call_applied_iff_answered` is the whole statement.
-/

namespace BusWindow.Store

/-! ## What clients call with -/

/-- What a client calls with. -/
inductive Inquiry where
  | query (raw : String)
  | clear
  | dump
  | stats
  deriving DecidableEq, Repr

namespace Inquiry

/-- What the owner is asked by a call, if the call can be understood. -/
def demand : Inquiry → Except InvalidRange Demand
  | .query raw => (Query.parse raw).map .query
  | .clear => .ok .clear
  | .dump => .ok .dump
  | .stats => .ok .stats

/-- How a call begins. -/
def action (q : Inquiry) : Action :=
  match q.demand with
  | .ok d => .ask d
  | .error e => .refuse e

/-- An inquiry that is acted on has a demand. -/
theorem demand_of_action_ask {q : Inquiry} {d : Demand} (h : q.action = .ask d) :
    q.demand = .ok d := by
  rw [action] at h
  split at h
  · next hd => rw [hd, Action.ask.inj h]
  · exact nomatch h

theorem demand_of_action_refuse {q : Inquiry} {e : InvalidRange} (h : q.action = .refuse e) :
    q.demand = .error e := by
  rw [action] at h
  split at h
  · exact nomatch h
  · next he => rw [he, Action.refuse.inj h]

theorem action_of_demand_ok {q : Inquiry} {d : Demand} (h : q.demand = .ok d) :
    q.action = .ask d := by
  rw [action, h]

/-- One that has none is refused with the same error. -/
theorem action_of_demand_error {q : Inquiry} {e : InvalidRange} (h : q.demand = .error e) :
    q.action = .refuse e := by
  rw [action, h]

end Inquiry

/-! ## What becomes of a call -/

/-- What the owner has served for a call, as an event tells of it. -/
def Event.serving? (id : Nat) : Event → Option (Demand × Reply)
  | .served k d r => if k = id then some (d, r) else none
  | _ => none

/-- What a call comes back with, as an event tells of it. -/
def Event.outcome? (timeout : Duration) (id : Nat) : Event → Option (Except StoreError Reply)
  | .refused k e => if k = id then some (.error e) else none
  | .returned k (some r) => if k = id then some (.ok r) else none
  | .returned k none => if k = id then some (.error .closed) else none
  | .gaveUp k => if k = id then some (.error (.timeout timeout)) else none
  | _ => none

/-- The call that an event tells of. -/
def Event.call? : Event → Option Nat
  | .taken id => some id
  | .served id _ _ => some id
  | .skipped id => some id
  | .queued id _ => some id
  | .refused id _ => some id
  | .returned id _ => some id
  | .gaveUp id => some id
  | _ => none

namespace Trace

/-- What the owner has served for a call, in order. -/
def servings (t : Trace) (id : Nat) : List (Demand × Reply) :=
  t.filterMap fun x => x.2.serving? id

/-- What a call has come back with, in order. -/
def outcomes (t : Trace) (timeout : Duration) (id : Nat) : List (Except StoreError Reply) :=
  t.filterMap fun x => x.2.outcome? timeout id

/-- One more step serves a call at most once more. -/
theorem servings_concat (t : Trace) (x : Action × Event) (id : Nat) :
    servings (t ++ [x]) id = t.servings id ++ (x.2.serving? id).toList :=
  filterMap_concat _ _ _

theorem outcomes_append (t t' : Trace) (timeout : Duration) (id : Nat) :
    outcomes (t ++ t') timeout id = t.outcomes timeout id ++ outcomes t' timeout id :=
  List.filterMap_append

/-- One more step ends a call at most once more. -/
theorem outcomes_concat (t : Trace) (x : Action × Event) (timeout : Duration) (id : Nat) :
    outcomes (t ++ [x]) timeout id = t.outcomes timeout id ++ (x.2.outcome? timeout id).toList :=
  filterMap_concat _ _ _

end Trace

/-- What can be told of one call: how far it has come, what was served for
    it, and what it came back with. -/
inductive Story : Option Call → List (Demand × Reply) → List (Except StoreError Reply) → Prop where
  | unheard : Story none [] []
  | waiting : Story (some .waiting) [] []
  | answered (d : Demand) (r : Reply) : Story (some (.answered r)) [(d, r)] []
  | dropped : Story (some .dropped) [] []
  | succeeded (d : Demand) (r : Reply) : Story none [(d, r)] [.ok r]
  | failed (e : StoreError) : Story none [] [.error e]

namespace Story

variable {call : Option Call} {served : List (Demand × Reply)}
  {ended : List (Except StoreError Reply)}

/-- A call that waits has been neither served nor ended. -/
theorem of_waiting (h : Story (some .waiting) served ended) : served = [] ∧ ended = [] := by
  cases h with
  | waiting => exact ⟨rfl, rfl⟩

/-- Nor has one that was dropped. -/
theorem of_dropped (h : Story (some .dropped) served ended) : served = [] ∧ ended = [] := by
  cases h with
  | dropped => exact ⟨rfl, rfl⟩

/-- A call with an answer has been served once, and not ended yet. -/
theorem of_answered {r : Reply} (h : Story (some (.answered r)) served ended) :
    ∃ d, served = [(d, r)] ∧ ended = [] := by
  cases h with
  | answered d => exact ⟨d, rfl, rfl⟩

/-- A stop of the owner is the end of waiting and of nothing else. -/
theorem drop (h : Story call served ended) : Story (call.map Call.drop) served ended := by
  cases h with
  | unheard => exact .unheard
  | waiting => exact .dropped
  | answered d r => exact .answered d r
  | dropped => exact .dropped
  | succeeded d r => exact .succeeded d r
  | failed e => exact .failed e

/-- A call that came back came back once: with the answer that was served
    for it, or with an error when nothing was. -/
theorem of_mem {v : Except StoreError Reply} (h : Story call served ended) (hv : v ∈ ended) :
    ended = [v] ∧ ((∃ d r, v = .ok r ∧ served = [(d, r)]) ∨ ∃ e, v = .error e ∧ served = []) := by
  cases h with
  | unheard => exact nomatch hv
  | waiting => exact nomatch hv
  | answered => exact nomatch hv
  | dropped => exact nomatch hv
  | succeeded d r =>
      obtain rfl := List.mem_singleton.mp hv
      exact ⟨rfl, Or.inl ⟨d, r, rfl, rfl⟩⟩
  | failed e =>
      obtain rfl := List.mem_singleton.mp hv
      exact ⟨rfl, Or.inr ⟨e, rfl, rfl⟩⟩

/-- A call that ended with an error was never served. -/
theorem unserved_of_error {e : StoreError} (h : Story call served ended) (he : .error e ∈ ended) :
    served = [] := by
  obtain ⟨-, ⟨d, r, hr, -⟩ | ⟨-, -, hunserved⟩⟩ := h.of_mem he
  · exact nomatch hr
  · exact hunserved

/-- A call that ended with a reply was served once, with this reply. -/
theorem served_of_ok {r : Reply} (h : Story call served ended) (hr : .ok r ∈ ended) :
    ∃ d, served = [(d, r)] := by
  obtain ⟨-, ⟨d, r', heq, hserved⟩ | ⟨e, he, -⟩⟩ := h.of_mem hr
  · obtain rfl := Except.ok.inj heq
    exact ⟨d, hserved⟩
  · exact nomatch he

end Story

/-! ## The open calls -/

variable {settings : StoreSettings} {t t' : Trace} {s s' : System} {a : Action} {e : Event}

theorem isWaiting_iff {id : Nat} : s.isWaiting id = true ↔ s.call? id = some .waiting := by
  rw [System.isWaiting]
  split
  · next h => simp [h]
  · next h => simpa using h

theorem call?_congr (calls : s'.calls = s.calls) (id : Nat) : s'.call? id = s.call? id := by
  rw [System.call?, calls, System.call?]

/-- A call that has just joined is found under its number. -/
theorem call?_of_concat {id : Nat} {c : Call} (calls : s'.calls = s.calls ++ [(id, c)])
    (unheard : s.call? id = none) : s'.call? id = some c := by
  rw [System.call?] at unheard
  rw [System.call?, calls, List.lookup_append, unheard]
  simp

/-- An open call is found under its number. -/
theorem exists_call?_of_mem_keys {id : Nat} (h : id ∈ s.calls.map Prod.fst) :
    ∃ c, s.call? id = some c := by
  refine Option.ne_none_iff_exists'.mp fun hnone => ?_
  obtain ⟨c, hc, rfl⟩ := List.mem_map.mp h
  have hne := List.lookup_eq_none_iff.mp hnone c hc
  simp at hne

/-- Looking up in a list whose values were changed key by key. -/
private theorem lookup_map_snd {α β : Type} (f : Nat → α → β) (l : List (Nat × α)) (id : Nat) :
    (l.map fun c => (c.1, f c.1 c.2)).lookup id = (l.lookup id).map (f id) := by
  induction l with
  | nil => rfl
  | cons c l ih =>
      rw [List.map_cons, List.lookup_cons, List.lookup_cons]
      by_cases h : id = c.1
      · subst h
        simp
      · have hne : (id == c.1) = false := beq_eq_false_iff_ne.mpr h
        simp only [hne]
        exact ih

/-- Looking up in a list from which one key was taken. -/
private theorem lookup_filter_ne {α : Type} (l : List (Nat × α)) (k id : Nat) :
    (l.filter fun c => c.1 != k).lookup id = if id = k then none else l.lookup id := by
  induction l with
  | nil => simp
  | cons c l ih =>
      obtain ⟨key, a⟩ := c
      rw [List.filter_cons]
      by_cases hid : id = key
      · subst hid
        by_cases hkey : id = k
        · simpa [hkey] using ih
        · simp [hkey]
      · have hne : (id == key) = false := beq_eq_false_iff_ne.mpr hid
        by_cases hkey : key = k
        · simpa [hkey, List.lookup_cons, hkey ▸ hne] using ih
        · simpa [hkey, List.lookup_cons, hne] using ih

/-- What a step can do to the open calls. -/
inductive Reception (s s' : System) : Action → Event → Prop where
  | quiet {a : Action} {e : Event} (calls : s'.calls = s.calls) (next : s.next ≤ s'.next)
      (serving : ∀ id, e.serving? id = none)
      (outcome : ∀ timeout id, e.outcome? timeout id = none) : Reception s s' a e
  | enter {d : Demand} (calls : s'.calls = s.calls ++ [(s.next, .waiting)])
      (next : s'.next = s.next + 1) : Reception s s' (.ask d) (.queued s.next d)
  | refuse {a : Action} {e : StoreError} (calls : s'.calls = s.calls)
      (next : s'.next = s.next + 1) : Reception s s' a (.refused s.next e)
  | answer {id : Nat} {d : Demand} {r : Reply} (waits : s.call? id = some .waiting)
      (calls : s'.calls = s.calls.map fun c => if c.1 = id then (c.1, .answered r) else c)
      (next : s'.next = s.next) : Reception s s' .serve (.served id d r)
  | collect {id : Nat} {r : Reply} (call : s.call? id = some (.answered r))
      (calls : s'.calls = (s.forget id).calls) (next : s'.next = s.next) :
      Reception s s' (.collect id) (.returned id (some r))
  | fail {a : Action} {e : Event} {id : Nat} (error : Duration → StoreError)
      (call : s.call? id = some .waiting ∨ s.call? id = some .dropped)
      (calls : s'.calls = (s.forget id).calls) (next : s'.next = s.next)
      (serving : ∀ k, e.serving? k = none)
      (outcome : ∀ timeout k, e.outcome? timeout k
        = if id = k then some (.error (error timeout)) else none) : Reception s s' a e
  | drop {a : Action} (calls : s'.calls = s.calls.map fun c => (c.1, Call.drop c.2))
      (next : s'.next = s.next) : Reception s s' a .ownerStopped

/-- What one step does to the open calls, one case for each kind of step. -/
theorem Step.reception (h : Step s a s' e) : Reception s s' a e := by
  cases h with
  | discard => exact .drop rfl rfl
  | abort => exact .drop rfl rfl
  | takeShutdown => exact .drop rfl rfl
  | serve owner drained waits => exact .answer (isWaiting_iff.mp waits) rfl rfl
  | askClosed => exact .refuse rfl rfl
  | askQueued => exact .enter rfl rfl
  | askOverloaded => exact .refuse rfl rfl
  | refuse => exact .refuse rfl rfl
  | collectReply call => exact .collect call rfl rfl
  | collectNone call =>
      exact .fail (fun _ => .closed) (Or.inr call) rfl rfl (fun _ => rfl) (fun _ _ => rfl)
  | giveUp waits =>
      exact .fail .timeout (Or.inl (isWaiting_iff.mp waits)) rfl rfl (fun _ => rfl)
        (fun _ _ => rfl)
  | send => exact .quiet rfl (Nat.le_succ _) (fun _ => rfl) (fun _ _ => rfl)
  | sendShutdown => exact .quiet rfl (Nat.le_succ _) (fun _ => rfl) (fun _ _ => rfl)
  | _ => exact .quiet rfl (Nat.le_refl _) (fun _ => rfl) (fun _ _ => rfl)

/-- The open calls, told against the trace that led to them. -/
structure Register (settings : StoreSettings) (t : Trace) (s : System) : Prop where
  story : ∀ id, Story (s.call? id) (t.servings id) (t.outcomes settings.timeout id)
  fresh : ∀ id, s.next ≤ id →
    s.call? id = none ∧ t.servings id = [] ∧ t.outcomes settings.timeout id = []

namespace Register

theorem new (settings : StoreSettings) : Register settings [] (System.new settings) where
  story := fun _ => .unheard
  fresh := fun _ _ => ⟨rfl, rfl, rfl⟩

/-- An open call has a number. -/
theorem lt_next (g : Register settings t s) {id : Nat} {c : Call} (h : s.call? id = some c) :
    id < s.next := by
  by_contra hle
  have hnone := (g.fresh id (Nat.not_lt.mp hle)).1
  exact nomatch hnone.symm.trans h

/-- A step that nothing is told of keeps the register if it tells the story
    of each open call on. -/
theorem concat_quiet (g : Register settings t s) (next : s.next ≤ s'.next)
    (serving : ∀ id, e.serving? id = none) (outcome : ∀ timeout id, e.outcome? timeout id = none)
    (story : ∀ id, Story (s'.call? id) (t.servings id) (t.outcomes settings.timeout id))
    (closed : ∀ id, s.call? id = none → s'.call? id = none) :
    Register settings (t ++ [(a, e)]) s' where
  story := by
    intro id
    rw [Trace.servings_concat, Trace.outcomes_concat, serving, outcome]
    simpa using story id
  fresh := by
    intro id hid
    obtain ⟨hnone, hserving, houtcome⟩ := g.fresh id (next.trans hid)
    rw [Trace.servings_concat, Trace.outcomes_concat, serving, outcome, hserving, houtcome]
    exact ⟨closed id hnone, rfl, rfl⟩

/-- A step that has to do with one call keeps the register if it tells the
    story of this call on. -/
theorem concat_one (g : Register settings t s) {k : Nat} (known : k < s'.next)
    (next : s.next ≤ s'.next)
    (story : Story (s'.call? k) (t.servings k ++ (e.serving? k).toList)
      (t.outcomes settings.timeout k ++ (e.outcome? settings.timeout k).toList))
    (others : ∀ id, id ≠ k → s'.call? id = s.call? id ∧ e.serving? id = none
      ∧ e.outcome? settings.timeout id = none) : Register settings (t ++ [(a, e)]) s' where
  story := by
    intro id
    rw [Trace.servings_concat, Trace.outcomes_concat]
    by_cases hid : id = k
    · rw [hid]
      exact story
    · obtain ⟨hcall, hserving, houtcome⟩ := others id hid
      show Story _ (_ ++ (e.serving? id).toList) (_ ++ (e.outcome? settings.timeout id).toList)
      rw [hcall, hserving, houtcome]
      simpa using g.story id
  fresh := by
    intro id hid
    obtain ⟨hnone, hserving, houtcome⟩ := g.fresh id (next.trans hid)
    obtain ⟨hcall, hserving', houtcome'⟩ := others id (by omega)
    rw [Trace.servings_concat, Trace.outcomes_concat, hserving, houtcome, hserving', houtcome']
    exact ⟨hcall.trans hnone, rfl, rfl⟩

/-- A call that is let in begins its story. -/
theorem concat_enter (g : Register settings t s) {d : Demand}
    (calls : s'.calls = s.calls ++ [(s.next, .waiting)]) (next : s'.next = s.next + 1) :
    Register settings (t ++ [(.ask d, .queued s.next d)]) s' := by
  obtain ⟨hnone, hserving, houtcome⟩ := g.fresh s.next (Nat.le_refl _)
  refine g.concat_one (k := s.next) (by omega) (by omega) ?_ ?_
  · rw [call?_of_concat calls hnone, hserving, houtcome]
    exact .waiting
  · -- every other call is looked up as before
    intro id hid
    have hne : (id == s.next) = false := beq_eq_false_iff_ne.mpr hid
    refine ⟨?_, rfl, rfl⟩
    rw [System.call?, calls, List.lookup_append]
    simp [System.call?, List.lookup_cons, hne]

/-- A call that is refused has all of its story in one step. -/
theorem concat_refuse (g : Register settings t s) {e : StoreError} (calls : s'.calls = s.calls)
    (next : s'.next = s.next + 1) :
    Register settings (t ++ [(a, .refused s.next e)]) s' := by
  have hcall (id : Nat) : s'.call? id = s.call? id := call?_congr calls id
  obtain ⟨hnone, hserving, houtcome⟩ := g.fresh s.next (Nat.le_refl _)
  refine g.concat_one (k := s.next) (by omega) (by omega) ?_ ?_
  · rw [hcall, hnone, hserving, houtcome]
    simpa [Event.serving?, Event.outcome?] using Story.failed e
  · intro id hid
    exact ⟨hcall id, rfl, if_neg (Ne.symm hid)⟩

/-- A call that waits is served. -/
theorem concat_answer (g : Register settings t s) {k : Nat} {d : Demand} {r : Reply}
    (waits : s.call? k = some .waiting)
    (calls : s'.calls = s.calls.map fun c => if c.1 = k then (c.1, .answered r) else c)
    (next : s'.next = s.next) : Register settings (t ++ [(.serve, .served k d r)]) s' := by
  have hcall (id : Nat) : s'.call? id
      = (s.call? id).map fun c => if id = k then .answered r else c := by
    rw [System.call?, calls, System.call?,
      ← lookup_map_snd fun id c => if id = k then Call.answered r else c]
    congr 1
    refine List.map_congr_left ?_
    rintro ⟨id, c⟩ -
    by_cases hid : id = k <;> simp [hid]
  obtain ⟨hserving, houtcome⟩ := (waits ▸ g.story k).of_waiting
  refine g.concat_one (k := k) (next ▸ g.lt_next waits) next.ge ?_ ?_
  · rw [hcall, waits, hserving, houtcome]
    simpa [Event.serving?, Event.outcome?] using Story.answered d r
  · intro id hid
    refine ⟨?_, if_neg (Ne.symm hid), rfl⟩
    rw [hcall]
    simp [hid]

/-- A step with which a call comes back keeps the register if the story of
    the call ends so. -/
theorem concat_leave (g : Register settings t s) {k : Nat} {c : Call} (call : s.call? k = some c)
    (calls : s'.calls = (s.forget k).calls) (next : s'.next = s.next)
    (serving : ∀ id, e.serving? id = none)
    (outcome : ∀ id, id ≠ k → e.outcome? settings.timeout id = none)
    (story : Story none (t.servings k)
      (t.outcomes settings.timeout k ++ (e.outcome? settings.timeout k).toList)) :
    Register settings (t ++ [(a, e)]) s' := by
  have hcall (id : Nat) : s'.call? id = if id = k then none else s.call? id := by
    rw [System.call?, calls]
    exact lookup_filter_ne _ _ _
  refine g.concat_one (k := k) (next ▸ g.lt_next call) next.ge ?_ ?_
  · rw [hcall, if_pos rfl, serving]
    simpa using story
  · intro id hid
    exact ⟨(hcall id).trans (if_neg hid), serving id, outcome id hid⟩

/-- One step keeps the register. -/
theorem step (g : Register settings t s) (h : Step s a s' e) :
    Register settings (t ++ [(a, e)]) s' := by
  cases h.reception with
  | quiet calls next serving outcome =>
      have hcall (id : Nat) : s'.call? id = s.call? id := call?_congr calls id
      refine g.concat_quiet next serving outcome ?_ ?_
      · intro id
        rw [hcall]
        exact g.story id
      · intro id hnone
        exact (hcall id).trans hnone
  | enter calls next => exact g.concat_enter calls next
  | refuse calls next => exact g.concat_refuse calls next
  | answer waits calls next => exact g.concat_answer waits calls next
  | @collect k r call calls next =>
      obtain ⟨d, hserving, houtcome⟩ := (call ▸ g.story k).of_answered
      refine g.concat_leave call calls next (fun _ => rfl) ?_ ?_
      · intro id hid
        exact if_neg (Ne.symm hid)
      · rw [hserving, houtcome]
        simpa [Event.outcome?] using Story.succeeded d r
  | @fail a e k error call calls next serving outcome =>
      have hended : t.servings k = [] ∧ t.outcomes settings.timeout k = [] := by
        rcases call with call | call
        · exact (call ▸ g.story k).of_waiting
        · exact (call ▸ g.story k).of_dropped
      obtain ⟨c, hopen⟩ : ∃ c, s.call? k = some c := by
        rcases call with call | call
        · exact ⟨_, call⟩
        · exact ⟨_, call⟩
      refine g.concat_leave hopen calls next serving ?_ ?_
      · intro id hid
        exact (outcome _ id).trans (if_neg (Ne.symm hid))
      · rw [hended.1, hended.2, outcome]
        simpa using Story.failed (error settings.timeout)
  | drop calls next =>
      have hcall (id : Nat) : s'.call? id = (s.call? id).map Call.drop := by
        rw [System.call?, calls]
        exact lookup_map_snd (fun _ => Call.drop) _ _
      refine g.concat_quiet next.ge (fun _ => rfl) (fun _ _ => rfl) ?_ ?_
      · intro id
        rw [hcall]
        exact (g.story id).drop
      · intro id hnone
        rw [hcall, hnone]
        rfl

end Register

/-- Along a run the register is kept, by induction on its steps. -/
theorem Run.register (run : Run settings t s) : Register settings t s := by
  induction run with
  | new => exact .new settings
  | step _ h ih => exact ih.step (.of_step h)

/-! ## Calls that came back -/

/-- What was served for a call was served at one place of the trace. -/
theorem Run.serving_inv (run : Run settings t s) {id : Nat} {d : Demand} {r : Reply}
    (h : (d, r) ∈ t.servings id) : ∃ t₁ t₂, t = t₁ ++ (.serve, .served id d r) :: t₂ := by
  obtain ⟨⟨a, e⟩, hx, hserving⟩ := List.mem_filterMap.mp h
  obtain ⟨t₁, t₂, rfl⟩ := List.append_of_mem hx
  obtain ⟨s₁, s₂, -, hstep, -⟩ := run.at_place
  cases hstep with
  | @serve left k =>
      simp only [Event.serving?] at hserving
      split at hserving
      · next hk =>
        obtain ⟨rfl, rfl⟩ := Prod.mk.inj (Option.some.inj hserving)
        exact ⟨t₁, t₂, hk ▸ rfl⟩
      · exact nomatch hserving
  | _ => exact nomatch hserving

/-- A call is served for what it asks. -/
theorem Run.served_asked {t₁ t₂ : Trace} {id : Nat} {d : Demand} {r : Reply}
    (run : Run settings (t₁ ++ (.serve, .served id d r) :: t₂) s) :
    (id, Action.ask d) ∈ Trace.begun (t₁ ++ (.serve, .served id d r) :: t₂) := by
  obtain ⟨_, _, _, before, after, _, _, _, _, _, _, w⟩ := run.served_inv
  refine Trace.mem_begun_append ?_ _
  rw [w.split]
  exact Trace.mem_begun_append (List.mem_filterMap.mpr ⟨_, w.asked, rfl⟩) _

/-- What was served for a call is what the call asks. -/
theorem Run.asked_of_serving (run : Run settings t s) {id : Nat} {d : Demand} {r : Reply}
    (h : (d, r) ∈ t.servings id) : (id, Action.ask d) ∈ t.begun := by
  obtain ⟨t₁, t₂, rfl⟩ := run.serving_inv h
  exact run.served_asked

/-- A query that cannot be understood comes back with the reason. -/
theorem Run.refused_outcome (run : Run settings t s) {id : Nat} {e : InvalidRange}
    (h : (id, Action.refuse e) ∈ t.begun) :
    .error (.invalidRange e) ∈ t.outcomes settings.timeout id := by
  obtain ⟨⟨a, x⟩, hx, hbegins⟩ := List.mem_filterMap.mp h
  obtain ⟨t₁, t₂, rfl⟩ := List.append_of_mem hx
  obtain ⟨s₁, s₂, -, hstep, -⟩ := run.at_place
  refine List.mem_filterMap.mpr ⟨_, hx, ?_⟩
  cases hstep with
  | refuse =>
      obtain ⟨rfl, heq⟩ := Prod.mk.inj (Option.some.inj hbegins)
      rw [Action.refuse.inj heq]
      exact if_pos rfl
  | askClosed => exact nomatch (Prod.mk.inj (Option.some.inj hbegins)).2
  | askQueued => exact nomatch (Prod.mk.inj (Option.some.inj hbegins)).2
  | askOverloaded => exact nomatch (Prod.mk.inj (Option.some.inj hbegins)).2
  | send => exact nomatch (Prod.mk.inj (Option.some.inj hbegins)).2
  | sendShutdown => exact nomatch (Prod.mk.inj (Option.some.inj hbegins)).2
  | _ => exact nomatch hbegins

/-- No step that has to do with a call changes the buffer, but for the
    serving of the call. -/
theorem Step.buffer_of_call (h : Step s a s' e) {id : Nat} (call : e.call? = some id)
    (unserved : e.serving? id = none) : s'.buffer = s.buffer := by
  -- an event that tells of work tells of a new message or of a serving
  have hwork : e.work? = none := by
    cases e with
    | served k d r =>
        obtain rfl := Option.some.inj call
        simp [Event.serving?] at unserved
    | numbered m => exact nomatch call
    | _ => rfl
  rw [h.buffer_eq, hwork]
  rfl

/-- **A CALL IS APPLIED IF AND ONLY IF IT IS ANSWERED**: whatever comes in
    between, a call comes back once. It comes back with an answer if it was
    served once, which is the answer that the buffer gave at that moment,
    after the drain; it comes back with an error if it was never served, and
    then no step that had to do with it has changed the buffer. -/
theorem call_applied_iff_answered (run : Run settings t s) {id : Nat} {q : Inquiry}
    (begun : (id, q.action) ∈ t.begun) {v : Except StoreError Reply}
    (outcome : v ∈ t.outcomes settings.timeout id) :
    t.outcomes settings.timeout id = [v]
      ∧ (∀ r, v = .ok r ↔ ∃ d, q.demand = .ok d ∧ t.servings id = [(d, r)])
      ∧ ((∃ e, v = .error e) ↔ t.servings id = [])
      ∧ (∀ d r, t.servings id = [(d, r)] →
          ∃ (t₁ t₂ : Trace) (s₁ s₂ : System) (left : Nat),
            t = t₁ ++ (.serve, .served id d r) :: t₂
              ∧ Run settings t₁ s₁ ∧ s₁.step .serve = some (s₂, .served id d r)
              ∧ s₁.owner = .draining left id d ∧ (left = 0 ∨ s₁.records.contents = [])
              ∧ r = s₁.buffer.reply settings.maxResults d ∧ s₂.buffer = s₁.buffer.after d)
      ∧ (∀ e, q.demand = .error e → v = .error (.invalidRange e))
      ∧ (∀ e, v = .error e →
          ∀ (t₁ t₂ : Trace) (s₁ s₂ : System) (a : Action) (x : Event),
            t = t₁ ++ (a, x) :: t₂ → x.call? = some id →
            Run settings t₁ s₁ → s₁.step a = some (s₂, x) → s₂.buffer = s₁.buffer) := by
  obtain ⟨honce, hstory⟩ := (run.register.story id).of_mem outcome
  -- a number stands for one call, so what was served is what was asked
  have hdemand {d : Demand} {r : Reply} (h : t.servings id = [(d, r)]) : q.demand = .ok d := by
    obtain ⟨t₁, t₂, rfl⟩ := run.serving_inv (h ▸ List.mem_cons_self)
    exact Inquiry.demand_of_action_ask (run.begun_unique begun run.served_asked)
  refine ⟨honce, ?_, ?_, ?_, ?_, ?_⟩
  · intro r
    constructor
    · rintro rfl
      rcases hstory with ⟨d, r', hr, hserved⟩ | ⟨e, he, -⟩
      · obtain rfl := Except.ok.inj hr
        exact ⟨d, hdemand hserved, hserved⟩
      · exact nomatch he
    · rintro ⟨d, -, hserved⟩
      rcases hstory with ⟨d', r', rfl, hserved'⟩ | ⟨e, -, hunserved⟩
      · have heq := List.singleton_inj.mp (hserved.symm.trans hserved')
        rw [(Prod.mk.inj heq).2]
      · exact nomatch hserved.symm.trans hunserved
  · constructor
    · rintro ⟨e, rfl⟩
      rcases hstory with ⟨d, r, hr, -⟩ | ⟨e', -, hunserved⟩
      · exact nomatch hr
      · exact hunserved
    · intro hunserved
      rcases hstory with ⟨d, r, -, hserved⟩ | ⟨e, he, -⟩
      · exact nomatch hserved.symm.trans hunserved
      · exact ⟨e, he⟩
  · intro d r hserved
    obtain ⟨t₁, t₂, rfl⟩ := run.serving_inv (hserved ▸ List.mem_cons_self)
    obtain ⟨s₁, s₂, left, -, -, run₁, hstep, hreply, hbuffer, howner, hover, -⟩ := run.served_inv
    refine ⟨t₁, t₂, s₁, s₂, left, rfl, run₁, hstep.step_eq, howner, ?_, hreply, hbuffer⟩
    exact hover.imp_right List.length_eq_zero_iff.mp
  · intro e he
    have hmem := run.refused_outcome (Inquiry.action_of_demand_error he ▸ begun)
    rw [honce] at hmem
    exact (List.mem_singleton.mp hmem).symm
  · rintro e rfl t₁ t₂ s₁ s₂ a x rfl hcall run₁ hstep
    refine (Step.of_step hstep).buffer_of_call hcall ?_
    rcases hstory with ⟨d, r, hr, -⟩ | ⟨e', -, hunserved⟩
    · exact nomatch hr
    · have hmem : (a, x) ∈ t₁ ++ (a, x) :: t₂ := List.mem_append_right _ List.mem_cons_self
      exact List.filterMap_eq_nil_iff.mp hunserved (a, x) hmem

/-- A clearing that is given up before the owner starts, with a record on its
    way, and a dump that is answered after it. -/
def clearingGivenUp : List Action :=
  [.send (plain [1]), .ask .clear, .giveUp 1, .start, .takeRequest, .drainRecord ⟨0, 0⟩, .serve,
    .ask .dump, .takeRequest, .serve, .collect 2]

/-- What comes of the clearing and the dump. -/
def clearingRun : Trace × System :=
  ((System.new crowded).play clearingGivenUp).get (by decide)

/-- The clearing that timed out was never served, and the dump behind it shows
    the record. -/
theorem call_applied_iff_answered_clearing :
    Run crowded clearingRun.1 clearingRun.2
      ∧ .error (.timeout crowded.timeout) ∈ clearingRun.1.outcomes crowded.timeout 1
      ∧ clearingRun.1.servings 1 = [] ∧ clearingRun.2.buffer.size = 1
      ∧ ∃ r, .ok r ∈ clearingRun.1.outcomes crowded.timeout 2
          ∧ r.messages.map Message.body = [[1]]
          ∧ ∃ d, Inquiry.dump.demand = .ok d ∧ clearingRun.1.servings 2 = [(d, r)] := by
  have hrun : Run crowded clearingRun.1 clearingRun.2 := Run.of_play (by decide)
  have hclear : (1, Inquiry.clear.action) ∈ clearingRun.1.begun := .tail _ (.head _)
  have hdump : (2, Inquiry.dump.action) ∈ clearingRun.1.begun := .tail _ (.tail _ (.head _))
  have htimeout : .error (.timeout crowded.timeout) ∈ clearingRun.1.outcomes crowded.timeout 1 :=
    .head _
  obtain ⟨-, -, herror, -⟩ := call_applied_iff_answered hrun hclear htimeout
  refine ⟨hrun, htimeout, herror.mp ⟨_, rfl⟩, rfl, _, .head _, rfl, ?_⟩
  exact ((call_applied_iff_answered hrun hdump (.head _)).2.1 _).mp rfl

end BusWindow.Store
