import BusWindow.Proofs.Contents
import BusWindow.Proofs.Shutdown

/-!
# Overload — how many requests there is room for

    The mailbox for requests has a fixed number of slots. A slot is taken by
    a call that lies in the mailbox, even if its client has given up, by a
    shutdown that lies there, or by a shutdown in line that was handed the
    slot. A call is refused for want of room exactly when every slot is
    taken, and only the owner takes anything out. So calls that are made
    before the owner begins fill the mailbox and stay there: as many time out
    as there are slots, and the others are refused.

    * `Run.occupancy` says what takes the slots up, and `Run.receives` what
      becomes of a call;
    * `Run.vacant` says that a mailbox that nobody has served yet and that is
      empty was never full: nobody stands in line;
    * `Piled` tells the mailbox of an owner that has not begun by the calls
      that were made: `Piled.step` has one case for each thing that can
      happen, and `Run.piled` is the same of every continuation;
    * `OneByOne` are calls each of which waits for the one before, and
      `Run.goes_on` makes one more of them;
    * `overload_is_exact` is the whole statement.
-/

namespace BusWindow

/-! ## A mailbox whose receiver has not begun -/

namespace Mailbox

variable {α : Type} {m : Mailbox α}

/-- A mailbox that nothing was taken from yet: no slot was handed on, and
    whoever stands in line found no room. -/
structure Unopened (m : Mailbox α) : Prop where
  granted : m.granted = []
  full : m.line ≠ [] → m.hasRoom = false

namespace Unopened

theorem empty (limit : Nat) : Unopened (empty limit : Mailbox α) := ⟨rfl, fun h => absurd rfl h⟩

/-- While there is room nobody waits. -/
theorem line_of_hasRoom (h : Unopened m) (room : m.hasRoom = true) : m.line = [] := by
  by_contra hline
  exact nomatch (h.full hline).symm.trans room

theorem push (h : Unopened m) (room : m.hasRoom = true) (a : α) : Unopened (m.push a) :=
  ⟨h.granted, fun hline => absurd (h.line_of_hasRoom room) hline⟩

theorem send (h : Unopened m) (id : Nat) (a : α) : Unopened (m.send id a).1 := by
  rw [Mailbox.send]
  split
  · exact h
  · split
    · next room => exact h.push room a
    · next room => exact ⟨h.granted, fun _ => Bool.eq_false_iff.mpr room⟩

/-- Nobody owns a slot that could be used. -/
theorem resume (h : Unopened m) (id : Nat) : (m.resume id).1 = m := by
  rcases resume_cases m id with heq | heq | ⟨a, hmem, -⟩
  · rw [heq]
  · rw [heq]
  · rw [h.granted] at hmem
    exact nomatch hmem

theorem withdraw (h : Unopened m) (id : Nat) : Unopened (m.withdraw id) := by
  have hany : (m.granted.any fun g => g.1 == id) = false := by
    rw [h.granted]
    rfl
  rw [Mailbox.withdraw, hany]
  refine ⟨h.granted, ?_⟩
  intro hline
  refine h.full ?_
  -- whoever is left in line stood there before
  intro hbefore
  refine hline ?_
  obtain ⟨-, hwaiting⟩ := List.append_eq_nil_iff.mp hbefore
  show m.granted ++ (m.waiting.filter fun w => w.1 != id).toList = []
  rw [h.granted, Fifo.toList_filter, hwaiting]
  rfl

end Unopened

end Mailbox

namespace Store

variable {settings : StoreSettings} {t t' : Trace} {s s' : System} {a : Action} {e : Event}
  {id : Nat} {d : Demand}

/-! ## Slots -/

/-- How many slots there are for requests. -/
def slots (settings : StoreSettings) : Nat := max settings.requestQueue 1

/-- What takes up the slots: calls that were asked and shutdowns that lie in
    the mailbox, and shutdowns in line that were handed a slot. There are no
    more of them than there are slots. -/
structure Occupancy (settings : StoreSettings) (t : Trace) (s : System) : Prop where
  taken_eq : s.requests.taken = s.requests.contents.length + s.requests.granted.length
  taken_le : s.requests.taken ≤ slots settings
  lying : ∀ q ∈ s.requests.contents,
    q = .shutdown ∨ ∃ id d, q = .demand id d ∧ (Action.ask d, Event.queued id d) ∈ t
  handed : ∀ p ∈ s.requests.granted, p.2 = .shutdown ∧ (p.1, Action.sendShutdown) ∈ t.begun

/-- Along a run the slots taken are those of the calls and shutdowns that were
    let in and not taken out. -/
theorem Run.occupancy (run : Run settings t s) : Occupancy settings t s where
  taken_eq := by rw [Mailbox.taken, Mailbox.size_queue]
  taken_le := by
    rw [slots, ← run.inbox.limit]
    exact run.inbox.sound.taken_le
  lying := by
    intro q hq
    cases q with
    | shutdown => exact Or.inl rfl
    | demand id d => exact Or.inr ⟨id, d, rfl, run.inbox.asked id d hq⟩
  handed := fun p hp => run.inbox.line_begun p (List.mem_append_left _ hp)

/-- How a call is received: it is refused for want of room if and only if
    every slot is taken, and then everything stays as it was; otherwise its
    request comes last in the mailbox. Either way the buffer and the records
    on their way to it stay as they were. -/
structure Received (settings : StoreSettings) (d : Demand) (s s' : System) (e : Event) :
    Prop where
  overloaded_iff : e = .refused s.next .overloaded ↔ s.requests.taken = slots settings
  buffer : s'.buffer = s.buffer
  records : s'.records = s.records
  owner : s'.owner = s.owner
  refused : s.requests.taken = slots settings → s'.requests = s.requests ∧ s'.calls = s.calls
  queued : s.requests.taken ≠ slots settings →
    e = .queued s.next d ∧ s'.requests.contents = s.requests.contents ++ [.demand s.next d]

/-- There is room exactly when not every slot is taken. -/
theorem Run.hasRoom_iff (run : Run settings t s) :
    s.requests.hasRoom = true ↔ s.requests.taken ≠ slots settings := by
  have hle := run.occupancy.taken_le
  rw [Mailbox.hasRoom, run.inbox.limit, decide_eq_true_iff]
  show s.requests.taken < slots settings ↔ _
  omega

/-- The mailbox is full when all slots are taken. -/
theorem Run.full_iff (run : Run settings t s) :
    s.requests.hasRoom = false ↔ s.requests.taken = slots settings := by
  rw [Bool.eq_false_iff, ne_eq, run.hasRoom_iff, not_not]

/-- As long as the owner has not stopped, every call is received at once. -/
theorem Run.receives (run : Run settings t s) (running : s.owner ≠ .stopped) (d : Demand) :
    ∃ s' e, s.step (.ask d) = some (s', e) ∧ Received settings d s s' e := by
  have hopen := (run.open_mailboxes running).2
  cases hroom : s.requests.hasRoom with
  | true =>
      have hfree := run.hasRoom_iff.mp hroom
      refine ⟨_, _, (Step.askQueued hopen hroom).step_eq, ⟨⟨?_, ?_⟩, rfl, rfl, rfl, ?_, ?_⟩⟩
      · intro hrefused
        exact nomatch hrefused
      · exact fun hfull => absurd hfull hfree
      · exact fun hfull => absurd hfull hfree
      · exact fun _ => ⟨rfl, Mailbox.contents_push _ _⟩
  | false =>
      have hfull := run.full_iff.mp hroom
      refine ⟨_, _, (Step.askOverloaded hopen hroom).step_eq, ⟨⟨?_, ?_⟩, rfl, rfl, rfl, ?_, ?_⟩⟩
      · exact fun _ => hfull
      · exact fun _ => rfl
      · exact fun _ => ⟨rfl, rfl⟩
      · exact fun hfree => absurd hfull hfree

/-- As long as the owner does not stop, what lies in the mailbox stays there,
    in its order, until the owner takes it from the front. -/
theorem Step.requests_stay (h : Step s a s' e) (run : Run settings t s)
    (running : s'.owner ≠ .stopped) :
    s.requests.contents <+: s'.requests.contents
      ∨ ∃ id d, e = .taken id ∧ s.requests.contents = .demand id d :: s'.requests.contents := by
  cases h.passage run.inbox with
  | quiet _ _ contents =>
      rw [(contents running).2]
      exact Or.inl List.prefix_rfl
  | enter q _ _ _ contents =>
      rw [contents]
      exact Or.inl (List.prefix_append _ _)
  | take _ contents => exact Or.inr ⟨_, _, rfl, contents⟩

/-! ## Before the owner begins -/

/-- An owner that has not begun had not begun before either. -/
theorem Step.notStarted (h : Step s a s' e) (owner : s'.owner = .notStarted) :
    s.owner = .notStarted := by
  cases h with
  | start => exact nomatch owner
  | discard => exact nomatch owner
  | abort => exact nomatch owner
  | takeShutdown => exact nomatch owner
  | takeDemand => exact nomatch owner
  | drainRecord => exact nomatch owner
  | serve => exact nomatch owner
  | skip => exact nomatch owner
  | _ => exact owner

/-- An owner that has not begun has served nothing. -/
theorem Run.unserved_of_notStarted (run : Run settings t s) (owner : s.owner = .notStarted)
    (id : Nat) : t.servings id = [] := by
  induction run with
  | new => rfl
  | step _ h ih =>
      have hstep := Step.of_step h
      rw [Trace.servings_concat, ih (hstep.notStarted owner)]
      cases hstep with
      | serve => exact nomatch owner
      | _ => rfl

theorem Step.unopened (h : Step s a s' e) (owner : s'.owner = .notStarted)
    (unopened : s.requests.Unopened) : s'.requests.Unopened := by
  cases h.posting with
  | quiet requests => exact requests ▸ unopened
  | take =>
      cases h with
      | takeDemand => exact nomatch owner
  | ask room requests => exact requests ▸ unopened.push room _
  | send requests => exact requests ▸ unopened.send _ _
  | resume requests =>
      rw [requests, unopened.resume]
      exact unopened
  | withdraw requests => exact requests ▸ unopened.withdraw _
  | close =>
      cases h with
      | discard => exact nomatch owner
      | abort => exact nomatch owner
      | takeShutdown => exact nomatch owner

/-- Before the owner begins nothing has been taken out. -/
theorem Run.unopened (run : Run settings t s) (owner : s.owner = .notStarted) :
    s.requests.Unopened := by
  induction run with
  | new => exact .empty _
  | step _ h ih => exact (Step.of_step h).unopened owner (ih ((Step.of_step h).notStarted owner))

/-- If nothing lies in the mailbox of an owner that has not begun, nobody
    stands in line. -/
theorem Run.vacant (run : Run settings t s) (owner : s.owner = .notStarted)
    (contents : s.requests.contents = []) : s.requests.line = [] := by
  have hunopened := run.unopened owner
  refine hunopened.line_of_hasRoom (run.hasRoom_iff.mpr ?_)
  rw [run.occupancy.taken_eq, contents, hunopened.granted, slots]
  show 0 ≠ max settings.requestQueue 1
  omega

/-! ## Calls that nobody serves -/

/-- The call that begins, with what it asks. -/
def asked? : Action × Event → Option (Nat × Demand)
  | (.ask d, .queued id _) => some (id, d)
  | (.ask d, .refused id _) => some (id, d)
  | _ => none

/-- The calls of a trace, in the order in which they were made. -/
def Trace.calls (t : Trace) : List (Nat × Demand) := t.filterMap asked?

theorem Trace.calls_concat (t : Trace) (x : Action × Event) :
    calls (t ++ [x]) = t.calls ++ (asked? x).toList := filterMap_concat _ _ _

/-- What became of the calls that were made while the owner had not begun:
    the first ones lie in the mailbox, as many as there are slots, and the
    others were refused for want of room. -/
structure Piled (settings : StoreSettings) (t : Trace) (s : System) : Prop where
  line : s.requests.line = []
  contents : s.requests.contents
    = (t.calls.take (slots settings)).map fun c => .demand c.1 c.2
  queued : ∀ c ∈ t.calls.take (slots settings), (Action.ask c.2, Event.queued c.1 c.2) ∈ t
  refused : ∀ c ∈ t.calls.drop (slots settings),
    (Action.ask c.2, Event.refused c.1 .overloaded) ∈ t

namespace Piled

theorem new (line : s.requests.line = []) (contents : s.requests.contents = []) :
    Piled settings [] s where
  line := line
  contents := by
    rw [contents, Trace.calls, List.filterMap_nil, List.take_nil, List.map_nil]
  queued := by
    intro c hc
    rw [Trace.calls, List.filterMap_nil, List.take_nil] at hc
    exact nomatch hc
  refused := by
    intro c hc
    rw [Trace.calls, List.filterMap_nil, List.drop_nil] at hc
    exact nomatch hc

/-- As many slots are taken as calls were made, until there are no more. -/
theorem taken_eq (p : Piled settings t' s) (run : Run settings t s) :
    s.requests.taken = min (slots settings) t'.calls.length := by
  have hgranted : s.requests.granted = [] := (List.append_eq_nil_iff.mp p.line).1
  rw [run.occupancy.taken_eq, hgranted, p.contents, List.length_map, List.length_take]
  rfl

/-- A step by which no call begins and nothing enters the mailbox. -/
theorem concat_other (p : Piled settings t s) {x : Action × Event} (asked : asked? x = none)
    (line : s'.requests.line = []) (contents : s'.requests.contents = s.requests.contents) :
    Piled settings (t ++ [x]) s' := by
  have hcalls : Trace.calls (t ++ [x]) = t.calls := by
    rw [Trace.calls_concat, asked]
    exact List.append_nil _
  refine ⟨line, ?_, ?_, ?_⟩
  · rw [contents, hcalls, p.contents]
  · intro c hc
    exact List.mem_append_left _ (p.queued c (hcalls ▸ hc))
  · intro c hc
    exact List.mem_append_left _ (p.refused c (hcalls ▸ hc))

/-- A call that still finds a slot. -/
theorem concat_queued (p : Piled settings t s) (room : t.calls.length < slots settings)
    (line : s'.requests.line = [])
    (contents : s'.requests.contents = s.requests.contents ++ [.demand id d]) :
    Piled settings (t ++ [(.ask d, .queued id d)]) s' := by
  have hcalls : Trace.calls (t ++ [(.ask d, .queued id d)]) = t.calls ++ [(id, d)] :=
    Trace.calls_concat _ _
  have hlength : (t.calls ++ [(id, d)]).length ≤ slots settings := by
    rw [List.length_append, List.length_singleton]
    omega
  have htake : t.calls.take (slots settings) = t.calls := List.take_of_length_le (Nat.le_of_lt room)
  refine ⟨line, ?_, ?_, ?_⟩
  · rw [contents, p.contents, hcalls, htake, List.take_of_length_le hlength, List.map_append]
    rfl
  · intro c hc
    rw [hcalls, List.take_of_length_le hlength] at hc
    rcases List.mem_append.mp hc with hold | hnew
    · exact List.mem_append_left _ (p.queued c (htake.symm ▸ hold))
    · rw [List.mem_singleton.mp hnew]
      exact List.mem_concat_self
  · intro c hc
    rw [hcalls, List.drop_eq_nil_of_le hlength] at hc
    exact nomatch hc

/-- A call that finds every slot taken. -/
theorem concat_refused (p : Piled settings t s) (full : slots settings ≤ t.calls.length)
    (line : s'.requests.line = []) (contents : s'.requests.contents = s.requests.contents) :
    Piled settings (t ++ [(.ask d, .refused id .overloaded)]) s' := by
  have hcalls : Trace.calls (t ++ [(.ask d, .refused id .overloaded)]) = t.calls ++ [(id, d)] :=
    Trace.calls_concat _ _
  have htake : (t.calls ++ [(id, d)]).take (slots settings) = t.calls.take (slots settings) :=
    List.take_append_of_le_length full
  refine ⟨line, ?_, ?_, ?_⟩
  · rw [contents, p.contents, hcalls, htake]
  · intro c hc
    rw [hcalls, htake] at hc
    exact List.mem_append_left _ (p.queued c hc)
  · intro c hc
    rw [hcalls, List.drop_append_of_le_length full] at hc
    rcases List.mem_append.mp hc with hold | hnew
    · exact List.mem_append_left _ (p.refused c hold)
    · rw [List.mem_singleton.mp hnew]
      exact List.mem_concat_self

/-- One step goes on with the pile. -/
theorem step (p : Piled settings t' s) (run : Run settings t s) (h : Step s a s' e)
    (owner : s'.owner = .notStarted) (other : a ≠ .sendShutdown) :
    Piled settings (t' ++ [(a, e)]) s' := by
  have hline := h.line_requests run p.line other
  have htaken := p.taken_eq run
  cases h with
  | start => exact nomatch owner
  | discard => exact nomatch owner
  | abort => exact nomatch owner
  | takeShutdown => exact nomatch owner
  | takeDemand => exact nomatch owner
  | drainRecord => exact nomatch owner
  | serve => exact nomatch owner
  | skip => exact nomatch owner
  | sendShutdown => exact absurd rfl other
  | askClosed closed =>
      have hrunning : s.owner ≠ .stopped := fun hstopped => nomatch hstopped.symm.trans owner
      exact nomatch closed.symm.trans (run.open_mailboxes hrunning).2
  | askQueued _ room =>
      have hfree := run.hasRoom_iff.mp room
      exact p.concat_queued (by omega) hline (Mailbox.contents_push _ _)
  | askOverloaded _ room =>
      have hfull := run.full_iff.mp room
      exact p.concat_refused (by omega) hline rfl
  | resumeShutdown =>
      refine p.concat_other rfl hline ?_
      show (s.requests.resume _).1.contents = _
      rw [(run.unopened owner).resume]
  | withdrawShutdown => exact p.concat_other rfl hline (Mailbox.contents_withdraw _ _)
  | _ => exact p.concat_other rfl hline rfl

end Piled

/-- A pile grows from an empty mailbox as long as the owner does not begin
    and nobody sends a shutdown. -/
theorem Run.piled (run : Run settings t s) (owner : s.owner = .notStarted)
    (contents : s.requests.contents = []) (run' : Run settings (t ++ t') s')
    (owner' : s'.owner = .notStarted) (other : ∀ x ∈ t', x.1 ≠ .sendShutdown) :
    Piled settings t' s' := by
  induction t' using List.reverseRecOn generalizing s' with
  | nil =>
      rw [List.append_nil] at run'
      obtain rfl := run.unique run'
      exact .new (run.vacant owner contents) contents
  | append_singleton t' x ih =>
      rw [← List.append_assoc] at run'
      obtain ⟨s₀, run₀, hstep⟩ := run'.last
      have hpiled := ih run₀ (hstep.notStarted owner')
        fun y hy => other y (List.mem_append_left _ hy)
      exact hpiled.step run₀ hstep owner' (other x List.mem_concat_self)

/-- A call of a pile that has come back ran out of time if there was a slot
    for it, and was refused otherwise. -/
theorem Piled.outcome (p : Piled settings t' s') (run : Run settings (t ++ t') s')
    (owner : s'.owner = .notStarted) {i : Nat} {c : Nat × Demand} (hc : t'.calls[i]? = some c)
    {v : Except StoreError Reply} (hv : v ∈ Trace.outcomes (t ++ t') settings.timeout c.1) :
    v = .error (if i < slots settings then .timeout settings.timeout else .overloaded) := by
  split
  · next hslot =>
    have hmem : c ∈ t'.calls.take (slots settings) := by
      rw [← List.getElem?_take_of_lt hslot] at hc
      exact List.mem_of_getElem? hc
    have hasked := List.mem_append_right t (p.queued c hmem)
    rcases run.outcome_of_unserved hasked (run.unserved_of_notStarted owner c.1) hv with
      ⟨-, hstopped⟩ | ⟨htimeout, -⟩
    · exact nomatch owner.symm.trans hstopped
    · exact htimeout
  · next hslot =>
    have hmem : c ∈ t'.calls.drop (slots settings) := by
      have hdrop : (t'.calls.drop (slots settings))[i - slots settings]? = some c := by
        rw [List.getElem?_drop, ← hc]
        congr 1
        omega
      exact List.mem_of_getElem? hdrop
    have hrefused : .error .overloaded ∈ Trace.outcomes (t ++ t') settings.timeout c.1 :=
      List.mem_filterMap.mpr ⟨_, List.mem_append_right t (p.refused c hmem), if_pos rfl⟩
    obtain ⟨honce, -⟩ := (run.register.story c.1).of_mem hrefused
    rw [honce] at hv
    exact List.mem_singleton.mp hv

/-! ## Calls made one after the other -/

namespace Trace

/-- Every call has come back. -/
def AllBack (t : Trace) (timeout : Duration) : Prop := ∀ c ∈ t.calls, t.outcomes timeout c.1 ≠ []

theorem allBack_nil {timeout : Duration} : AllBack [] timeout := by
  intro c hc
  exact nomatch hc

theorem mem_outcomes_append {timeout : Duration} {v : Except StoreError Reply}
    (h : v ∈ t.outcomes timeout id) (t' : Trace) : v ∈ outcomes (t ++ t') timeout id := by
  rw [outcomes_append]
  exact List.mem_append_left _ h

/-- Whoever has come back has come back for good, so only later calls are to
    be waited for. -/
theorem AllBack.append {timeout : Duration} (h : t.AllBack timeout)
    (later : ∀ c ∈ calls t', outcomes (t ++ t') timeout c.1 ≠ []) : AllBack (t ++ t') timeout := by
  intro c hc
  rw [calls, List.filterMap_append] at hc
  rcases List.mem_append.mp hc with hold | hnew
  · rw [outcomes_append]
    exact List.append_ne_nil_of_left_ne_nil (h c hold) _
  · exact later c hnew

end Trace

/-- Calls made one after the other: each begins when all before it have come
    back. In between anything may happen, but no shutdown is sent. -/
inductive OneByOne (timeout : Duration) : Trace → Prop where
  | none : OneByOne timeout []
  | call {t : Trace} {d : Demand} {e : Event} (before : OneByOne timeout t)
      (back : t.AllBack timeout) : OneByOne timeout (t ++ [(.ask d, e)])
  | other {t : Trace} {x : Action × Event} (before : OneByOne timeout t)
      (asked : asked? x = none) (other : x.1 ≠ .sendShutdown) : OneByOne timeout (t ++ [x])

/-- Calls made one after the other shut nothing down. -/
theorem OneByOne.noShutdown {timeout : Duration} (h : OneByOne timeout t) :
    ∀ x ∈ t, x.1 ≠ .sendShutdown := by
  induction h with
  | none => exact fun x hx => nomatch hx
  | call _ _ ih => exact List.forall_mem_append.mpr ⟨ih, List.forall_mem_singleton.mpr nofun⟩
  | other _ _ other ih =>
      exact List.forall_mem_append.mpr ⟨ih, List.forall_mem_singleton.mpr other⟩

/-- The client of a call that has just joined the mailbox waits. -/
theorem Run.waits_of_queued (run : Run settings (t ++ [(.ask d, .queued id d)]) s)
    (running : s.owner ≠ .stopped) : s.isWaiting id = true := by
  obtain ⟨s₀, run₀, hstep⟩ := run.last
  cases hstep with
  | askQueued =>
      -- nothing was told of its number before
      obtain ⟨-, hserving, hout⟩ := run₀.register.fresh s₀.next (Nat.le_refl _)
      have hcall := run.call_of_unserved List.mem_concat_self
        (by rw [Trace.servings_concat, hserving]; rfl) (by rw [Trace.outcomes_concat, hout]; rfl)
      refine isWaiting_iff.mpr (hcall.resolve_right ?_)
      intro hdropped
      exact running (run.stopped_of_dropped hdropped)

/-- While the owner has not begun, one call more can be made and waited for. -/
theorem Run.goes_on (run : Run settings (t ++ t') s) (owner : s.owner = .notStarted)
    (one : OneByOne settings.timeout t') (back : t'.AllBack settings.timeout) (d : Demand) :
    ∃ t'' s'', Run settings (t ++ t'') s'' ∧ s''.owner = .notStarted
      ∧ OneByOne settings.timeout t'' ∧ t''.AllBack settings.timeout
      ∧ t''.calls.map Prod.snd = t'.calls.map Prod.snd ++ [d] := by
  have hrunning : s.owner ≠ .stopped := by rw [owner]; exact nofun
  obtain ⟨s₁, e, hask, hreceived⟩ := run.receives hrunning d
  have run₁ := run.step hask
  have howner : s₁.owner = .notStarted := hreceived.owner.trans owner
  have hrunning₁ : s₁.owner ≠ .stopped := hreceived.owner ▸ hrunning
  have hone : OneByOne settings.timeout (t' ++ [(.ask d, e)]) := one.call back
  by_cases hfull : s.requests.taken = slots settings
  · obtain rfl := hreceived.overloaded_iff.mpr hfull
    refine ⟨_, s₁, by rwa [← List.append_assoc], howner, hone, ?_, ?_⟩
    · refine back.append ?_
      intro c hc
      obtain rfl := List.mem_singleton.mp hc
      rw [Trace.outcomes_concat]
      simp [Event.outcome?]
    · rw [Trace.calls_concat, List.map_append]
      rfl
  · -- the client waits until its time is over
    obtain ⟨rfl, -⟩ := hreceived.queued hfull
    have run₂ := run₁.step (Step.giveUp (run₁.waits_of_queued hrunning₁)).step_eq
    have happend : t' ++ [(.ask d, .queued s.next d)] ++ [(.giveUp s.next, .gaveUp s.next)]
        = t' ++ [(.ask d, .queued s.next d), (.giveUp s.next, .gaveUp s.next)] :=
      List.append_assoc ..
    have hgone : OneByOne settings.timeout
        (t' ++ [(.ask d, .queued s.next d)] ++ [(.giveUp s.next, .gaveUp s.next)]) :=
      hone.other (by rfl) Action.noConfusion
    refine ⟨_, s₁.forget s.next, ?_, howner, hgone, ?_, ?_⟩
    · rwa [List.append_assoc, List.append_assoc, ← List.append_assoc t'] at run₂
    · rw [happend]
      refine back.append ?_
      intro c hc
      obtain rfl := List.mem_singleton.mp hc
      rw [← happend, Trace.outcomes_concat]
      simp [Event.outcome?]
    · rw [Trace.calls_concat, Trace.calls_concat, List.map_append, List.map_append]
      exact List.append_nil _

/-- Any calls can be made one after the other before the owner begins. -/
theorem Run.exists_oneByOne (run : Run settings t s) (owner : s.owner = .notStarted)
    (ds : List Demand) :
    ∃ t' s', Run settings (t ++ t') s' ∧ s'.owner = .notStarted
      ∧ OneByOne settings.timeout t' ∧ t'.AllBack settings.timeout
      ∧ t'.calls.map Prod.snd = ds := by
  induction ds using List.reverseRecOn with
  | nil => exact ⟨[], s, by rwa [List.append_nil], owner, .none, Trace.allBack_nil, rfl⟩
  | append_singleton ds d ih =>
      obtain ⟨t₁, s₁, run₁, howner, hone, hback, hcalls⟩ := ih
      obtain ⟨t₂, s₂, hnext⟩ := run₁.goes_on howner hone hback d
      exact ⟨t₂, s₂, hcalls ▸ hnext⟩

/-- A call that has no effect: it was never served, and no step that had to
    do with it has changed the buffer. -/
structure Unheeded (settings : StoreSettings) (t : Trace) (id : Nat) : Prop where
  unserved : t.servings id = []
  untouched : ∀ (t₁ t₂ : Trace) (s₁ s₂ : System) (a : Action) (x : Event),
    t = t₁ ++ (a, x) :: t₂ → x.call? = some id → Run settings t₁ s₁ →
    s₁.step a = some (s₂, x) → s₂.buffer = s₁.buffer

/-- A call that has come back with an error has no effect any more. -/
theorem Run.unheeded (run : Run settings t s) {e : StoreError}
    (out : .error e ∈ t.outcomes settings.timeout id) : Unheeded settings t id := by
  have hunserved := (run.register.story id).unserved_of_error out
  refine ⟨hunserved, ?_⟩
  rintro t₁ t₂ s₁ s₂ a x rfl hcall - hstep
  have hmem : (a, x) ∈ t₁ ++ (a, x) :: t₂ := List.mem_append_right _ List.mem_cons_self
  exact (Step.of_step hstep).buffer_of_call hcall (List.filterMap_eq_nil_iff.mp hunserved _ hmem)

/-! ## Overload -/

/-- Two slots for requests. -/
def twoSlots : StoreSettings := ⟨2, 2, 2, 2, ⟨1000⟩⟩

/-- A clearing and a shutdown fill the mailbox, a second shutdown stands in
    line, and the client of the clearing gives up. Then the owner takes the
    clearing, and its slot goes to the second shutdown. -/
def handingOn : List Action :=
  [.start, .ask .clear, .sendShutdown, .sendShutdown, .giveUp 0, .takeRequest]

/-- What comes of it. -/
def handedRun : Trace × System := ((System.new twoSlots).play handingOn).get (by decide)

/-- **OVERLOAD IS EXACT**: in every state that a run comes to before the
    owner has stopped, no more requests lie in the mailbox and no more slots
    are handed to shutdowns than there are slots. A call that can be
    understood is refused at once for want of room if and only if every slot
    is taken, and then everything stays as it was; otherwise its request
    comes last. A client that gives up frees no slot, and nothing but the
    owner takes anything out. So of calls made one after the other to an
    owner that has not begun, whose mailbox was empty, as many time out as
    there are slots, the others are refused, and none of them has any effect
    later, whatever happens. -/
theorem overload_is_exact (run : Run settings t s) (running : s.owner ≠ .stopped) :
    Occupancy settings t s
      ∧ (∀ (q : Inquiry) (d : Demand), q.demand = .ok d →
          ∃ s' e, s.step q.action = some (s', e) ∧ Received settings d s s' e)
      ∧ (∀ (a : Action) (s' : System) (e : Event), s.step a = some (s', e) →
          (∀ id, a = .giveUp id → s'.requests = s.requests)
          ∧ (s'.owner ≠ .stopped →
            s.requests.contents <+: s'.requests.contents
              ∨ ∃ id d, e = .taken id
                ∧ s.requests.contents = .demand id d :: s'.requests.contents))
      ∧ (s.owner = .notStarted → s.requests.contents = [] →
          (∀ ds : List Demand, ∃ t' s', Run settings (t ++ t') s' ∧ s'.owner = .notStarted
              ∧ OneByOne settings.timeout t' ∧ t'.AllBack settings.timeout
              ∧ t'.calls.map Prod.snd = ds)
          ∧ ∀ (t' : Trace) (s' : System), Run settings (t ++ t') s' → s'.owner = .notStarted →
              OneByOne settings.timeout t' → t'.AllBack settings.timeout →
              ∀ (i : Nat) (c : Nat × Demand), t'.calls[i]? = some c →
                Trace.outcomes (t ++ t') settings.timeout c.1
                    = [.error (if i < slots settings then .timeout settings.timeout
                        else .overloaded)]
                  ∧ ∀ (t'' : Trace) (s'' : System), Run settings (t ++ t' ++ t'') s'' →
                    Unheeded settings (t ++ t' ++ t'') c.1) := by
  refine ⟨run.occupancy, ?_, ?_, ?_⟩
  · intro q d hd
    rw [Inquiry.action_of_demand_ok hd]
    exact run.receives running d
  · intro a s' e hstep
    refine ⟨?_, (Step.of_step hstep).requests_stay run⟩
    rintro id rfl
    cases Step.of_step hstep with
    | giveUp => rfl
  · intro owner contents
    refine ⟨run.exists_oneByOne owner, ?_⟩
    intro t' s' run' owner' one back i c hc
    have hpiled := run.piled owner contents run' owner' one.noShutdown
    -- the call has come back, and there is one way only to do so
    obtain ⟨v, hv⟩ := List.exists_mem_of_ne_nil _ (back c (List.mem_of_getElem? hc))
    have hmem : v ∈ Trace.outcomes (t ++ t') settings.timeout c.1 := by
      rw [Trace.outcomes_append]
      exact List.mem_append_right _ hv
    obtain ⟨honce, -⟩ := (run'.register.story c.1).of_mem hmem
    obtain rfl := hpiled.outcome run' owner' hc hmem
    refine ⟨honce, ?_⟩
    intro t'' s'' run''
    exact run''.unheeded (Trace.mem_outcomes_append hmem t'')

/-- One slot is taken by a shutdown and one is handed to the other, so a dump
    is refused. Of three calls to a new store two time out. -/
theorem overload_is_exact_handed :
    Run twoSlots handedRun.1 handedRun.2
      ∧ handedRun.2.requests.contents = [.shutdown]
      ∧ handedRun.2.requests.granted = [(2, .shutdown)]
      ∧ (∃ s', handedRun.2.step Inquiry.dump.action = some (s', .refused 3 .overloaded)
          ∧ s'.requests = handedRun.2.requests ∧ s'.buffer = handedRun.2.buffer)
      ∧ ∃ t' s', Run twoSlots t' s' ∧ t'.calls.map Prod.snd = [.clear, .dump, .stats]
          ∧ (∀ c, t'.calls[1]? = some c → t'.outcomes ⟨1000⟩ c.1 = [.error (.timeout ⟨1000⟩)])
          ∧ ∀ c, t'.calls[2]? = some c → t'.outcomes ⟨1000⟩ c.1 = [.error .overloaded] := by
  have hrun : Run twoSlots handedRun.1 handedRun.2 := Run.of_play (by decide)
  refine ⟨hrun, rfl, rfl, ?_, ?_⟩
  · obtain ⟨-, hreceived, -⟩ := overload_is_exact hrun nofun
    obtain ⟨s', e, hstep, hdump⟩ := hreceived .dump .dump rfl
    obtain rfl := hdump.overloaded_iff.mpr rfl
    exact ⟨s', hstep, (hdump.refused rfl).1, hdump.buffer⟩
  · obtain ⟨-, -, -, hbefore⟩ := overload_is_exact (@Run.new twoSlots) nofun
    obtain ⟨hexists, hall⟩ := hbefore rfl rfl
    obtain ⟨t', s', run', owner', one, back, hcalls⟩ := hexists [.clear, .dump, .stats]
    have houtcomes := hall t' s' run' owner' one back
    refine ⟨t', s', run', hcalls, ?_, ?_⟩
    · intro c hc
      exact (houtcomes 1 c hc).1
    · intro c hc
      exact (houtcomes 2 c hc).1

end Store

end BusWindow
