import BusWindow.Proofs.Contents
import BusWindow.Proofs.Shutdown
import BusWindow.Store.Errand

/-!
# Effects — what an errand does to the contents of a store

    While an errand is under way, and long after it, the owner and other
    clients go on with whatever they do. The errand goes under a number, and
    the contents change under a number, so it can be told which changes are
    the errand's: at most one, by the record that it sends or the clearing
    that it asks for, and none if its call fails.

    * `Run.nodup_changers` says that no number changes the contents twice;
    * `Effect` is what an errand has done in a stretch of a run, and
      `Run.effect_of_change` finds it at the place of the one change;
    * `Run.effect_of_ask`, `Run.effect_of_clear` and `Run.effect_of_give` go
      through the errands.
-/

namespace BusWindow.Store

/-- How an errand came to its result in a stretch of a trace, and the number
    that it went under. -/
inductive Carried {β : Type} (timeout : Duration) (t : Trace) :
    Errand β → Option Nat → β → Prop where
  | done (result : β) : Carried timeout t (.done result) none result
  | ask {d : Demand} {finish : Except StoreError Reply → β} {id : Nat}
      {v : Except StoreError Reply} (begun : (id, .ask d) ∈ t.begun)
      (back : v ∈ t.outcomes timeout id) : Carried timeout t (.ask d finish) (some id) (finish v)
  | give {r : Record} {finish : Nat → β} {id : Nat} {a : Action} {sent : Sent}
      (begun : (id, .send r) ∈ t.begun) (ended : sent ≠ .waits)
      (back : (a, .recordSent id sent) ∈ t) :
      Carried timeout t (.give [r] none finish) (some id) (finish 1)

namespace Trace

/-- The numbers under which the contents were changed, in order. -/
def changers (t : Trace) : List Nat := t.filterMap fun x => x.2.changer?

/-- Whatever changed the contents went under one number. -/
def Alone (t : Trace) (number : Option Nat) : Prop := ∀ id ∈ t.changers, number = some id

theorem changers_append (t t' : Trace) : changers (t ++ t') = t.changers ++ changers t' :=
  List.filterMap_append

theorem changers_concat (t : Trace) (x : Action × Event) :
    changers (t ++ [x]) = t.changers ++ x.2.changer?.toList :=
  filterMap_concat _ _ _

end Trace

variable {settings : StoreSettings} {clock : Nat → Timestamp} {t t' : Trace} {s s' : System}
  {a : Action} {e : Event} {id : Nat} {d : Demand} {l : Listing}

/-! ## Each number changes the contents once -/

theorem Event.changer?_eq_some (h : e.changer? = some id) :
    e = .recordSent id .accepted ∨ ∃ reply, e = .served id .clear reply := by
  cases e with
  | recordSent k sent =>
      cases sent with
      | accepted =>
          obtain rfl := Option.some.inj h
          exact Or.inl rfl
      | waits => exact nomatch h
      | lost => exact nomatch h
  | served k d reply =>
      cases d with
      | clear =>
          obtain rfl := Option.some.inj h
          exact Or.inr ⟨reply, rfl⟩
      | query q => exact nomatch h
      | dump => exact nomatch h
      | stats => exact nomatch h
  | _ => exact nomatch h

/-- Whatever is served is served by the owner. -/
theorem Step.serve_of_served {reply : Reply} (h : Step s a s' (.served id d reply)) :
    a = .serve := by
  cases h with
  | serve => rfl

/-- A call is served once at most. -/
theorem Story.length_served {call : Option Call} {served : List (Demand × Reply)}
    {ended : List (Except StoreError Reply)} (h : Story call served ended) : served.length ≤ 1 := by
  cases h with
  | unheard => exact Nat.zero_le _
  | waiting => exact Nat.zero_le _
  | answered => exact Nat.le_refl _
  | dropped => exact Nat.zero_le _
  | succeeded => exact Nat.le_refl _
  | failed => exact Nat.zero_le _

/-- The contents are changed by a record that was sent or by a clearing that
    was served. -/
theorem Run.changer_inv (run : Run settings t s) (h : id ∈ t.changers) :
    id ∈ t.sent ∨ (id, Action.ask .clear) ∈ t.begun ∧ t.servings id ≠ [] := by
  obtain ⟨⟨a, e⟩, hx, hchanger⟩ := List.mem_filterMap.mp h
  obtain rfl | ⟨reply, rfl⟩ := Event.changer?_eq_some hchanger
  · exact Or.inl (List.mem_filterMap.mpr ⟨_, hx, rfl⟩)
  · obtain ⟨t₁, t₂, rfl⟩ := List.append_of_mem hx
    obtain ⟨s₁, s₂, -, hstep, -⟩ := run.at_place
    obtain rfl := hstep.serve_of_served
    have hserved : (Demand.clear, reply) ∈
        Trace.servings (t₁ ++ (.serve, .served id .clear reply) :: t₂) id :=
      List.mem_filterMap.mpr ⟨_, hx, if_pos rfl⟩
    exact Or.inr ⟨run.served_asked, List.ne_nil_of_mem hserved⟩

/-- A call changes nothing if it does not ask for a clearing, or if it was
    never served. -/
theorem Run.notMem_changers_of_ask (run : Run settings t s) (begun : (id, .ask d) ∈ t.begun)
    (harmless : d ≠ .clear ∨ t.servings id = []) : id ∉ t.changers := by
  intro hmem
  rcases run.changer_inv hmem with hsent | ⟨hclear, hserved⟩
  · obtain ⟨r, hr⟩ := run.ledger.sent_begun id hsent
    exact nomatch run.begun_unique begun hr
  · rcases harmless with hd | hunserved
    · exact hd (Action.ask.inj (run.begun_unique begun hclear))
    · exact hserved hunserved

/-- No number changes the contents twice. -/
theorem Run.nodup_changers (run : Run settings t s) : t.changers.Nodup := by
  induction run with
  | new => exact List.nodup_nil
  | @step t s s' a e run h ih =>
      have run' : Run settings (t ++ [(a, e)]) s' := run.step h
      rw [Trace.changers_concat, List.nodup_append]
      refine ⟨ih, by cases e.changer? <;> simp, ?_⟩
      rintro id hold id' hnew rfl
      obtain rfl | ⟨reply, rfl⟩ := Event.changer?_eq_some (Option.mem_toList.mp hnew)
      · -- the sending would be completed twice
        have hnodup := run'.ledger.sent_nodup
        have hlast : id ∈ Trace.sent (t ++ [(a, .recordSent id .accepted)]) := by
          rw [Trace.sent_concat]
          exact List.mem_append_right _ List.mem_cons_self
        obtain ⟨r, hr⟩ := run'.ledger.sent_begun id hlast
        rw [Trace.sent_concat, List.nodup_append] at hnodup
        rcases run.changer_inv hold with hbefore | ⟨hclear, -⟩
        · exact hnodup.2.2 id hbefore id List.mem_cons_self rfl
        · cases run'.begun_unique hr (Trace.mem_begun_append hclear _)
      · -- the call would be served twice
        obtain rfl := (Step.of_step h).serve_of_served
        have hasked := run'.served_asked
        have honce := (run'.register.story id).length_served
        rw [Trace.servings_concat, List.length_append] at honce
        have hlast : ((Event.served id .clear reply).serving? id).toList.length = 1 := by
          simp [Event.serving?]
        rw [hlast] at honce
        rcases run.changer_inv hold with hsent | ⟨-, hserved⟩
        · obtain ⟨r, hr⟩ := run.ledger.sent_begun id hsent
          cases run'.begun_unique hasked (Trace.mem_begun_append hr _)
        · have hbefore := List.length_pos_of_ne_nil hserved
          omega

/-! ## What one number does to the contents -/

/-- What was done under a number in a stretch of a run: the contents were
    changed so many times under it, and if nobody else changed them they are
    now those of a list. -/
structure Effect (clock : Nat → Timestamp) (t : Trace) (number : Option Nat) (s : System)
    (times : Nat) (l : Listing) : Prop where
  times : ∀ id, number = some id → t.changers.count id = times
  contents : t.Alone number → s.contents clock = l

/-- The owner had not stopped earlier if it has not stopped later. -/
theorem Run.running_of_append (run : Run settings t s) (run' : Run settings (t ++ t') s')
    (running : s'.owner ≠ .stopped) : s.owner ≠ .stopped := by
  intro hstopped
  exact running ((run.halted hstopped).append run run').1.owner

/-- The contents stay what they are as long as nobody changes them. -/
theorem Run.contents_eq (run : Run settings t s) (run' : Run settings (t ++ t') s')
    (running : s'.owner ≠ .stopped) (shows : Trace.Shows (t ++ t') clock)
    (unchanged : t'.changers = []) : s'.contents clock = s.contents clock := by
  induction t' using List.reverseRecOn generalizing s' with
  | nil =>
      rw [List.append_nil] at run'
      rw [run.unique run']
  | append_singleton t' x ih =>
      rw [← List.append_assoc] at run' shows
      obtain ⟨s₁, run₁, hstep⟩ := run'.last
      have hrunning := run₁.running_of_append run' running
      rw [Trace.changers_concat, List.append_eq_nil_iff] at unchanged
      obtain ⟨hbefore, hlast⟩ := unchanged
      rw [← ih run₁ hrunning shows.front hbefore]
      exact hstep.contents_eq run₁ shows running (Option.toList_eq_nil_iff.mp hlast)

/-- A number that changes nothing has no effect. -/
theorem Run.effect_none (run : Run settings t s) (run' : Run settings (t ++ t') s')
    (running : s'.owner ≠ .stopped) (shows : Trace.Shows (t ++ t') clock) {number : Option Nat}
    (unchanged : ∀ id, number = some id → id ∉ t'.changers) :
    Effect clock t' number s' 0 (s.contents clock) where
  times := fun id hid => List.count_eq_zero.mpr (unchanged id hid)
  contents := by
    intro halone
    refine run.contents_eq run' running shows (List.eq_nil_iff_forall_not_mem.mpr ?_)
    intro id hmem
    exact unchanged id (halone id hmem) hmem

/-- The effect of a number is what its one change does. -/
theorem Run.effect_of_change (run : Run settings t s) (run' : Run settings (t ++ t') s')
    (running : s'.owner ≠ .stopped) (shows : Trace.Shows (t ++ t') clock) {u₁ u₂ : Trace}
    (split : t' = u₁ ++ (a, e) :: u₂) (changer : e.changer? = some id)
    (change : ∀ s₁ s₂ : System, Run settings (t ++ u₁) s₁ → Step s₁ a s₂ e →
      Change clock s₁ s₂ a e → u₁.changers = [] → s₁.contents clock = s.contents clock →
      s₂.contents clock = l) : Effect clock t' (some id) s' 1 l := by
  have hchangers : t'.changers = u₁.changers ++ id :: Trace.changers u₂ := by
    rw [split, List.append_cons, Trace.changers_append, Trace.changers_concat, changer,
      List.append_assoc]
    rfl
  have hnodup := run'.nodup_changers
  rw [Trace.changers_append, hchangers] at hnodup
  have hnodup' := (List.nodup_append.mp hnodup).2.1
  constructor
  · intro k hk
    obtain rfl := Option.some.inj hk
    refine List.count_eq_one_of_mem (hchangers ▸ hnodup') ?_
    rw [hchangers]
    exact List.mem_append_right _ List.mem_cons_self
  · -- alone, the number leaves nothing to be changed before or after
    intro halone
    obtain ⟨-, hafter, hbefore⟩ := List.nodup_append.mp hnodup'
    have hu₁ : u₁.changers = [] := by
      rw [List.eq_nil_iff_forall_not_mem]
      intro k hk
      obtain rfl := Option.some.inj (halone k (hchangers ▸ List.mem_append_left _ hk))
      exact hbefore id hk id List.mem_cons_self rfl
    have hu₂ : u₂.changers = [] := by
      rw [List.eq_nil_iff_forall_not_mem]
      intro k hk
      obtain rfl := Option.some.inj (halone k (hchangers ▸
        List.mem_append_right _ (List.mem_cons_of_mem _ hk)))
      exact (List.nodup_cons.mp hafter).1 hk
    rw [split, ← List.append_assoc] at run' shows
    obtain ⟨s₁, s₂, run₁, hstep, run₂⟩ := run'.at_place
    rw [List.append_cons] at run' shows
    have hrunning := run₂.running_of_append run' running
    have hsame := run.contents_eq run₁ (run₁.running_of_append run₂ hrunning)
      shows.front.front hu₁
    rw [run₂.contents_eq run' running shows hu₂]
    exact change s₁ s₂ run₁ hstep (hstep.contents run₁ shows.front hrunning) hu₁ hsame

/-! ## What errands do -/

theorem Trace.mem_begun_later {p : Nat × Action} (h : p ∈ t'.begun) :
    p ∈ Trace.begun (t ++ t') := by
  rw [Trace.begun, List.filterMap_append]
  exact List.mem_append_right _ h

/-- A number is given away once: earlier or later. -/
theorem Run.begun_apart (run' : Run settings (t ++ t') s') {b c : Action}
    (earlier : (id, b) ∈ t.begun) : (id, c) ∉ t'.begun := by
  intro hlater
  have hnodup : ((Trace.begun (t ++ t')).map Prod.fst).Nodup := by
    rw [run'.map_begun]
    exact List.nodup_range
  rw [Trace.begun, List.filterMap_append, List.map_append, List.nodup_append] at hnodup
  exact hnodup.2.2 id (List.mem_map.mpr ⟨_, earlier, rfl⟩) id (List.mem_map.mpr ⟨_, hlater, rfl⟩)
    rfl

/-- A call changes nothing if it does not ask for a clearing, or if it comes
    back with an error. -/
theorem Run.effect_of_ask (run : Run settings t s) (run' : Run settings (t ++ t') s')
    (running : s'.owner ≠ .stopped) (shows : Trace.Shows (t ++ t') clock)
    (begun : (id, .ask d) ∈ t'.begun) {v : Except StoreError Reply}
    (back : v ∈ t'.outcomes settings.timeout id) (harmless : d ≠ .clear ∨ ∃ e, v = .error e) :
    Effect clock t' (some id) s' 0 (s.contents clock) := by
  refine run.effect_none run' running shows ?_
  rintro k hk hmem
  obtain rfl := Option.some.inj hk
  have hback : v ∈ Trace.outcomes (t ++ t') settings.timeout id := by
    rw [Trace.outcomes_append]
    exact List.mem_append_right _ back
  refine run'.notMem_changers_of_ask (Trace.mem_begun_later begun) ?_ ?_
  · rcases harmless with hd | ⟨e, rfl⟩
    · exact Or.inl hd
    · exact Or.inr ((run'.register.story id).unserved_of_error hback)
  · rw [Trace.changers_append]
    exact List.mem_append_right _ hmem

/-- Where no contents were changed, no sending was completed. -/
theorem Trace.sent_eq_nil (h : t.changers = []) : t.sent = [] := by
  rw [Trace.sent, List.filterMap_eq_nil_iff]
  intro x hx
  have hnone := List.filterMap_eq_nil_iff.mp h x hx
  cases hsent : x.2.sentId? with
  | none => rfl
  | some id =>
      obtain ⟨a, e⟩ := x
      cases e with
      | recordSent k sent =>
          cases sent with
          | accepted => exact nomatch hnone
          | waits => exact nomatch hsent
          | lost => exact nomatch hsent
      | _ => exact nomatch hsent

/-- If nothing was sent since before a call was asked, no record is left in
    the mailbox when the call is served. -/
theorem Run.drained_of_unchanged {u₁ : Trace} {reply : Reply} (run : Run settings (t ++ u₁) s)
    (h : Step s .serve s' (.served id d reply)) (unasked : ∀ b, (id, b) ∉ t.begun)
    (unchanged : u₁.changers = []) : s.records.contents = [] := by
  have hserve := h
  cases h with
  | serve owner drained =>
      obtain ⟨before, after, w⟩ := run.drain owner
      rw [Mailbox.size_queue] at drained
      have hvisible := w.visible run owner drained
      have hlength := run.length_sent (by rw [owner]; exact nofun)
      -- the call was asked after everything that was sent
      have hbefore : t <+: before := by
        have hfront : before <+: t ++ u₁ := by
          rw [w.split]
          exact List.prefix_append _ _
        rcases List.prefix_or_prefix_of_prefix (List.prefix_append t u₁) hfront with hlong | hshort
        · exact hlong
        · have hasked : (id, Action.ask d) ∈ t.begun :=
            List.mem_filterMap.mpr ⟨_, hshort.subset w.asked, rfl⟩
          exact absurd hasked (unasked _)
      obtain ⟨u, rfl⟩ := hbefore
      rw [Trace.sent_append, Trace.sent_eq_nil unchanged, List.append_nil] at hlength
      rw [Trace.sent_append, List.length_append] at hvisible
      exact List.length_eq_zero_iff.mp (by omega)

/-- A clearing that comes back without an error has emptied the store. -/
theorem Run.effect_of_clear (run : Run settings t s) (run' : Run settings (t ++ t') s')
    (running : s'.owner ≠ .stopped) (shows : Trace.Shows (t ++ t') clock)
    (begun : (id, .ask .clear) ∈ t'.begun) {r : Reply}
    (back : .ok r ∈ t'.outcomes settings.timeout id) :
    Effect clock t' (some id) s' 1 (s.contents clock).clear := by
  have hback : .ok r ∈ Trace.outcomes (t ++ t') settings.timeout id := by
    rw [Trace.outcomes_append]
    exact List.mem_append_right _ back
  have hunasked (b : Action) : (id, b) ∉ t.begun := fun hb => run'.begun_apart hb begun
  obtain ⟨d, hone⟩ := (run'.register.story id).served_of_ok hback
  have hserved : (d, r) ∈ Trace.servings (t ++ t') id := hone ▸ List.mem_cons_self
  obtain rfl : d = .clear := Action.ask.inj
    (run'.begun_unique (run'.asked_of_serving hserved) (Trace.mem_begun_later begun))
  obtain ⟨t₁, t₂, hsplit⟩ := run'.serving_inv hserved
  -- the clearing was served after it was asked
  have hlater : (Action.serve, Event.served id .clear r) ∈ t' := by
    have hmem : (Action.serve, Event.served id .clear r) ∈ t ++ t' := by
      rw [hsplit]
      exact List.mem_append_right _ List.mem_cons_self
    rcases List.mem_append.mp hmem with hearlier | hlater
    · obtain ⟨u₁, u₂, rfl⟩ := List.append_of_mem hearlier
      exact absurd run.served_asked (hunasked _)
    · exact hlater
  obtain ⟨u₁, u₂, hsplit'⟩ := List.append_of_mem hlater
  refine run.effect_of_change run' running shows hsplit' rfl ?_
  intro s₁ s₂ run₁ hstep hchange hu₁ hsame
  have hempty := run₁.drained_of_unchanged hstep hunasked hu₁
  cases hchange with
  | none changer => exact nomatch changer
  | clear records buffer =>
      rw [← hsame, System.contents_of_drained clock (records.symm ▸ hempty),
        System.contents_of_drained clock hempty]
      exact buffer

/-- A record whose handing over is over is in. -/
theorem Run.effect_of_give (run : Run settings t s) (run' : Run settings (t ++ t') s')
    (running : s'.owner ≠ .stopped) (shows : Trace.Shows (t ++ t') clock) {r : Record}
    (begun : (id, .send r) ∈ t'.begun) {sent : Sent} (ended : sent ≠ .waits)
    (back : (a, .recordSent id sent) ∈ t') :
    Effect clock t' (some id) s' 1 ((s.contents clock).ingest settings.capacity clock r) := by
  obtain ⟨u₁, u₂, hsplit⟩ := List.append_of_mem back
  obtain rfl : sent = .accepted := by
    rw [hsplit, ← List.append_assoc] at run'
    obtain ⟨s₁, s₂, run₁, hstep, run₂⟩ := run'.at_place
    exact hstep.accepted run₁ (run₁.running_of_append run' running) ended
  refine run.effect_of_change run' running shows hsplit rfl ?_
  intro s₁ s₂ run₁ hstep hchange _ hsame
  -- whatever was sent under the number is the record
  have hrecord {r' : Record} (hr' : (id, Action.send r') ∈ Trace.begun (t ++ t')) : r' = r :=
    Action.send.inj (run'.begun_unique hr' (Trace.mem_begun_later begun))
  rw [← hsame, ← run₁.settings_eq]
  cases hchange with
  | none changer => exact nomatch changer
  | send contents =>
      rw [contents, hrecord (Trace.mem_begun_later (List.mem_filterMap.mpr ⟨_, back, rfl⟩))]
  | resume line contents =>
      have hbegun := Trace.mem_begun_append (run₁.ledger.line_begun _ line)
        ((.resumeSend id, .recordSent id .accepted) :: u₂)
      rw [List.append_assoc, ← hsplit] at hbegun
      rw [contents]
      exact congrArg _ (hrecord hbegun)

/-- Errands that cannot change the contents: they need nothing of the store,
    or call for something else than a clearing. -/
inductive Reading {β : Type} : Errand β → Prop where
  | done (result : β) : Reading (.done result)
  | ask {d : Demand} (finish : Except StoreError Reply → β) (reads : d ≠ .clear) :
      Reading (.ask d finish)

theorem Reading.map {β γ : Type} {errand : Errand β} (h : Reading errand) (f : β → γ) :
    Reading (errand.map f) := by
  cases h with
  | done result => exact .done _
  | ask finish reads => exact .ask _ reads

theorem Run.effect_of_reading {β : Type} {errand : Errand β} {number : Option Nat} {result : β}
    (run : Run settings t s) (run' : Run settings (t ++ t') s') (running : s'.owner ≠ .stopped)
    (shows : Trace.Shows (t ++ t') clock)
    (carried : Carried settings.timeout t' errand number result) (reading : Reading errand) :
    Effect clock t' number s' 0 (s.contents clock) := by
  cases reading with
  | done =>
      cases carried with
      | done =>
          refine run.effect_none run' running shows ?_
          intro id hid
          exact nomatch hid
  | ask finish reads =>
      cases carried with
      | ask begun back =>
          exact run.effect_of_ask run' running shows begun back (Or.inl reads)

end BusWindow.Store
