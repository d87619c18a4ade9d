import BusWindow.Proofs.Canonical
import BusWindow.Proofs.Effects
import BusWindow.Proofs.Slots
import BusWindow.Store.Session

/-!
# The adapter — a sieve in front of the store

    Deliveries come to the adapter one after the other. It hands on those
    whose routing key is not ignored and whose body is a JSON text, and drops
    the others before the store hears of them. So whatever the owner and
    other clients do in between, the store is in the state that it would be
    in if the records of the first ones had been handed to it directly.

    * `Sieved` says which answers there are to deliveries and which records
      are handed on, with one constructor for each way that a delivery goes;
    * `CarriedAll` are errands that are carried out one after the other;
    * `Sieved.hands_on` and `Sieved.takes_in` are the simulation, by induction
      on the deliveries: a stretch of a run carries out the deliveries if and
      only if it carries out their records;
    * `Run.exists_ingested` carries records out in any state of a running
      store, and `Run.contents_of_ingested` is what they make of the contents;
    * `adapter_is_a_sieve` is the whole statement.
-/

namespace BusWindow

open Json

/-! ## Which deliveries pass -/

/-- A delivery whose key is not ignored and whose body is a JSON text. -/
structure Delivery.Passes (ignored : List String) (d : Delivery) : Prop where
  key : d.routingKey ∉ ignored
  body : ∃ v, parse d.body = .ok v

/-- The answers to deliveries, one after the other, and the records that are
    handed on. An ignored key is dropped whatever its body is. -/
inductive Sieved (ignored : List String) : List Delivery → List Bool → List Record → Prop where
  | nil : Sieved ignored [] [] []
  | ignored {d : Delivery} {rest : List Delivery} {answers : List Bool} {records : List Record}
      (key : d.routingKey ∈ ignored) (more : Sieved ignored rest answers records) :
      Sieved ignored (d :: rest) (false :: answers) records
  | malformed {d : Delivery} {rest : List Delivery} {answers : List Bool} {records : List Record}
      {e : Json.Error} (key : d.routingKey ∉ ignored) (body : parse d.body = .error e)
      (more : Sieved ignored rest answers records) :
      Sieved ignored (d :: rest) (false :: answers) records
  | kept {d : Delivery} {rest : List Delivery} {answers : List Bool} {records : List Record}
      {v : Value} (key : d.routingKey ∉ ignored) (body : parse d.body = .ok v)
      (more : Sieved ignored rest answers records) :
      Sieved ignored (d :: rest) (true :: answers)
        (⟨v.compactBytes, d.routingKey, d.headers, d.sender⟩ :: records)

variable {ignored : List String} {d : Delivery} {deliveries : List Delivery} {answers : List Bool}
  {records : List Record}

/-- Every delivery goes one of the three ways. -/
theorem exists_sieved (ignored : List String) (deliveries : List Delivery) :
    ∃ answers records, Sieved ignored deliveries answers records := by
  induction deliveries with
  | nil => exact ⟨[], [], .nil⟩
  | cons d rest ih =>
      obtain ⟨answers, records, hmore⟩ := ih
      by_cases hkey : d.routingKey ∈ ignored
      · exact ⟨_, _, .ignored hkey hmore⟩
      · cases hbody : parse d.body with
        | error e => exact ⟨_, _, .malformed hkey hbody hmore⟩
        | ok v => exact ⟨_, _, .kept hkey hbody hmore⟩

/-- No delivery goes two ways. -/
theorem Sieved.unique {answers' : List Bool} {records' : List Record}
    (h : Sieved ignored deliveries answers records)
    (h' : Sieved ignored deliveries answers' records') :
    answers = answers' ∧ records = records' := by
  induction h generalizing answers' records' with
  | nil =>
      cases h' with
      | nil => exact ⟨rfl, rfl⟩
  | ignored key _ ih =>
      cases h' with
      | ignored _ more =>
          obtain ⟨rfl, rfl⟩ := ih more
          exact ⟨rfl, rfl⟩
      | malformed key' => exact absurd key key'
      | kept key' => exact absurd key key'
  | malformed key body _ ih =>
      cases h' with
      | ignored key' => exact absurd key' key
      | malformed _ _ more =>
          obtain ⟨rfl, rfl⟩ := ih more
          exact ⟨rfl, rfl⟩
      | kept _ body' => exact nomatch body.symm.trans body'
  | kept key body _ ih =>
      cases h' with
      | ignored key' => exact absurd key' key
      | malformed _ body' => exact nomatch body.symm.trans body'
      | kept _ body' more =>
          obtain rfl := Except.ok.inj (body.symm.trans body')
          obtain ⟨rfl, rfl⟩ := ih more
          exact ⟨rfl, rfl⟩

/-- The answer is whether the delivery passes. -/
theorem Sieved.answer_iff (h : Sieved ignored deliveries answers records) :
    List.Forall₂ (fun d answer => answer = true ↔ d.Passes ignored) deliveries answers := by
  induction h with
  | nil => exact .nil
  | ignored key _ ih =>
      exact .cons ⟨nofun, fun hpasses => absurd key hpasses.key⟩ ih
  | malformed _ body _ ih =>
      refine .cons ⟨nofun, fun hpasses => ?_⟩ ih
      obtain ⟨v, hv⟩ := hpasses.body
      exact nomatch body.symm.trans hv
  | kept key body _ ih => exact .cons ⟨fun _ => ⟨key, _, body⟩, fun _ => rfl⟩ ih

/-- Why a delivery is dropped: its key is ignored, whatever its body is, or
    its key is not and its body is no JSON text. -/
inductive Delivery.DroppedAs (ignored : List String) (d : Delivery) : Refusal → Prop where
  | ignoredKey (key : d.routingKey ∈ ignored) : d.DroppedAs ignored (.ignoredKey d.routingKey)
  | notJson {e : Json.Error} (key : d.routingKey ∉ ignored) (body : parse d.body = .error e) :
      d.DroppedAs ignored (.notJson e)

/-- A delivery is turned down for the reason for which it is dropped. -/
theorem Delivery.record_eq_error_iff {refusal : Refusal} :
    d.record ignored = .error refusal ↔ d.DroppedAs ignored refusal := by
  rw [Delivery.record]
  by_cases hkey : d.routingKey ∈ ignored
  · rw [if_pos (List.contains_iff_mem.mpr hkey)]
    constructor
    · intro h
      obtain rfl := Except.error.inj h
      exact .ignoredKey hkey
    · intro h
      cases h with
      | ignoredKey => rfl
      | notJson key => exact absurd hkey key
  · rw [if_neg (mt List.contains_iff_mem.mp hkey)]
    cases hbody : parse d.body with
    | error e =>
        constructor
        · intro h
          obtain rfl := Except.error.inj h
          exact .notJson hkey hbody
        · intro h
          cases h with
          | ignoredKey key => exact absurd key hkey
          | notJson _ body => rw [Except.error.inj (hbody.symm.trans body)]
    | ok v =>
        constructor
        · intro h
          cases h
        · intro h
          cases h with
          | ignoredKey key => exact absurd key hkey
          | notJson _ body => cases hbody.symm.trans body

namespace Errand

/-- A delivery under an ignored key is answered at once. -/
theorem accept_of_mem (key : d.routingKey ∈ ignored) : accept ignored d = .done false := by
  rw [accept, Delivery.record_eq_error_iff.mpr (.ignoredKey key)]

/-- A delivery whose body is no JSON text is answered at once. -/
theorem accept_of_error {e : Json.Error} (key : d.routingKey ∉ ignored)
    (body : parse d.body = .error e) : accept ignored d = .done false := by
  rw [accept, Delivery.record_eq_error_iff.mpr (.notJson key body)]

/-- A delivery that passes is handed on as its record. -/
theorem accept_of_ok {v : Value} (key : d.routingKey ∉ ignored) (body : parse d.body = .ok v) :
    accept ignored d
      = .give [⟨v.compactBytes, d.routingKey, d.headers, d.sender⟩] none fun _ => true := by
  have hcontains : ignored.contains d.routingKey = false := by simpa using key
  rw [accept, Delivery.record_eq_ok_iff.mpr ⟨hcontains, v, body, rfl⟩]
  rfl

/-- A delivery that does not pass is answered at once. -/
theorem accept_of_not_passes (h : ¬ d.Passes ignored) : accept ignored d = .done false := by
  by_cases hkey : d.routingKey ∈ ignored
  · exact accept_of_mem hkey
  · cases hbody : parse d.body with
    | error e => exact accept_of_error hkey hbody
    | ok v => exact absurd ⟨hkey, v, hbody⟩ h

end Errand

/-- Whoever runs a dropped delivery is left with the store, its mailboxes and
    the time as they were. -/
theorem Session.run_of_dropped (session : Session) (h : ¬ d.Passes ignored) :
    session.run [Errand.accept ignored d] = (session, [some false]) := by
  rw [Errand.accept_of_not_passes h]
  rfl

namespace Store

variable {settings : StoreSettings} {clock : Nat → Timestamp} {timeout : Duration}
  {t t' : Trace} {s s' : System} {id : Nat} {r : Record} {numbers : List (Option Nat)}

/-! ## Errands one after the other -/

/-- Errands that are carried out one after the other, each in its own stretch
    of a trace, with their numbers and results. -/
inductive CarriedAll {β : Type} (timeout : Duration) :
    Trace → List (Errand β) → List (Option Nat) → List β → Prop where
  | nil (t : Trace) : CarriedAll timeout t [] [] []
  | cons {t t' : Trace} {errand : Errand β} {errands : List (Errand β)} {number : Option Nat}
      {numbers : List (Option Nat)} {result : β} {results : List β}
      (first : Carried timeout t errand number result)
      (more : CarriedAll timeout t' errands numbers results) :
      CarriedAll timeout (t ++ t') (errand :: errands) (number :: numbers) (result :: results)

/-- An errand may begin later than its stretch does. -/
theorem Carried.later {β : Type} {errand : Errand β} {number : Option Nat} {result : β}
    (h : Carried timeout t errand number result) (t₀ : Trace) :
    Carried timeout (t₀ ++ t) errand number result := by
  cases h with
  | done => exact .done _
  | ask begun back =>
      refine .ask (Trace.mem_begun_later begun) ?_
      rw [Trace.outcomes_append]
      exact List.mem_append_right _ back
  | give begun ended back =>
      exact .give (Trace.mem_begun_later begun) ended (List.mem_append_right _ back)

theorem CarriedAll.later {β : Type} {errands : List (Errand β)} {results : List β}
    (h : CarriedAll timeout t errands numbers results) (t₀ : Trace) :
    CarriedAll timeout (t₀ ++ t) errands numbers results := by
  cases h with
  | nil => exact .nil _
  | cons first more =>
      rw [← List.append_assoc]
      exact .cons (first.later t₀) more

/-- Nothing stands in the way of an errand that is done at once. -/
theorem CarriedAll.cons_done {β : Type} {errands : List (Errand β)} {results : List β}
    (h : CarriedAll timeout t errands numbers results) (result : β) :
    CarriedAll timeout t (.done result :: errands) (none :: numbers) (result :: results) :=
  .cons (t := []) (.done result) h

theorem CarriedAll.of_done {β : Type} {errands : List (Errand β)} {result : β} {results : List β}
    (h : CarriedAll timeout t (.done result :: errands) numbers results) :
    ∃ numbers' results', numbers = none :: numbers' ∧ results = result :: results'
      ∧ CarriedAll timeout t errands numbers' results' := by
  cases h with
  | cons first more =>
      cases first
      exact ⟨_, _, rfl, rfl, more.later _⟩

/-- Whatever went under a number was begun in the stretch. -/
theorem CarriedAll.begun {β : Type} {errands : List (Errand β)} {results : List β}
    (h : CarriedAll timeout t errands numbers results) (hid : some id ∈ numbers) :
    ∃ a, (id, a) ∈ t.begun := by
  induction h with
  | nil => exact nomatch hid
  | @cons t t' _ _ _ _ _ _ first more ih =>
      rcases List.mem_cons.mp hid with rfl | hid
      · cases first with
        | ask begun _ => exact ⟨_, Trace.mem_begun_append begun t'⟩
        | give begun _ _ => exact ⟨_, Trace.mem_begun_append begun t'⟩
      · obtain ⟨a, ha⟩ := ih hid
        exact ⟨a, Trace.mem_begun_later ha⟩

/-! ## The deliveries and their records -/

/-- A stretch that carries out deliveries carries out their records, under
    the numbers that are left when those without one are taken out. -/
theorem CarriedAll.hands_on {results : List Bool}
    (sieved : Sieved ignored deliveries answers records)
    (h : CarriedAll timeout t (deliveries.map (Errand.accept ignored)) numbers results) :
    results = answers
      ∧ List.Forall₂ (fun answer number => answer = false ↔ number = none) answers numbers
      ∧ CarriedAll timeout t (records.map Errand.ingest) (numbers.filter Option.isSome)
          (records.map fun _ => ()) := by
  induction sieved generalizing t numbers results with
  | nil =>
      cases h with
      | nil => exact ⟨rfl, .nil, .nil t⟩
  | ignored key _ ih =>
      rw [List.map_cons, Errand.accept_of_mem key] at h
      obtain ⟨numbers', results', rfl, rfl, hrest⟩ := h.of_done
      obtain ⟨rfl, hnumbers, hmore⟩ := ih hrest
      exact ⟨rfl, .cons (by simp) hnumbers, hmore⟩
  | malformed key body _ ih =>
      rw [List.map_cons, Errand.accept_of_error key body] at h
      obtain ⟨numbers', results', rfl, rfl, hrest⟩ := h.of_done
      obtain ⟨rfl, hnumbers, hmore⟩ := ih hrest
      exact ⟨rfl, .cons (by simp) hnumbers, hmore⟩
  | kept key body _ ih =>
      rw [List.map_cons, Errand.accept_of_ok key body] at h
      cases h with
      | cons first more =>
          cases first with
          | give begun ended back =>
              obtain ⟨rfl, hnumbers, hmore⟩ := ih more
              exact ⟨rfl, .cons (by simp) hnumbers, .cons (.give begun ended back) hmore⟩

/-- A stretch that carries out records carries out the deliveries that they
    are of. -/
theorem CarriedAll.takes_in {results : List Unit}
    (sieved : Sieved ignored deliveries answers records)
    (h : CarriedAll timeout t (records.map Errand.ingest) numbers results) :
    ∃ numbers', CarriedAll timeout t (deliveries.map (Errand.accept ignored)) numbers' answers
      ∧ numbers'.filter Option.isSome = numbers := by
  induction sieved generalizing t numbers results with
  | nil =>
      cases h with
      | nil => exact ⟨[], .nil t, rfl⟩
  | ignored key _ ih =>
      obtain ⟨numbers', hcarried, hnumbers⟩ := ih h
      refine ⟨none :: numbers', ?_, hnumbers⟩
      rw [List.map_cons, Errand.accept_of_mem key]
      exact hcarried.cons_done false
  | malformed key body _ ih =>
      obtain ⟨numbers', hcarried, hnumbers⟩ := ih h
      refine ⟨none :: numbers', ?_, hnumbers⟩
      rw [List.map_cons, Errand.accept_of_error key body]
      exact hcarried.cons_done false
  | kept key body _ ih =>
      rw [List.map_cons] at h
      cases h with
      | cons first more =>
          cases first with
          | @give _ _ id _ _ begun ended back =>
              obtain ⟨numbers', hcarried, hnumbers⟩ := ih more
              refine ⟨some id :: numbers', ?_, congrArg (some id :: ·) hnumbers⟩
              rw [List.map_cons, Errand.accept_of_ok key body]
              exact .cons (.give begun ended back) hcarried

/-! ## Records that are handed on -/

/-- A run can go on until a record is handed to the store. -/
theorem Run.exists_ingested (run : Run settings t s) (running : s.owner ≠ .stopped) (r : Record) :
    ∃ t' s' id, Run settings (t ++ t') s' ∧ s'.owner ≠ .stopped
      ∧ Carried settings.timeout t' (Errand.ingest r) (some id) () := by
  obtain ⟨hopen, -⟩ := run.open_mailboxes running
  have hstep := (@Step.send s r).step_eq
  have hbegun (sent : Sent) (u : Trace) :
      (s.next, Action.send r) ∈ Trace.begun ((.send r, .recordSent s.next sent) :: u) := .head _
  by_cases hwaits : (s.records.send s.next r).2 = .waits
  · -- the sender stands in line, and comes to its slot from there
    have hline : (s.next, r) ∈ (s.records.send s.next r).1.line := by
      rcases Mailbox.send_cases s.records s.next r with heq | ⟨-, heq⟩ | heq
      · rw [heq] at hwaits
        exact nomatch hwaits
      · rw [heq] at hwaits
        exact nomatch hwaits
      · rw [heq, Mailbox.line_wait]
        exact List.mem_append_right _ List.mem_cons_self
    obtain ⟨t', s', a, run', running', hback⟩ := (run.step hstep).gets_slot running hline
    rw [List.append_assoc] at run'
    have hended : Sent.accepted ≠ .waits := nofun
    exact ⟨_, s', s.next, run', running',
      .give (hbegun _ t') hended (List.mem_append_right _ hback)⟩
  · exact ⟨_, _, s.next, run.step hstep, running, .give (hbegun _ []) hwaits List.mem_cons_self⟩

/-- The same of records one after the other. -/
theorem Run.exists_all_ingested (run : Run settings t s) (running : s.owner ≠ .stopped)
    (records : List Record) :
    ∃ t' s' numbers, Run settings (t ++ t') s' ∧ s'.owner ≠ .stopped
      ∧ CarriedAll settings.timeout t' (records.map Errand.ingest) numbers
          (records.map fun _ => ()) := by
  induction records generalizing t s with
  | nil =>
      refine ⟨[], s, [], ?_, running, .nil []⟩
      rwa [List.append_nil]
  | cons r rest ih =>
      obtain ⟨t₁, s₁, id, run₁, running₁, hfirst⟩ := run.exists_ingested running r
      obtain ⟨t₂, s₂, numbers, run₂, running₂, hmore⟩ := ih run₁ running₁
      rw [List.append_assoc] at run₂
      exact ⟨_, s₂, _, run₂, running₂, .cons hfirst hmore⟩

/-- Whatever changed the contents went under one of some numbers. -/
def Trace.AloneAll (t : Trace) (numbers : List (Option Nat)) : Prop :=
  ∀ id ∈ t.changers, some id ∈ numbers

/-- Whatever changed the contents in a stretch was begun by its end. -/
theorem Run.begun_of_changer (run : Run settings (t ++ t') s) (h : id ∈ t'.changers) :
    ∃ a, (id, a) ∈ Trace.begun (t ++ t') := by
  have hmem : id ∈ Trace.changers (t ++ t') := by
    rw [Trace.changers_append]
    exact List.mem_append_right _ h
  rcases run.changer_inv hmem with hsent | ⟨hasked, -⟩
  · obtain ⟨r, hr⟩ := run.ledger.sent_begun id hsent
    exact ⟨_, hr⟩
  · exact ⟨_, hasked⟩

/-- Records that are handed on come into the contents in their order. -/
theorem Run.contents_of_ingested {results : List Unit} (run : Run settings t s)
    (run' : Run settings (t ++ t') s') (running : s'.owner ≠ .stopped)
    (shows : Trace.Shows (t ++ t') clock)
    (carried : CarriedAll settings.timeout t' (records.map Errand.ingest) numbers results)
    (alone : t'.AloneAll numbers) :
    s'.contents clock
      = records.foldl (Listing.ingest settings.capacity clock) (s.contents clock) := by
  induction records generalizing t s t' numbers results with
  | nil =>
      cases carried with
      | nil =>
          refine run.contents_eq run' running shows (List.eq_nil_iff_forall_not_mem.mpr ?_)
          exact fun id hid => nomatch alone id hid
  | cons r rest ih =>
      rw [List.map_cons] at carried
      cases carried with
      | @cons u u' _ _ _ numbers _ _ first more =>
          rw [← List.append_assoc] at run' shows
          obtain ⟨s₁, run₁⟩ := run'.front
          have hrunning := run₁.running_of_append run' running
          cases first with
          | @give _ _ id _ _ begun ended back =>
              have heffect := run.effect_of_give run₁ hrunning shows.front begun ended back
              have hchanged : id ∈ u.changers :=
                List.count_pos_iff.mp (heffect.times id rfl ▸ Nat.one_pos)
              have hfirst : u.Alone (some id) := by
                intro k hk
                have hmem : k ∈ Trace.changers (u ++ u') := by
                  rw [Trace.changers_append]
                  exact List.mem_append_left _ hk
                rcases List.mem_cons.mp (alone k hmem) with heq | hlater
                · exact heq.symm
                · -- what is begun later cannot have changed anything before
                  obtain ⟨a, ha⟩ := more.begun hlater
                  obtain ⟨b, hb⟩ := run₁.begun_of_changer hk
                  exact absurd ha (run'.begun_apart hb)
              have hrest : Trace.AloneAll u' numbers := by
                intro k hk
                have hmem : k ∈ Trace.changers (u ++ u') := by
                  rw [Trace.changers_append]
                  exact List.mem_append_right _ hk
                rcases List.mem_cons.mp (alone k hmem) with heq | hlater
                · -- the first record does not come in twice
                  obtain rfl := Option.some.inj heq
                  have hnodup := run'.nodup_changers
                  rw [List.append_assoc, Trace.changers_append, Trace.changers_append,
                    List.nodup_append, List.nodup_append] at hnodup
                  exact absurd rfl (hnodup.2.1.2.2 k hchanged k hk)
                · exact hlater
              rw [ih run₁ run' shows more hrest, heffect.contents hfirst]
              rfl

/-- **THE ADAPTER IS A SIEVE**: in every state of a running store, deliveries
    that come one after the other can all be taken in, and each is answered by
    whether its key is not ignored and its body is a JSON text. One that is
    dropped is turned down for its key if that is ignored, even if its body is
    malformed, and for its body only if the key is not. Whoever runs
    one that is dropped leaves the store as it was. However they are taken in,
    a stretch of the run that takes in the deliveries also hands over the
    records of those that pass, in order and under the same numbers. So if
    nobody else changes the contents, they get these records and no others,
    and become what they become when the records are handed over without any
    adapter. -/
theorem adapter_is_a_sieve (run : Run settings t s) (running : s.owner ≠ .stopped)
    (ignored : List String) (deliveries : List Delivery) :
    ∃ answers records, Sieved ignored deliveries answers records
      ∧ List.Forall₂ (fun d answer => answer = true ↔ d.Passes ignored) deliveries answers
      ∧ (∀ (d : Delivery) (refusal : Refusal),
          d.record ignored = .error refusal ↔ d.DroppedAs ignored refusal)
      ∧ (∀ d : Delivery, ¬ d.Passes ignored → ∀ session : Session,
          session.run [Errand.accept ignored d] = (session, [some false]))
      ∧ (∃ t' s' numbers, Run settings (t ++ t') s' ∧ s'.owner ≠ .stopped
          ∧ CarriedAll settings.timeout t' (deliveries.map (Errand.accept ignored)) numbers answers)
      ∧ ∀ t' s' numbers results, Run settings (t ++ t') s' →
          CarriedAll settings.timeout t' (deliveries.map (Errand.accept ignored)) numbers results →
          results = answers
          ∧ List.Forall₂ (fun answer number => answer = false ↔ number = none) answers numbers
          ∧ CarriedAll settings.timeout t' (records.map Errand.ingest)
              (numbers.filter Option.isSome) (records.map fun _ => ())
          ∧ ∀ clock, s'.owner ≠ .stopped → Trace.Shows (t ++ t') clock → t'.AloneAll numbers →
              s'.contents clock
                = records.foldl (Listing.ingest settings.capacity clock) (s.contents clock)
              ∧ (s'.records.contents = [] → s'.buffer.listing = s'.contents clock)
              ∧ ∀ t₁ s₁ numbers₁ units, Run settings (t ++ t₁) s₁ → s₁.owner ≠ .stopped →
                  Trace.Shows (t ++ t₁) clock → t₁.AloneAll numbers₁ →
                  CarriedAll settings.timeout t₁ (records.map Errand.ingest) numbers₁ units →
                  s₁.contents clock = s'.contents clock := by
  obtain ⟨answers, records, hsieved⟩ := exists_sieved ignored deliveries
  refine ⟨answers, records, hsieved, hsieved.answer_iff, fun d refusal =>
    Delivery.record_eq_error_iff, fun d h session => session.run_of_dropped h, ?_, ?_⟩
  · obtain ⟨t', s', numbers, run', running', hcarried⟩ := run.exists_all_ingested running records
    obtain ⟨numbers', hdeliveries, -⟩ := hcarried.takes_in hsieved
    exact ⟨t', s', numbers', run', running', hdeliveries⟩
  · intro t' s' numbers results run' hcarried
    obtain ⟨hresults, hnumbers, hrecords⟩ := hcarried.hands_on hsieved
    refine ⟨hresults, hnumbers, hrecords, ?_⟩
    intro clock running' shows alone
    have halone : t'.AloneAll (numbers.filter Option.isSome) := fun id hid =>
      List.mem_filter.mpr ⟨alone id hid, rfl⟩
    have hcontents := run.contents_of_ingested run' running' shows hrecords halone
    refine ⟨hcontents, fun drained => (System.contents_of_drained clock drained).symm, ?_⟩
    intro t₁ s₁ numbers₁ units run₁ running₁ shows₁ alone₁ hcarried₁
    rw [hcontents]
    exact run.contents_of_ingested run₁ running₁ shows₁ hcarried₁ alone₁

/-- One delivery under an ignored key whose body is malformed too, one that
    passes, and one that is malformed. -/
def mixed : List Delivery :=
  [⟨"noisy", Utf8.ofString "[", [], ""⟩, .shuffled, .spelled "[1,"]

/-- The record of the one that passes. -/
def mixedRecord : Record := ⟨Delivery.meant.compactBytes, "orders", [], ""⟩

theorem sieved_mixed : Sieved ["noisy"] mixed [false, true, false] [mixedRecord] := by
  obtain ⟨e, hmalformed⟩ : ∃ e, parse (Delivery.spelled "[1,").body = .error e := ⟨_, rfl⟩
  exact .ignored (by decide)
    (.kept (by decide) Delivery.parse_shuffled (.malformed (by decide) hmalformed .nil))

/-- A store that has begun. -/
def begunRun : Trace × System := ((System.new crowded).play [.start]).get rfl

/-- The record comes in. -/
def mixedRun : Trace × System :=
  (begunRun.2.play [.send mixedRecord, .takeRecord ⟨3, 0⟩]).get rfl

theorem run_mixedRun : Run crowded (begunRun.1 ++ mixedRun.1) mixedRun.2 := by
  have hplay : begunRun.2.play [.send mixedRecord, .takeRecord ⟨3, 0⟩] = some mixedRun :=
    (Option.some_get _).symm
  exact (Run.of_play rfl : Run crowded begunRun.1 begunRun.2).play hplay

theorem ingested_mixedRun :
    CarriedAll crowded.timeout mixedRun.1 ([mixedRecord].map Errand.ingest) [some 0] [()] := by
  have hended : Sent.accepted ≠ .waits := nofun
  have hfirst : Carried crowded.timeout mixedRun.1 (Errand.ingest mixedRecord) (some 0) () :=
    .give (.head _) hended (.head _)
  have hall := CarriedAll.cons hfirst (.nil [])
  rwa [List.append_nil] at hall

/-- The first is dropped for its key, the last for its body, and only the
    second gets a slot and a number. -/
theorem adapter_is_a_sieve_mixed :
    ∃ numbers, CarriedAll crowded.timeout mixedRun.1 (mixed.map (Errand.accept ["noisy"])) numbers
        [false, true, false]
      ∧ numbers.filter Option.isSome = [some 0]
      ∧ List.Forall₂ (fun d answer => answer = true ↔ d.Passes ["noisy"]) mixed
          [false, true, false]
      ∧ Delivery.record ["noisy"] ⟨"noisy", Utf8.ofString "[", [], ""⟩
        = .error (.ignoredKey "noisy")
      ∧ mixedRun.2.buffer.listing
        = (begunRun.2.contents fun _ => ⟨3, 0⟩).ingest 2 (fun _ => ⟨3, 0⟩) mixedRecord := by
  have hrun : Run crowded begunRun.1 begunRun.2 := Run.of_play rfl
  obtain ⟨answers, records, hsieved, hanswers, hreasons, -, -, hall⟩ :=
    adapter_is_a_sieve hrun nofun ["noisy"] mixed
  obtain ⟨rfl, rfl⟩ := hsieved.unique sieved_mixed
  obtain ⟨numbers, hcarried, hnumbers⟩ := ingested_mixedRun.takes_in sieved_mixed
  obtain ⟨-, -, -, hcontents⟩ := hall _ _ _ _ run_mixedRun hcarried
  have hshows : Trace.Shows (begunRun.1 ++ mixedRun.1) fun _ => ⟨3, 0⟩ := by
    intro m hm
    obtain rfl := List.mem_singleton.mp (show m ∈ [⟨0, ⟨3, 0⟩, mixedRecord⟩] from hm)
    rfl
  have halone : mixedRun.1.AloneAll numbers := by
    intro id hid
    obtain rfl := List.mem_singleton.mp (show id ∈ [0] from hid)
    exact (List.mem_filter.mp (hnumbers ▸ List.mem_cons_self)).1
  obtain ⟨hfold, hdrained, -⟩ := hcontents _ nofun hshows halone
  exact ⟨numbers, hcarried, hnumbers, hanswers, (hreasons _ _).mpr (.ignoredKey (by decide)),
    (hdrained rfl).trans hfold⟩

end Store

end BusWindow
