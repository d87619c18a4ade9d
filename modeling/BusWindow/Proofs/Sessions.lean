import BusWindow.Proofs.Run
import BusWindow.Store.Session

/-!
# Sessions — what a session does to its store is a run

    A session chooses the order of the actions, under its own clock. It moves
    its store by the one rule and in no other way, so whatever is known of
    every run is known of the store of every session.

    * `leads_work`, `leads_begin` and `leads_poll` follow the parts of a
      session, `leads_finishFor` its rounds, by induction on their number;
    * `run_isRun` is the whole statement, of any number of sessions in a row
      over one store.
-/

namespace BusWindow.Session

open Store

variable {β : Type}

/-- Any run that comes to the one store goes on to the other. -/
def Leads (s s' : System) : Prop :=
  ∀ settings t, Run settings t s → ∃ t', Run settings (t ++ t') s'

namespace Leads

/-- No step at all leads from a state to itself. -/
theorem refl (s : System) : Leads s s := by
  intro settings t run
  exact ⟨[], by rwa [List.append_nil]⟩

/-- What leads from one state to a second and on to a third leads to the third. -/
theorem trans {s₁ s₂ s₃ : System} (h : Leads s₁ s₂) (h' : Leads s₂ s₃) : Leads s₁ s₃ := by
  intro settings t run
  obtain ⟨t₁, run₁⟩ := h settings t run
  obtain ⟨t₂, run₂⟩ := h' settings _ run₁
  exact ⟨t₁ ++ t₂, by rwa [← List.append_assoc]⟩

/-- One step leads to the state it ends in. -/
theorem step {s s' : System} {a : Action} {e : Event} (h : s.step a = some (s', e)) :
    Leads s s' := by
  intro settings t run
  exact ⟨[(a, e)], run.step h⟩

end Leads

/-- Performing an action takes one step, or none where the action is not
    possible. -/
theorem leads_perform (s : Session) (a : Action) : Leads s.system (s.perform a).1.system := by
  rw [perform]
  cases h : s.system.step a with
  | none => exact .refl _
  | some p => exact .step h

/-- The same with the outcome of the action named. -/
theorem leads_of_perform {s s' : Session} {a : Action} {e : Option Event}
    (h : s.perform a = (s', e)) : Leads s.system s'.system := by
  have hlead := leads_perform s a
  rwa [h] at hlead

/-! ## The owner at work -/

/-- The owner only takes steps of the system, by induction on the fuel. -/
theorem leads_workFor (fuel : Nat) (s : Session) : Leads s.system (workFor fuel s).system := by
  induction fuel generalizing s with
  | zero => exact .refl _
  | succ fuel ih =>
      rw [workFor]
      cases h : s.ownerStep with
      | none => exact .refl _
      | some p =>
          obtain ⟨a, -, hstep⟩ := List.exists_of_findSome?_eq_some h
          exact (Leads.step hstep).trans (ih { s with system := p.1 })

/-- So it does when it works until nothing is left to do. -/
theorem leads_work (s : Session) : Leads s.system s.work.system := leads_workFor _ s

/-! ## Errands under way -/

/-- Handing on records and giving up on a full mailbox are steps. -/
theorem leads_give (patience : Option Duration) (finish : Nat → β) (sent : Nat)
    (records : List Record) (s : Session) :
    Leads s.system (give patience finish sent records s).1.system := by
  induction records generalizing sent s with
  | nil => exact .refl _
  | cons r more ih =>
      rw [give]
      split
      · next heq => exact leads_of_perform heq
      · next heq => exact (leads_of_perform heq).trans (ih _ _)

/-- An errand begins with steps. -/
theorem leads_begin (s : Session) (e : Errand β) : Leads s.system (s.begin e).1.system := by
  cases e with
  | done result => exact .refl _
  | ask demand finish =>
      rw [begin]
      split
      · next heq =>
        split
        · exact (leads_of_perform heq).trans (leads_perform _ _)
        · exact leads_of_perform heq
      · next heq => exact leads_of_perform heq
      · next heq => exact leads_of_perform heq
  | give records patience finish => exact leads_give _ _ _ _ _
  | shutdown patience finish =>
      rw [begin]
      split
      · next heq => exact leads_of_perform heq
      · next heq => exact leads_of_perform heq
  | start finish =>
      rw [begin]
      split
      · next heq => exact leads_of_perform heq
      · next heq => exact leads_of_perform heq
  | discard finish =>
      rw [begin]
      split
      · next heq => exact leads_of_perform heq
      · next heq => exact leads_of_perform heq
  | settle result => exact .refl _

/-- Coming back to an errand is a step. -/
theorem leads_poll (s : Session) (w : Wait β) : Leads s.system (s.poll w).1.system := by
  cases w with
  | finished result => exact .refl _
  | answer id deadline finish =>
      rw [poll]
      split
      · next heq => exact leads_of_perform heq
      · next heq => exact leads_of_perform heq
      · next heq =>
        split
        · exact (leads_of_perform heq).trans (leads_perform _ _)
        · exact leads_of_perform heq
  | slot id deadline sent more patience finish =>
      rw [poll]
      split
      · next heq =>
        split
        · exact (leads_of_perform heq).trans (leads_perform _ _)
        · exact leads_of_perform heq
      · next heq => exact (leads_of_perform heq).trans (leads_give _ _ _ _ _)
  | shutdownSlot id deadline finish =>
      rw [poll]
      split
      · next heq =>
        split
        · exact (leads_of_perform heq).trans (leads_perform _ _)
        · exact leads_of_perform heq
      · next heq => exact leads_of_perform heq
  | ownerIdle result => exact .refl _

/-- All errands of a round begin with steps. -/
theorem leads_beginAll (errands : List (Errand β)) (s : Session) :
    Leads s.system (s.beginAll errands).1.system := by
  induction errands generalizing s with
  | nil => exact .refl _
  | cons e rest ih => exact (leads_begin s e).trans (ih _)

/-- Coming back to all errands takes steps. -/
theorem leads_pollAll (waits : List (Wait β)) (s : Session) :
    Leads s.system (s.pollAll waits).1.system := by
  induction waits generalizing s with
  | nil => exact .refl _
  | cons w rest ih => exact (leads_poll s w).trans (ih _)

/-- An errand is given up with a step. -/
theorem leads_abandon (s : Session) (w : Wait β) : Leads s.system (s.abandon w).system := by
  cases w with
  | finished result => exact .refl _
  | answer => exact leads_perform _ _
  | slot => exact leads_perform _ _
  | shutdownSlot => exact leads_perform _ _
  | ownerIdle result => exact .refl _

/-- All errands under way are given up with steps. -/
theorem leads_abandonAll (waits : List (Wait β)) (s : Session) :
    Leads s.system (waits.foldl abandon s).system := by
  induction waits generalizing s with
  | nil => exact .refl _
  | cons w rest ih => exact (leads_abandon s w).trans (ih _)

/-- Errands are finished with steps, by induction on the fuel. -/
theorem leads_finishFor (fuel : Nat) (s : Session) (waits : List (Wait β)) :
    Leads s.system (finishFor fuel s waits).1.system := by
  induction fuel generalizing s waits with
  | zero => exact leads_abandonAll waits s
  | succ fuel ih =>
      have hround := s.leads_work.trans (leads_pollAll waits s.work)
      rw [finishFor]
      split
      · exact .refl _
      · dsimp only
        split
        · exact hround.trans (ih _ _)
        · -- nothing moved: the clock jumps, which the store does not see
          split
          · next clock _ =>
            exact hround.trans (ih { (s.work.pollAll waits).1 with clock := max _ clock } waits)
          · exact hround.trans (leads_abandonAll waits _)

/-- A session that runs errands only takes steps of the system. -/
theorem leads_run (s : Session) (errands : List (Errand β)) :
    Leads s.system (s.run errands).1.system :=
  (leads_beginAll errands s).trans (leads_finishFor _ _ _)

/-- **A SESSION IS A RUN**: whatever errands a session runs together, one set
    after the other, the store that it comes to is one that a run comes to. -/
theorem run_isRun (settings : StoreSettings) (sets : List (List (Errand β))) :
    ∃ t, Run settings t
      (sets.foldl (fun s errands => (s.run errands).1) (new settings)).system := by
  have hleads (s : Session) :
      Leads s.system (sets.foldl (fun s errands => (s.run errands).1) s).system := by
    induction sets generalizing s with
    | nil => exact .refl _
    | cons errands rest ih => exact (leads_run s errands).trans (ih _)
  obtain ⟨t, run⟩ := hleads (new settings) settings [] .new
  exact ⟨t, run⟩

end BusWindow.Session
