import BusWindow.Proofs.Layers
import BusWindow.Startup

/-!
# Starting — which settings start a store

    The check of the settings turns away queues without a slot. It does not
    turn away queues with more slots than can be counted, and with those
    there is no store: startup then ends before it has an address.

    * `QueuesFit` is what a store needs of its settings, and `new?_eq_some_iff`
      that it needs nothing else;
    * `run_of_fits` and `run_of_not_fits` are the two ways of startup once
      the settings are loaded;
    * `store_starts_iff_queues_fit` is the whole statement, and
      `long_queue_is_let_through` a file that the check lets through.
-/

namespace BusWindow.Startup

open Settings (Environment Source FileSays load exists_file_of_load)
open Store (System)

/-! ## The store -/

/-- No queue is longer than the slots of a mailbox can be counted. -/
structure QueuesFit (s : StoreSection) : Prop where
  requests : s.requestQueue ≤ Mailbox.greatestLimit
  records : s.ingestQueue ≤ Mailbox.greatestLimit

theorem new?_eq_some_iff {s : StoreSection} {system : System} :
    System.new? s.toStore = some system ↔ QueuesFit s ∧ System.new s.toStore = system := by
  rw [System.new?, Option.ite_none_right_eq_some, Option.some_inj, Bool.and_eq_true,
    Mailbox.canHave, Mailbox.canHave, decide_eq_true_eq, decide_eq_true_eq]
  constructor
  · rintro ⟨⟨records, requests⟩, hnew⟩
    exact ⟨⟨requests, records⟩, hnew⟩
  · rintro ⟨⟨requests, records⟩, hnew⟩
    exact ⟨⟨records, requests⟩, hnew⟩

theorem new?_eq_none_iff {s : StoreSection} : System.new? s.toStore = none ↔ ¬ QueuesFit s := by
  rw [Option.eq_none_iff_forall_ne_some]
  constructor
  · exact fun h fits => h _ (new?_eq_some_iff.mpr ⟨fits, rfl⟩)
  · exact fun h system hnew => h (new?_eq_some_iff.mp hnew).1

/-! ## The way of startup -/

section Run

variable {env : Environment} {s : Settings} {arguments : List String} {read : String → Source}

/-- With queues that fit, startup goes on until it listens. -/
theorem run_of_fits (loaded : load (read (choose arguments env).2) env = .ok s)
    (fits : QueuesFit s.store) :
    (run arguments env read).failure = .unbound (address s) := by
  have hnew : System.new? s.store.toStore = some (System.new s.store.toStore) :=
    new?_eq_some_iff.mpr ⟨fits, rfl⟩
  simp only [run, loaded, hnew]

/-- With queues that do not fit, startup ends at the store. -/
theorem run_of_not_fits (loaded : load (read (choose arguments env).2) env = .ok s)
    (tooLong : ¬ QueuesFit s.store) : (run arguments env read).failure = .noStore := by
  have hnew : System.new? s.store.toStore = none := new?_eq_none_iff.mpr tooLong
  simp only [run, loaded, hnew]

end Run

/-- **A STORE STARTS IF AND ONLY IF ITS QUEUES FIT**: from settings that have
    been loaded there is a store if and only if no queue is longer than the
    slots of a mailbox can be counted. If there is one, it has the capacity,
    the limit for results and the queues that the settings give, and startup
    goes on to the address of the settings; if there is none, startup ends
    there. The queues are those that the file gives, whatever the environment
    says. -/
theorem store_starts_iff_queues_fit {source : Source} {env : Environment} {s : Settings}
    (loaded : load source env = .ok s) :
    ((∃ system, System.new? s.store.toStore = some system) ↔ QueuesFit s.store)
      ∧ (∀ system, System.new? s.store.toStore = some system →
          system.settings = s.store.toStore ∧ system.requests.limit = s.store.requestQueue
            ∧ system.records.limit = s.store.ingestQueue)
      ∧ (∃ file, FileSays source file ∧ (QueuesFit s.store ↔ QueuesFit file.store))
      ∧ ∀ (arguments : List String) (read : String → Source),
          read (choose arguments env).2 = source →
          (QueuesFit s.store → (run arguments env read).failure = .unbound (address s))
            ∧ (¬ QueuesFit s.store → (run arguments env read).failure = .noStore) := by
  obtain ⟨file, hfile, hlaid, hpositive⟩ := exists_file_of_load loaded
  refine ⟨⟨?_, ?_⟩, fun system hnew => ?_, ⟨file, hfile, ?_⟩, ?_⟩
  · rintro ⟨system, hnew⟩
    exact (new?_eq_some_iff.mp hnew).1
  · exact fun fits => ⟨_, new?_eq_some_iff.mpr ⟨fits, rfl⟩⟩
  · obtain ⟨-, rfl⟩ := new?_eq_some_iff.mp hnew
    -- a mailbox has one slot at least, and the check has seen to it already
    exact ⟨rfl, Nat.max_eq_left hpositive.requestQueue, Nat.max_eq_left hpositive.ingestQueue⟩
  · constructor
    · rintro ⟨requests, records⟩
      exact ⟨hlaid.requestQueue ▸ requests, hlaid.ingestQueue ▸ records⟩
    · rintro ⟨requests, records⟩
      exact ⟨hlaid.requestQueue ▸ requests, hlaid.ingestQueue ▸ records⟩
  · rintro arguments read rfl
    exact ⟨run_of_fits loaded, run_of_not_fits loaded⟩

/-- The longest queue that fits. -/
theorem store_starts_iff_queues_fit_longest :
    load (.content (Utf8.ofString "[store]\nrequest_queue = 2305843009213693951\n")) []
        = .ok { store := { requestQueue := 2305843009213693951 } }
      ∧ (run [] [] fun _ =>
          .content (Utf8.ofString "[store]\nrequest_queue = 2305843009213693951\n")).failure
        = .unbound "127.0.0.1:9090" := by
  have hload : load (.content (Utf8.ofString "[store]\nrequest_queue = 2305843009213693951\n")) []
      = .ok { store := { requestQueue := 2305843009213693951 } } := by decide +kernel
  obtain ⟨-, -, -, hrun⟩ := store_starts_iff_queues_fit hload
  exact ⟨hload, (hrun [] _ rfl).1 ⟨by decide, by decide⟩⟩

/-- A queue with one slot more passes the check, and there is no store. -/
theorem long_queue_is_let_through :
    load (.content (Utf8.ofString "[store]\nrequest_queue = 2305843009213693952\n")) []
        = .ok { store := { requestQueue := 2305843009213693952 } }
      ∧ System.new? (StoreSection.toStore { requestQueue := 2305843009213693952 }) = none
      ∧ (run [] [] fun _ =>
          .content (Utf8.ofString "[store]\nrequest_queue = 2305843009213693952\n")).failure
        = .noStore := by
  have hload : load (.content (Utf8.ofString "[store]\nrequest_queue = 2305843009213693952\n")) []
      = .ok { store := { requestQueue := 2305843009213693952 } } := by decide +kernel
  have htooLong : ¬ QueuesFit { requestQueue := 2305843009213693952 } :=
    fun fits => absurd fits.requests (by decide)
  exact ⟨hload, new?_eq_none_iff.mpr htooLong, run_of_not_fits hload htooLong⟩

end BusWindow.Startup
