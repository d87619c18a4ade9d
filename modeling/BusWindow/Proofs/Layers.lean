import BusWindow.Proofs.Characters
import BusWindow.Proofs.Documents
import BusWindow.Proofs.Sections
import BusWindow.Proofs.Statements
import BusWindow.Settings.Load

/-!
# Layers — the defaults, the file and the environment

    The settings of a file are laid over the defaults, and the environment
    over both; what comes of it is checked. A file that is there and cannot
    be read, or is no document of settings, stops everything, whatever the
    environment says. Each variable has its own setting and its own way to be
    understood, and one that cannot be understood changes nothing.

    * `FileSays` is what a file says, and `source_cases` sorts the files into
      those that say something, those that cannot be read and those that are
      malformed;
    * `Overlaid` is one setting under one variable, `Laid` all settings under
      the environment, and `laid_iff` that there is one way to lay it;
    * `FirstOffence` is what is wrong with settings that are turned away;
    * `settings_are_layered` is the whole statement.
-/

namespace BusWindow.Settings

open Json (Number)

/-! ## What files say -/

/-- The settings of a file: all defaults if there is none, and otherwise what
    the document says that its text spells. -/
inductive FileSays : Source → Settings → Prop where
  | defaults : FileSays .absent {}
  | document {text : String} {v : Json.Value} {s : Settings} (denotes : Toml.Denotes text v)
      (said : Says v s) : FileSays (.content (Utf8.ofString text)) s

/-- A file that is there cannot be read: the system does not hand it out, or
    it holds no text. -/
inductive Unreadable : Source → ReadTrouble → Prop where
  | refused (trouble : ReadTrouble) : Unreadable (.unreadable trouble) trouble
  | notText {bytes : Bytes} (notText : ∀ text, Utf8.ofString text ≠ bytes) :
      Unreadable (.content bytes) .notText

/-- A file holds a text that spells no document of settings. -/
inductive Malformed : Source → Prop where
  | mk {text : String} (silent : ∀ v s, Toml.Denotes text v → ¬ Says v s) :
      Malformed (.content (Utf8.ofString text))

section Source

variable {source : Source} {s : Settings}

/-- Every source has settings, or it cannot be read, or it is malformed. -/
theorem source_cases (source : Source) :
    (∃ s, FileSays source s) ∨ (∃ trouble, Unreadable source trouble) ∨ Malformed source := by
  cases source with
  | absent => exact Or.inl ⟨_, .defaults⟩
  | unreadable trouble => exact Or.inr (Or.inl ⟨_, .refused trouble⟩)
  | content bytes =>
      by_cases htext : ∃ text, Utf8.ofString text = bytes
      · obtain ⟨text, rfl⟩ := htext
        by_cases hsaid : ∃ v s, Toml.Denotes text v ∧ Says v s
        · obtain ⟨v, s, denotes, said⟩ := hsaid
          exact Or.inl ⟨s, .document denotes said⟩
        · refine Or.inr (Or.inr ⟨fun v s denotes said => hsaid ⟨v, s, denotes, said⟩⟩)
      · exact Or.inr (Or.inl ⟨_, .notText fun text h => htext ⟨text, h⟩⟩)

/-- A file that has something to say is read as saying it. -/
theorem FileSays.ofSource (h : FileSays source s) : ofSource source = .ok s := by
  cases h with
  | defaults => rfl
  | document denotes said =>
      have hparse := Toml.parse?_eq_some_iff.mpr denotes
      have hvalue := (ofValue_ok_iff (Toml.ordered_of_parse hparse)).mpr said
      simp only [Settings.ofSource, Utf8.decode?_ofString, hparse, hvalue]

/-- A file that cannot be read is reported with the reason. -/
theorem Unreadable.ofSource {trouble : ReadTrouble} (h : Unreadable source trouble) :
    ofSource source = .error (.unreadable trouble) := by
  cases h with
  | refused => rfl
  | @notText bytes notText =>
      have hnone : Utf8.decode? bytes = none := by
        rw [Option.eq_none_iff_forall_ne_some]
        exact fun text htext => notText text (Utf8.decode?_eq_some_iff.mp htext)
      rw [Settings.ofSource, hnone]

/-- A file that says nothing the settings could be taken from is reported as
    malformed. -/
theorem Malformed.ofSource (h : Malformed source) : ofSource source = .error .malformed := by
  cases h with
  | @mk text silent =>
      cases hparse : Toml.parse? text with
      | none => simp only [Settings.ofSource, Utf8.decode?_ofString, hparse]
      | some v =>
          have hordered := Toml.ordered_of_parse hparse
          cases hvalue : ofValue .allowed v with
          | error e => simp only [Settings.ofSource, Utf8.decode?_ofString, hparse, hvalue]
          | ok s =>
              exact absurd ((ofValue_ok_iff hordered).mp hvalue)
                (silent v s (Toml.parse?_eq_some_iff.mp hparse))

end Source

/-! ## How the environment is laid over the file -/

/-- A text denotes a natural number below a bound: it is one digit or more,
    possibly behind a plus. -/
def Denotes (bound : Nat) (text : String) (n : Nat) : Prop :=
  ∃ digits : List Char, digits ≠ [] ∧ (∀ c ∈ digits, c.isDigit = true)
    ∧ (text.toList = digits ∨ text.toList = '+' :: digits)
    ∧ n = Nat.ofDigitChars 10 digits 0 ∧ n < bound

/-- One setting under one variable: the value that the variable's text is
    understood as, or what is below if it is not set, or no text, or not
    understood. -/
inductive Overlaid {α : Type} (means : String → α → Prop) (bytes? : Option Bytes) (below : α) :
    α → Prop where
  | laid {text : String} {a : α} (set : bytes? = some (Utf8.ofString text))
      (meant : means text a) : Overlaid means bytes? below a
  | kept (unread : ∀ text a, bytes? = some (Utf8.ofString text) → ¬ means text a) :
      Overlaid means bytes? below below

/-- The settings of a file with the environment laid over them. -/
structure Laid (env : Environment) (file m : Settings) : Prop where
  host : Overlaid (fun text a => Address.Spells text.toList a) (env.lookup "MQWATCH_HOST")
    file.server.host m.server.host
  port : Overlaid (Denotes 65536) (env.lookup "MQWATCH_PORT") file.server.port m.server.port
  capacity : Overlaid (Denotes Number.naturalBound) (env.lookup "MQWATCH_BUFFER")
    file.store.capacity m.store.capacity
  maxResults : Overlaid (Denotes Number.naturalBound) (env.lookup "MQWATCH_MAX_RESULTS")
    file.store.maxResults m.store.maxResults
  level : Overlaid (fun text level => level = text) (env.lookup "MQWATCH_LOG_LEVEL")
    file.logging.level m.logging.level
  json : Overlaid (fun text json => json = true ↔ text = "true" ∨ text = "1")
    (env.lookup "MQWATCH_LOG_JSON") file.logging.json m.logging.json
  requestQueue : m.store.requestQueue = file.store.requestQueue
  ingestQueue : m.store.ingestQueue = file.store.ingestQueue
  timeoutMillis : m.store.timeoutMillis = file.store.timeoutMillis
  ingest : m.ingest = file.ingest
  query : m.query = file.query

section Overlay

theorem isDigit_eq (c : Char) : isDigit c = c.isDigit := by
  simp [isDigit, Char.isDigit, Char.le_def]

theorem foldl_eq_ofDigitChars (digits : List Char) :
    digits.foldl (fun n c => n * 10 + (c.toNat - 48)) 0 = Nat.ofDigitChars 10 digits 0 := by
  rw [Nat.ofDigitChars_eq_foldl]
  congr 1
  funext n c
  rw [Nat.mul_comm]
  rfl

/-- What is left of a text without its plus. -/
def withoutPlus : List Char → List Char
  | '+' :: rest => rest
  | s => s

/-- A plus is no digit, so there is one way to find the digits. -/
theorem digits_iff {s digits : List Char} (all : ∀ c ∈ digits, c.isDigit = true) :
    (s = digits ∨ s = '+' :: digits) ↔ withoutPlus s = digits := by
  unfold withoutPlus
  split
  · next rest =>
    constructor
    · rintro (rfl | h)
      · exact absurd (all '+' List.mem_cons_self) (by decide)
      · exact (List.cons.inj h).2
    · rintro rfl
      exact Or.inr rfl
  · next hne =>
    constructor
    · rintro (h | h)
      · exact h
      · exact absurd h (hne _)
    · exact Or.inl

/-- The number of a variable is read if its text denotes one below the bound. -/
theorem naturalBelow?_eq_some_iff {bound n : Nat} {text : String} :
    naturalBelow? bound text = some n ↔ Denotes bound text n := by
  have hnumber : naturalBelow? bound text
      = if (withoutPlus text.toList).isEmpty || !(withoutPlus text.toList).all isDigit
          || decide (bound ≤ (withoutPlus text.toList).foldl
            (fun n c => n * 10 + (c.toNat - 48)) 0) then none
        else some ((withoutPlus text.toList).foldl (fun n c => n * 10 + (c.toNat - 48)) 0) := rfl
  rw [hnumber, foldl_eq_ofDigitChars, Option.ite_none_left_eq_some, Option.some_inj]
  simp only [Bool.or_eq_true, Bool.not_eq_true', List.isEmpty_iff, decide_eq_true_eq, not_or,
    Bool.not_eq_false, List.all_eq_true, isDigit_eq, Nat.not_le, and_assoc]
  constructor
  · rintro ⟨hne, hall, hlt, rfl⟩
    exact ⟨_, hne, hall, (digits_iff hall).mpr rfl, rfl, hlt⟩
  · rintro ⟨digits, hne, hall, hdigits, rfl, hlt⟩
    obtain rfl := (digits_iff hall).mp hdigits
    exact ⟨hne, hall, hlt, rfl⟩

/-- There is one way to lay a variable over a setting. -/
theorem overlaid_iff {α : Type} {env : Environment} {name : String} {r : String → Option α}
    {means : String → α → Prop} {below a : α}
    (reads : ∀ text a, r text = some a ↔ means text a) :
    Overlaid means (env.lookup name) below a ↔ a = (understood? env name r).getD below := by
  have hlaid {b : α} : understood? env name r = some b
      ↔ ∃ text, env.lookup name = some (Utf8.ofString text) ∧ means text b := by
    simp only [understood?, textOf?, Option.bind_eq_some_iff, Utf8.decode?_eq_some_iff, reads]
    constructor
    · rintro ⟨text, ⟨bytes, hset, rfl⟩, hmeans⟩
      exact ⟨text, hset, hmeans⟩
    · rintro ⟨text, hset, hmeans⟩
      exact ⟨text, ⟨_, hset, rfl⟩, hmeans⟩
  constructor
  · intro h
    cases h with
    | laid set meant => rw [hlaid.mpr ⟨_, set, meant⟩, Option.getD_some]
    | kept unread =>
        have hnone : understood? env name r = none := by
          rw [Option.eq_none_iff_forall_ne_some]
          intro b hb
          obtain ⟨text, hset, hmeans⟩ := hlaid.mp hb
          exact unread text b hset hmeans
        rw [hnone, Option.getD_none]
  · rintro rfl
    cases h : understood? env name r with
    | none =>
        refine .kept fun text b hset hmeans => ?_
        exact nomatch h.symm.trans (hlaid.mpr ⟨text, hset, hmeans⟩)
    | some b =>
        obtain ⟨text, hset, hmeans⟩ := hlaid.mp h
        exact .laid hset hmeans

/-- Two texts switch a variable on, and all others off. -/
theorem isOn_eq_iff {text : String} {b : Bool} :
    isOn text = b ↔ (b = true ↔ text = "true" ∨ text = "1") := by
  rw [Bool.eq_iff_iff, isOn, Bool.or_eq_true, beq_iff_eq, beq_iff_eq]
  exact iff_comm

/-- Settings are laid over the file as they are said to be, and in one way
    only. -/
theorem laid_iff {env : Environment} {file m : Settings} :
    Laid env file m ↔ m = overlay env file := by
  -- every text is understood as a level and as a switch, so these two are
  -- read without a reader that may fail
  have hlevel {a b : String} : Overlaid (fun text level => level = text)
        (env.lookup "MQWATCH_LOG_LEVEL") a b
      ↔ b = (textOf? env "MQWATCH_LOG_LEVEL").getD a := by
    have htext : understood? env "MQWATCH_LOG_LEVEL" some = textOf? env "MQWATCH_LOG_LEVEL" :=
      Option.bind_fun_some _
    rw [← htext]
    exact overlaid_iff fun text c => by rw [Option.some_inj, eq_comm]
  have hjson {a b : Bool} : Overlaid (fun text json => json = true ↔ text = "true" ∨ text = "1")
        (env.lookup "MQWATCH_LOG_JSON") a b
      ↔ b = ((textOf? env "MQWATCH_LOG_JSON").map isOn).getD a := by
    have htext : understood? env "MQWATCH_LOG_JSON" (fun text => some (isOn text))
        = (textOf? env "MQWATCH_LOG_JSON").map isOn := by
      rw [Option.map_eq_bind]
      rfl
    rw [← htext]
    exact overlaid_iff fun text c => by rw [Option.some_inj, isOn_eq_iff]
  constructor
  · intro h
    obtain ⟨⟨host, port⟩, ⟨capacity, maxResults, requestQueue, ingestQueue, timeoutMillis⟩,
      ingest, query, ⟨level, json⟩⟩ := m
    obtain rfl := (overlaid_iff fun _ _ => Address.ofString?_eq_some_iff).mp h.host
    obtain rfl := (overlaid_iff fun _ _ => naturalBelow?_eq_some_iff).mp h.port
    obtain rfl := (overlaid_iff fun _ _ => naturalBelow?_eq_some_iff).mp h.capacity
    obtain rfl := (overlaid_iff fun _ _ => naturalBelow?_eq_some_iff).mp h.maxResults
    obtain rfl := hlevel.mp h.level
    obtain rfl := hjson.mp h.json
    obtain rfl := h.requestQueue
    obtain rfl := h.ingestQueue
    obtain rfl := h.timeoutMillis
    obtain rfl := h.ingest
    obtain rfl := h.query
    rfl
  · rintro rfl
    exact ⟨(overlaid_iff fun _ _ => Address.ofString?_eq_some_iff).mpr rfl,
      (overlaid_iff fun _ _ => naturalBelow?_eq_some_iff).mpr rfl,
      (overlaid_iff fun _ _ => naturalBelow?_eq_some_iff).mpr rfl,
      (overlaid_iff fun _ _ => naturalBelow?_eq_some_iff).mpr rfl, hlevel.mpr rfl, hjson.mpr rfl,
      rfl, rfl, rfl, rfl, rfl⟩

end Overlay

/-! ## One variable for one setting -/

/-- The variables that settings are taken from. -/
inductive Variable where
  | host
  | port
  | capacity
  | maxResults
  | level
  | json
  deriving DecidableEq, Repr

namespace Variable

/-- The name of a variable. -/
def name : Variable → String
  | host => "MQWATCH_HOST"
  | port => "MQWATCH_PORT"
  | capacity => "MQWATCH_BUFFER"
  | maxResults => "MQWATCH_MAX_RESULTS"
  | level => "MQWATCH_LOG_LEVEL"
  | json => "MQWATCH_LOG_JSON"

/-- Settings with the one of a variable taken from others. -/
def takeOver (x : Variable) (others s : Settings) : Settings :=
  match x with
  | host => { s with server.host := others.server.host }
  | port => { s with server.port := others.server.port }
  | capacity => { s with store.capacity := others.store.capacity }
  | maxResults => { s with store.maxResults := others.store.maxResults }
  | level => { s with logging.level := others.logging.level }
  | json => { s with logging.json := others.logging.json }

end Variable

/-- Whatever a variable is set to, the settings differ at most in its own. -/
theorem overlay_eq_takeOver {env env' : Environment} {x : Variable} (file : Settings)
    (same : ∀ name, name ≠ x.name → env.lookup name = env'.lookup name) :
    overlay env file = x.takeOver (overlay env file) (overlay env' file) := by
  have htext (name : String) (hne : name ≠ x.name) : textOf? env name = textOf? env' name := by
    rw [textOf?, textOf?, same name hne]
  have hread {α : Type} (name : String) (hne : name ≠ x.name) (r : String → Option α) :
      understood? env name r = understood? env' name r := by
    rw [understood?, understood?, htext name hne]
  -- in each case what the five other variables hold is the same
  cases x with
  | host =>
      simp only [overlay, Variable.takeOver, htext "MQWATCH_LOG_LEVEL" (by decide),
        htext "MQWATCH_LOG_JSON" (by decide), hread "MQWATCH_PORT" (by decide),
        hread "MQWATCH_BUFFER" (by decide), hread "MQWATCH_MAX_RESULTS" (by decide)]
  | port =>
      simp only [overlay, Variable.takeOver, htext "MQWATCH_LOG_LEVEL" (by decide),
        htext "MQWATCH_LOG_JSON" (by decide), hread "MQWATCH_HOST" (by decide),
        hread "MQWATCH_BUFFER" (by decide), hread "MQWATCH_MAX_RESULTS" (by decide)]
  | capacity =>
      simp only [overlay, Variable.takeOver, htext "MQWATCH_LOG_LEVEL" (by decide),
        htext "MQWATCH_LOG_JSON" (by decide), hread "MQWATCH_HOST" (by decide),
        hread "MQWATCH_PORT" (by decide), hread "MQWATCH_MAX_RESULTS" (by decide)]
  | maxResults =>
      simp only [overlay, Variable.takeOver, htext "MQWATCH_LOG_LEVEL" (by decide),
        htext "MQWATCH_LOG_JSON" (by decide), hread "MQWATCH_HOST" (by decide),
        hread "MQWATCH_PORT" (by decide), hread "MQWATCH_BUFFER" (by decide)]
  | level =>
      simp only [overlay, Variable.takeOver, htext "MQWATCH_LOG_JSON" (by decide),
        hread "MQWATCH_HOST" (by decide), hread "MQWATCH_PORT" (by decide),
        hread "MQWATCH_BUFFER" (by decide), hread "MQWATCH_MAX_RESULTS" (by decide)]
  | json =>
      simp only [overlay, Variable.takeOver, htext "MQWATCH_LOG_LEVEL" (by decide),
        hread "MQWATCH_HOST" (by decide), hread "MQWATCH_PORT" (by decide),
        hread "MQWATCH_BUFFER" (by decide), hread "MQWATCH_MAX_RESULTS" (by decide)]

/-! ## What is checked -/

/-- Settings with which a store can run. -/
structure Positive (s : Settings) : Prop where
  capacity : 0 < s.store.capacity
  maxResults : 0 < s.store.maxResults
  requestQueue : 0 < s.store.requestQueue
  ingestQueue : 0 < s.store.ingestQueue
  timeoutMillis : 0 < s.store.timeoutMillis

/-- The first offence of settings: what comes before it is positive. -/
inductive FirstOffence (s : Settings) : Offence → Prop where
  | capacity (zero : s.store.capacity = 0) : FirstOffence s .noCapacity
  | maxResults (capacity : 0 < s.store.capacity) (zero : s.store.maxResults = 0) :
      FirstOffence s .noResults
  | queue (capacity : 0 < s.store.capacity) (maxResults : 0 < s.store.maxResults)
      (zero : s.store.requestQueue = 0 ∨ s.store.ingestQueue = 0) : FirstOffence s .noQueue
  | timeout (capacity : 0 < s.store.capacity) (maxResults : 0 < s.store.maxResults)
      (requestQueue : 0 < s.store.requestQueue) (ingestQueue : 0 < s.store.ingestQueue)
      (zero : s.store.timeoutMillis = 0) : FirstOffence s .noTimeout

/-- The check lets positive settings through as they are. -/
theorem check_ok_iff {s s' : Settings} : s.check = .ok s' ↔ s' = s ∧ Positive s := by
  rw [Settings.check]
  constructor
  · intro h
    split at h
    · exact nomatch h
    split at h
    · exact nomatch h
    split at h
    · exact nomatch h
    split at h
    · exact nomatch h
    · exact ⟨(Except.ok.inj h).symm, by omega, by omega, by omega, by omega, by omega⟩
  · rintro ⟨rfl, capacity, maxResults, requestQueue, ingestQueue, timeoutMillis⟩
    rw [if_neg (by omega), if_neg (by omega), if_neg (by omega), if_neg (by omega)]

/-- The check reports the first offence. -/
theorem check_error_iff {s : Settings} {offence : Offence} :
    s.check = .error offence ↔ FirstOffence s offence := by
  rw [Settings.check]
  constructor
  · intro h
    split at h
    · next zero =>
      obtain rfl := Except.error.inj h
      exact .capacity zero
    split at h
    · next zero =>
      obtain rfl := Except.error.inj h
      exact .maxResults (by omega) zero
    split at h
    · next zero =>
      obtain rfl := Except.error.inj h
      exact .queue (by omega) (by omega) zero
    split at h
    · next zero =>
      obtain rfl := Except.error.inj h
      exact .timeout (by omega) (by omega) (by omega) (by omega) zero
    · exact nomatch h
  · intro h
    cases h with
    | capacity zero => rw [if_pos zero]
    | maxResults capacity zero => rw [if_neg (by omega), if_pos zero]
    | queue capacity maxResults zero => rw [if_neg (by omega), if_neg (by omega), if_pos zero]
    | timeout capacity maxResults requestQueue ingestQueue zero =>
        rw [if_neg (by omega), if_neg (by omega), if_neg (by omega), if_pos zero]

/-! ## Loading -/

section Load

variable {source : Source} {env : Environment} {file : Settings}

/-- With a file that says something loading is laying the environment over it
    and checking. -/
theorem FileSays.load_eq (h : FileSays source file) :
    load source env = (overlay env file).check.mapError .invalid := by
  rw [load, h.ofSource]
  simp only
  cases (overlay env file).check <;> rfl

/-- What is loaded then is positive. -/
theorem FileSays.load_ok_iff (h : FileSays source file) {s : Settings} :
    load source env = .ok s ↔ s = overlay env file ∧ Positive (overlay env file) := by
  rw [h.load_eq, ← check_ok_iff]
  cases (overlay env file).check <;> simp [Except.mapError]

/-- What is reported then is the first offence. -/
theorem FileSays.load_error_iff (h : FileSays source file) {e : LoadError} :
    load source env = .error e
      ↔ ∃ offence, FirstOffence (overlay env file) offence ∧ .invalid offence = e := by
  simp only [h.load_eq, ← check_error_iff]
  cases (overlay env file).check <;> simp [Except.mapError]

/-- Whether a file can be read is found out before anything else. -/
theorem load_unreadable_iff {trouble : ReadTrouble} :
    load source env = .error (.unreadable trouble) ↔ Unreadable source trouble := by
  constructor
  · intro h
    rcases source_cases source with ⟨file, hfile⟩ | ⟨trouble', hunreadable⟩ | hmalformed
    · obtain ⟨offence, -, he⟩ := hfile.load_error_iff.mp h
      exact nomatch he
    · rw [load, hunreadable.ofSource] at h
      obtain rfl := LoadError.unreadable.inj (Except.error.inj h)
      exact hunreadable
    · rw [load, hmalformed.ofSource] at h
      exact nomatch h
  · intro h
    rw [load, h.ofSource]

/-- Whether it says something is found out before anything is checked. -/
theorem load_malformed_iff : load source env = .error .malformed ↔ Malformed source := by
  constructor
  · intro h
    rcases source_cases source with ⟨file, hfile⟩ | ⟨trouble, hunreadable⟩ | hmalformed
    · obtain ⟨offence, -, he⟩ := hfile.load_error_iff.mp h
      exact nomatch he
    · rw [load, hunreadable.ofSource] at h
      exact nomatch h
    · exact hmalformed
  · intro h
    rw [load, h.ofSource]

/-- What is loaded is what a file says under the environment, and can run. -/
theorem exists_file_of_load {s : Settings} (loaded : load source env = .ok s) :
    ∃ file, FileSays source file ∧ Laid env file s ∧ Positive s := by
  rcases source_cases source with ⟨file, hfile⟩ | ⟨trouble, hunreadable⟩ | hmalformed
  · obtain ⟨rfl, hpositive⟩ := hfile.load_ok_iff.mp loaded
    exact ⟨file, hfile, laid_iff.mpr rfl, hpositive⟩
  · exact nomatch loaded.symm.trans (load_unreadable_iff.mpr hunreadable)
  · exact nomatch loaded.symm.trans (load_malformed_iff.mpr hmalformed)

/-- A file that says settings can be read. -/
theorem FileSays.readable (h : FileSays source file) (trouble : ReadTrouble) :
    ¬ Unreadable source trouble := by
  intro hunreadable
  cases h.ofSource.symm.trans hunreadable.ofSource

/-- A file that says settings is not malformed. -/
theorem FileSays.formed (h : FileSays source file) : ¬ Malformed source := by
  intro hmalformed
  cases h.ofSource.symm.trans hmalformed.ofSource

/-- There is one set of settings that a file says. -/
theorem FileSays.unique {file' : Settings} (h : FileSays source file) (h' : FileSays source file') :
    file' = file :=
  Except.ok.inj (h'.ofSource.symm.trans h.ofSource)

end Load

/-- **SETTINGS ARE LAYERED AND CHECKED AT THE END**: whatever the environment
    holds, loading fails because the file cannot be read, or because it is
    malformed, if and only if it is so. For every other source there are one
    set of settings that the file says, with the defaults for what it leaves
    out, and one that comes of it under the environment. Loading gives the
    latter if its capacity, its limit for results, its queues and its timeout
    are positive, and otherwise it fails with the first of them, in this
    order, that is not. Each variable changes no setting but its own. -/
theorem settings_are_layered (source : Source) (env : Environment) :
    (∀ trouble, load source env = .error (.unreadable trouble) ↔ Unreadable source trouble)
      ∧ (load source env = .error .malformed ↔ Malformed source)
      ∧ ((∀ trouble, ¬ Unreadable source trouble) → ¬ Malformed source →
          ∃ file m : Settings,
            FileSays source file ∧ (∀ file', FileSays source file' → file' = file)
            ∧ Laid env file m ∧ (∀ m', Laid env file m' → m' = m)
            ∧ (∀ s, load source env = .ok s ↔ s = m ∧ Positive m)
            ∧ ∀ offence, load source env = .error (.invalid offence) ↔ FirstOffence m offence)
      ∧ ∀ (x : Variable) (env' : Environment) (file m m' : Settings),
          (∀ name, name ≠ x.name → env.lookup name = env'.lookup name) →
          Laid env file m → Laid env' file m' → m = x.takeOver m m' := by
  refine ⟨fun trouble => load_unreadable_iff, load_malformed_iff, fun readable formed => ?_,
    fun x env' file m m' same laid laid' => ?_⟩
  · obtain ⟨file, hfile⟩ : ∃ file, FileSays source file := by
      rcases source_cases source with hfile | ⟨trouble, hunreadable⟩ | hmalformed
      · exact hfile
      · exact absurd hunreadable (readable trouble)
      · exact absurd hmalformed formed
    refine ⟨file, overlay env file, hfile, fun _ => hfile.unique, laid_iff.mpr rfl,
      fun _ => laid_iff.mp, fun s => hfile.load_ok_iff, fun offence => ?_⟩
    rw [hfile.load_error_iff]
    constructor
    · rintro ⟨offence', hoffence, he⟩
      obtain rfl := LoadError.invalid.inj he
      exact hoffence
    · exact fun h => ⟨offence, h, rfl⟩
  · rw [laid_iff] at laid laid'
    rw [laid, laid']
    exact overlay_eq_takeOver file same

/-- A file with a host and a limit for results, and without room for a
    message. -/
def roomless : Source :=
  .content (Utf8.ofString
    "[server]\nhost = \"0.0.0.0\"\n[store]\ncapacity = 0\nmax_results = 50\n")

theorem fileSays_roomless :
    FileSays roomless
      { server := { host := .v4 0 0 0 0 }, store := { capacity := 0, maxResults := 50 } } := by
  have hparse : Toml.parse?
        "[server]\nhost = \"0.0.0.0\"\n[store]\ncapacity = 0\nmax_results = 50\n"
      = some (.object [("server", .object [("host", .string "0.0.0.0")]),
        ("store", .object [("capacity", .ofNat 0), ("max_results", .ofNat 50)])]) := by
    decide +kernel
  exact .document (Toml.parse?_eq_some_iff.mp hparse)
    ((ofValue_ok_iff (Toml.ordered_of_parse hparse)).mp rfl)

/-- Settings of a file reach the result, a variable lies over one of them and
    repairs another, and a variable that is not understood changes nothing.
    Without the repair the file is turned away. A file that gives a setting
    twice is malformed, and one that is no text cannot be read, whatever the
    variables are. -/
theorem settings_are_layered_repaired :
    load roomless
        [("MQWATCH_HOST", Utf8.ofString "::1"), ("MQWATCH_BUFFER", Utf8.ofString "7"),
          ("MQWATCH_PORT", Utf8.ofString "x")]
      = .ok { server := { host := .v6 [0, 0, 0, 0, 0, 0, 0, 1] }
              store := { capacity := 7, maxResults := 50 } }
    ∧ load roomless [("MQWATCH_BUFFER", Utf8.ofString "-7")] = .error (.invalid .noCapacity)
    ∧ load (.content (Utf8.ofString "[store]\ncapacity = 1\ncapacity = 2\n"))
        [("MQWATCH_BUFFER", Utf8.ofString "7")] = .error .malformed
    ∧ load (.content [0xFF]) [("MQWATCH_BUFFER", Utf8.ofString "7")]
        = .error (.unreadable .notText) := by
  refine ⟨?_, ?_, ?_, ?_⟩
  · generalize henv : [_, _, _] = env
    have hlaid : Laid env
        { server := { host := .v4 0 0 0 0 }, store := { capacity := 0, maxResults := 50 } }
        { server := { host := .v6 [0, 0, 0, 0, 0, 0, 0, 1] }
          store := { capacity := 7, maxResults := 50 } } :=
      laid_iff.mpr (henv ▸ by decide +kernel)
    obtain ⟨-, -, hlayered, -⟩ := settings_are_layered roomless env
    obtain ⟨file, m, -, hfile, -, hlaid', hload, -⟩ :=
      hlayered fileSays_roomless.readable fileSays_roomless.formed
    obtain rfl := hfile _ fileSays_roomless
    obtain rfl := hlaid' _ hlaid
    exact (hload _).mpr ⟨rfl, by decide, by decide, by decide, by decide, by decide⟩
  · generalize henv : [_] = env
    have hlaid : Laid env
        { server := { host := .v4 0 0 0 0 }, store := { capacity := 0, maxResults := 50 } }
        { server := { host := .v4 0 0 0 0 }, store := { capacity := 0, maxResults := 50 } } :=
      laid_iff.mpr (henv ▸ by decide +kernel)
    obtain ⟨-, -, hlayered, -⟩ := settings_are_layered roomless env
    obtain ⟨file, m, -, hfile, -, hlaid', -, hoffence⟩ :=
      hlayered fileSays_roomless.readable fileSays_roomless.formed
    obtain rfl := hfile _ fileSays_roomless
    obtain rfl := hlaid' _ hlaid
    exact (hoffence _).mpr (.capacity rfl)
  · have hparse : Toml.parse? "[store]\ncapacity = 1\ncapacity = 2\n" = none := by
      decide +kernel
    obtain ⟨-, hmalformed, -⟩ := settings_are_layered
      (.content (Utf8.ofString "[store]\ncapacity = 1\ncapacity = 2\n"))
      [("MQWATCH_BUFFER", Utf8.ofString "7")]
    refine hmalformed.mpr ⟨fun v s denotes _ => ?_⟩
    cases hparse.symm.trans (Toml.parse?_eq_some_iff.mpr denotes)
  · obtain ⟨hunreadable, -⟩ := settings_are_layered (.content [0xFF])
      [("MQWATCH_BUFFER", Utf8.ofString "7")]
    have hnone : Utf8.decode? [0xFF] = none := by decide +kernel
    refine (hunreadable .notText).mpr (.notText fun text htext => ?_)
    cases hnone.symm.trans (Utf8.decode?_eq_some_iff.mpr htext)

end BusWindow.Settings
