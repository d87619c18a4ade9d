import BusWindow.Address
import BusWindow.Store.System

/-!
# Settings — what can be chosen, and what has to be checked

    Every setting has a default. Settings come in sections, one for each
    part of the program. `check` refuses the settings with which nothing
    could run.
-/

namespace BusWindow

/-- Where the program listens. -/
structure ServerSettings where
  host : Address := .v4 127 0 0 1
  port : Nat := 9090
  deriving DecidableEq, Repr, Inhabited

/-- The sizes of the store, and how long a call waits. -/
structure StoreSection where
  capacity : Nat := 100000
  maxResults : Nat := 1000
  requestQueue : Nat := 64
  ingestQueue : Nat := 1024
  timeoutMillis : Nat := 5000
  deriving DecidableEq, Repr, Inhabited

/-- What is taken in, and how it is shown. -/
structure IngestSettings where
  ignoreKeys : List String := []
  classHeader : String := "__ClassName__"
  indentJson : Bool := false
  deriving DecidableEq, Repr, Inhabited

/-- Which queries are let through. -/
structure QuerySettings where
  minLength : Nat := 3
  deriving DecidableEq, Repr, Inhabited

/-- What is logged. -/
structure LoggingSettings where
  level : String := "info"
  json : Bool := false
  deriving DecidableEq, Repr, Inhabited

/-- All settings. -/
structure Settings where
  server : ServerSettings := {}
  store : StoreSection := {}
  ingest : IngestSettings := {}
  query : QuerySettings := {}
  logging : LoggingSettings := {}
  deriving DecidableEq, Repr, Inhabited

/-- The settings that a store is made with. -/
def StoreSection.toStore (s : StoreSection) : StoreSettings where
  capacity := s.capacity
  maxResults := s.maxResults
  requestQueue := s.requestQueue
  ingestQueue := s.ingestQueue
  timeout := .ofMillis s.timeoutMillis

/-- Settings with which nothing could run. -/
inductive Offence where
  | noCapacity
  | noResults
  | noQueue
  | noTimeout
  deriving DecidableEq, Repr

/-- The wording of an offence. -/
def Offence.message : Offence → String
  | .noCapacity => "store.capacity must be positive"
  | .noResults => "store.max_results must be positive"
  | .noQueue => "store queue sizes must be positive"
  | .noTimeout => "store.request_timeout_ms must be positive"

/-- The first offence of some settings. -/
def Settings.check (s : Settings) : Except Offence Settings :=
  if s.store.capacity = 0 then .error .noCapacity
  else if s.store.maxResults = 0 then .error .noResults
  else if s.store.requestQueue = 0 ∨ s.store.ingestQueue = 0 then .error .noQueue
  else if s.store.timeoutMillis = 0 then .error .noTimeout
  else .ok s

end BusWindow
