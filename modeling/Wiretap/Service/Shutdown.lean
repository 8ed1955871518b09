/-
  Wiretap.Service.Shutdown
  ────────────────────────
  **TELLING EVERYONE TO STOP.**

  Hosts can trigger the shutdown, listeners wait for it.  One who starts to listen late
  still learns of it, and nobody waits when there is no host left who could trigger it.
-/

namespace Wiretap

/-- A shutdown that hosts and listeners share, each known by a name. -/
structure ShutdownSignal where
  triggered : Bool
  hosts : List String
  listeners : List String
  deriving DecidableEq, Repr

namespace ShutdownSignal

/-- A signal with one host. -/
def new (host : String) : ShutdownSignal := ⟨false, [host], []⟩

/-- With one more name, unless it is there. -/
def including (name : String) (names : List String) : List String :=
  if names.contains name then names else names ++ [name]

/-- A host makes another one. -/
def cloneHost (s : ShutdownSignal) (host name : String) : ShutdownSignal :=
  if s.hosts.contains host then { s with hosts := including name s.hosts } else s

/-- A host goes away. -/
def dropHost (s : ShutdownSignal) (host : String) : ShutdownSignal :=
  { s with hosts := s.hosts.filter (· != host) }

/-- Someone listens to a host. -/
def subscribe (s : ShutdownSignal) (host listener : String) : ShutdownSignal :=
  if s.hosts.contains host then { s with listeners := including listener s.listeners } else s

/-- A listener makes another one. -/
def cloneListener (s : ShutdownSignal) (listener name : String) : ShutdownSignal :=
  if s.listeners.contains listener then { s with listeners := including name s.listeners }
  else s

/-- A listener goes away. -/
def dropListener (s : ShutdownSignal) (listener : String) : ShutdownSignal :=
  { s with listeners := s.listeners.filter (· != listener) }

/-- A host triggers the shutdown. -/
def trigger (s : ShutdownSignal) (host : String) : ShutdownSignal :=
  if s.hosts.contains host then { s with triggered := true } else s

/-- Whether a listener that waits is done waiting. -/
def isOver (s : ShutdownSignal) : Bool := s.triggered || s.hosts.isEmpty

end ShutdownSignal

end Wiretap
