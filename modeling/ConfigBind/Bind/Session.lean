import ConfigBind.Bind.Script

/-!
# Sessions

A run of the binder keeps two things: the texts of the paths that are being bound, so that a path is
never entered again below itself, and the events of the run.  `Bind` is the monad of such runs; a
run without result is one that nested deeper than it was allowed to.

`Script.exec` runs a script, given how its parts are bound.
-/

namespace ConfigBind

/-- The state of a run. -/
structure Session where
  /-- The texts of the paths that are being bound. -/
  inFlight : List String
  /-- What has happened, the latest first. -/
  events : List Event
  deriving Repr

namespace Session

/-- The failures that were put to policies, the latest first. -/
def asked (s : Session) : List Event := s.events.filter (·.isAsked)

def note (s : Session) (e : Event) : Session := { s with events := e :: s.events }

def enter (s : Session) (path : String) : Session :=
  { s with inFlight := path :: s.inFlight }.note (.entered path)

def leave (s : Session) (path : String) : Session :=
  { s.note (.left path) with inFlight := s.inFlight.erase path }

end Session

abbrev Bind := StateT Session Option

namespace Bind

def exhausted {α : Type} : Bind α := fun _ => none

def note (e : Event) : Bind Unit := modify (·.note e)

/-- Enters a path, unless it is being bound already; tells whether it was entered. -/
def enter (path : String) : Bind Bool := do
  if (← get).inFlight.contains path then
    note (.refused path)
    return false
  else
    modify (·.enter path)
    return true

def leave (path : String) : Bind Unit := modify (·.leave path)

end Bind

/-- Runs a script whose parts are bound by `bind`. -/
def Script.exec {α : Type} (bind : Request → Bind (Outcome Value)) : Script α → Bind α
  | done a => pure a
  | event e next => do
    Bind.note e
    next.exec bind
  | call r next => do
    let outcome ← bind r
    (next outcome).exec bind

end ConfigBind
