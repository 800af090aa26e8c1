import ConfigBind.Bind.Error

/-!
# Events

What happens in a run of the binder, and the log records of it: `Event.record?` is the level and the
wording of the record of an event.
-/

namespace ConfigBind

/-- What happens in a run. -/
inductive Event
  | selected (strategy : String) (type : TypeRef)
  | entered (path : String)
  /-- The path was being bound already. -/
  | refused (path : String)
  | left (path : String)
  | redirected (path target : String)
  | failed (path : String) (type : TypeRef) (error : BindError)
  /-- A failure policy was asked, with so many paths being bound. -/
  | asked (policy : String) (path : String) (type : TypeRef) (error : BindError) (inFlight : Nat)
  | ignored (path : String) (type : TypeRef)
  | skippedComponent (name : String) (type : TypeRef)
  | skippedProperty (name : String) (type : TypeRef)
  | unboundProperty (path name : String)
  | unboundEntry (path : String)
  | unboundElement (path : String)
  deriving Repr

inductive Level
  | trace
  | debug
  | warn
  deriving DecidableEq, Repr

def Level.name : Level → String
  | trace => "TRACE"
  | debug => "DEBUG"
  | warn => "WARN"

namespace Event

def record? : Event → Option (Level × String)
  | selected strategy type =>
    some (.trace, "`" ++ strategy ++ "` binder selected for `" ++ type.name ++ "`")
  | entered path => some (.trace, "enter `" ++ path ++ "`")
  | refused path => some (.trace, "path `" ++ path ++ "` is already in flight")
  | left path => some (.trace, "leave `" ++ path ++ "`")
  | redirected path target => some (.debug, "`" ++ path ++ "` is an alias of `" ++ target ++ "`")
  | failed path type error =>
    some (.debug, "binding `" ++ path ++ "` to `" ++ type.name ++ "` failed: " ++ error.message)
  | asked .. => none
  | ignored path type =>
    some (.warn, "ignored failure while binding `" ++ path ++ "` to `" ++ type.name ++ "`")
  | skippedComponent name type =>
    some (.trace, "shallow binding skips component `" ++ name ++ "` of `" ++ type.name ++ "`")
  | skippedProperty name type =>
    some (.trace, "shallow binding skips property `" ++ name ++ "` of `" ++ type.name ++ "`")
  | unboundProperty path name =>
    some (.debug, "no value bound for `" ++ path ++ "`, property `" ++ name ++ "` left as is")
  | unboundEntry path => some (.debug, "no value bound for entry `" ++ path ++ "`, skipped")
  | unboundElement path => some (.debug, "no value bound for element `" ++ path ++ "`, skipped")

def isAsked : Event → Bool
  | asked .. => true
  | _ => false

end Event

end ConfigBind
