import ConfigBind.Convert.Basic
import ConfigBind.Types.Descriptor

/-!
# Binding errors

A `BindError` says why data could not be bound to a type.  A failure below a path is wrapped at
every path on the way up, so that the outermost wrapper names the path that was asked for and
`rootCause` what went wrong; the failures of the members of one object are gathered in one error.
-/

namespace ConfigBind

inductive BindError
  /-- The path is being bound already. -/
  | recursive (path : String)
  | conversion (cause : ConversionError)
  | instantiation (type : String) (cause : BuildError)
  | unsupportedSource (message : String)
  | unregisteredType (type : String)
  | noStrategy (type : String)
  | unsupported (message : String)
  | missing
  | missingElement (path : String)
  | unaddressableKey (path key : String)
  | build (cause : BuildError)
  | kind (cause : KindError)
  /-- Members of an object failed. -/
  | members (type : String) (errors : List BindError)
  /-- What failed below a path. -/
  | failed (path target : String) (cause : BindError)
  deriving Inhabited, Repr

namespace BindError

def message : BindError → String
  | recursive path => "recursive binding detected at `" ++ path ++ "`"
  | conversion cause => cause.message
  | instantiation type _ => "cannot instantiate `" ++ type ++ "`"
  | unsupportedSource message => "unsupported data source: " ++ message
  | unregisteredType type => "type `" ++ type ++ "` is not registered"
  | noStrategy type => "no binder supports `" ++ type ++ "`"
  | unsupported message => message
  | missing => "no value was bound"
  | missingElement path => "no value bound for element `" ++ path ++ "`"
  | unaddressableKey path key =>
    "map key `" ++ key ++ "` under `" ++ path ++ "` is not addressable as one path segment"
  | build cause => cause.message
  | kind cause => cause.message
  | members type errors =>
    toString errors.length ++ " properties of `" ++ type ++ "` failed to bind"
  | failed path target _ => "failed to bind `" ++ path ++ "` to `" ++ target ++ "`"

def code : BindError → String
  | recursive _ => "Recursive"
  | conversion _ => "Conversion"
  | instantiation .. => "Instantiation"
  | unsupportedSource _ => "UnsupportedDataSource"
  | unregisteredType _ => "UnregisteredType"
  | noStrategy _ => "NoStrategy"
  | unsupported _ => "Unsupported"
  | missing => "Missing"
  | missingElement _ => "MissingElement"
  | unaddressableKey .. => "UnaddressableKey"
  | build _ => "Reflect"
  | kind _ => "Kind"
  | members .. => "Properties"
  | failed .. => "Failed"

/-- What went wrong, without the wrappers around it. -/
def rootCause : BindError → BindError
  | failed _ _ cause => cause.rootCause
  | e => e

mutual

/-- Whether the error comes of a path that was being bound already, also through members. -/
def isRecursive : BindError → Bool
  | recursive _ => true
  | members _ errors => anyRecursive errors
  | failed _ _ cause => cause.isRecursive
  | _ => false

def anyRecursive : List BindError → Bool
  | [] => false
  | e :: rest => e.isRecursive || anyRecursive rest

end

def path? : BindError → Option String
  | failed path _ _ => some path
  | _ => none

end BindError

end ConfigBind
