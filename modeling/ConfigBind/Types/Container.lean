import ConfigBind.Types.Descriptor

/-!
# Putting containers together

Lists, arrays, sets and maps from values of their element type.  All values are unpacked before
anything is built, so one value of a wrong type fails the whole, and a container that was to be
extended stays as it was.

A list keeps all items in order, a set each element once, a map the last value of each key; a fixed
array checks its length before anything else.  `Descriptor.collect` and `Descriptor.collectEntries`
choose by the shape of a type.

A container may also be extended in place: an `Extension` is a computation that changes it as it
goes, one item after the other (`Descriptor.extend`, `Descriptor.extendEntries`).
-/

namespace ConfigBind

/-- A computation that changes a value in place.  What it has changed before it fails is changed. -/
abbrev Extension (α : Type) := ExceptT BuildError (StateM Value) α

/-- What an extension of a value comes to, and the value as it is then. -/
def Extension.on {α : Type} (extension : Extension α) (target : Value) :
    Except BuildError α × Value :=
  (ExceptT.run extension).run target

end ConfigBind

namespace ConfigBind.Container

/-- The data of some values, all of one type. -/
def unpack (item : TypeRef) : List Value → Except BuildError (List Datum)
  | [] => .ok []
  | v :: rest => do
    let datum ← v.as item
    return datum :: (← unpack item rest)

def unpackEntries (value : TypeRef) :
    List (String × Value) → Except BuildError (List (String × Datum))
  | [] => .ok []
  | (key, v) :: rest => do
    let datum ← v.as value
    return (key, datum) :: (← unpackEntries value rest)

def list (type item : TypeRef) (items : List Value) : Except BuildError Value := do
  return ⟨type, .list (← unpack item items)⟩

def extendList (type item : TypeRef) (target : Value) (items : List Value) :
    Except BuildError Value := do
  let old ← target.as type
  let new ← unpack item items
  return ⟨type, .list (old.elements ++ new)⟩

def array (type item : TypeRef) (capacity : Option Nat) (items : List Value) :
    Except BuildError Value := do
  match capacity with
  | some n =>
    if items.length ≠ n then
      throw (.lengthMismatch type.name n items.length)
  | none => pure ()
  return ⟨type, .list (← unpack item items)⟩

def set (type item : TypeRef) (items : List Value) : Except BuildError Value := do
  return ⟨type, .set (Datum.insertElements [] (← unpack item items))⟩

def extendSet (type item : TypeRef) (target : Value) (items : List Value) :
    Except BuildError Value := do
  let old ← target.as type
  let new ← unpack item items
  return ⟨type, .set (Datum.insertElements old.elements new)⟩

def map (type value : TypeRef) (entries : List (String × Value)) : Except BuildError Value := do
  return ⟨type, .map (Entries.ofList (← unpackEntries value entries))⟩

def extendMap (type value : TypeRef) (target : Value) (entries : List (String × Value)) :
    Except BuildError Value := do
  let old ← target.as type
  let new ← unpackEntries value entries
  return ⟨type, .map (Entries.insertAll old.entries new)⟩

def putAll {α : Type} (put : Datum → α → Datum) : List α → Extension Unit
  | [] => return
  | part :: rest => do
    modify fun target => { target with datum := put target.datum part }
    putAll put rest

/-- Puts parts into a value in place, which must be of the type.  The parts have all been unpacked
before the first is put in. -/
def extendWith {α : Type} (type : TypeRef) (unpacked : Except BuildError (List α))
    (put : Datum → α → Datum) : Extension Unit := do
  let _ ← (← get).as type
  let parts ← unpacked
  putAll put parts

def pushItem (target item : Datum) : Datum := .list (target.elements ++ [item])

def putElement (target element : Datum) : Datum :=
  .set (Datum.insertElement element target.elements)

def putEntry (target : Datum) (entry : String × Datum) : Datum :=
  .map (Entries.insert entry.1 entry.2 target.entries)

end ConfigBind.Container

namespace ConfigBind.Descriptor

/-- A list, an array or a set of some items.  Lists and sets take them on top of those of an
existing value, if there is one; an array is always new. -/
def collect (d : Descriptor) (into : Option Value) (items : List Value) :
    Except BuildError Value :=
  match d.shape, into with
  | .list item, none => Container.list d.type item items
  | .list item, some old => Container.extendList d.type item old items
  | .array item capacity, _ => Container.array d.type item capacity items
  | .set item, none => Container.set d.type item items
  | .set item, some old => Container.extendSet d.type item old items
  | _, _ => .error (.noFactory d.type.name)

/-- A map of some entries, on top of those of an existing value if there is one. -/
def collectEntries (d : Descriptor) (into : Option Value) (entries : List (String × Value)) :
    Except BuildError Value :=
  match d.shape, into with
  | .map value, none => Container.map d.type value entries
  | .map value, some old => Container.extendMap d.type value old entries
  | _, _ => .error (.noFactory d.type.name)

def extend (d : Descriptor) (items : List Value) : Extension Unit :=
  match d.shape with
  | .list item => Container.extendWith d.type (Container.unpack item items) Container.pushItem
  | .set item => Container.extendWith d.type (Container.unpack item items) Container.putElement
  | _ => throw (.noFactory d.type.name)

def extendEntries (d : Descriptor) (entries : List (String × Value)) : Extension Unit :=
  match d.shape with
  | .map value =>
    Container.extendWith d.type (Container.unpackEntries value entries) Container.putEntry
  | _ => throw (.noFactory d.type.name)

end ConfigBind.Descriptor
