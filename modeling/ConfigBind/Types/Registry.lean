import ConfigBind.Types.Descriptor

/-!
# The type registry

A `Catalog` knows how types describe themselves; a `Registry` holds the descriptors of the types
that have been registered.  Registering a type registers what it depends on as well, through
types that contain themselves too: a type that is there already ends the walk.

A registry is searched by type, by full name and by short name.  A short name that several types
share is ambiguous and finds none of them.
-/

namespace ConfigBind

/-- The descriptors that types give of themselves. -/
structure Catalog where
  descriptors : List Descriptor

def Catalog.describe? (c : Catalog) (t : TypeRef) : Option Descriptor :=
  c.descriptors.find? (·.type = t)

structure Registry where
  types : List Descriptor
  byName : List (String × TypeRef)
  byIdent : List (String × TypeRef)
  ambiguous : List String

namespace Registry

def empty : Registry := ⟨[], [], [], []⟩

def get? (r : Registry) (t : TypeRef) : Option Descriptor := r.types.find? (·.type = t)

def contains (r : Registry) (t : TypeRef) : Bool := r.types.any (·.type = t)

def getByName? (r : Registry) (name : String) : Option Descriptor :=
  (r.byName.lookup name).bind r.get?

/-- The registered type of a short name that no other has. -/
def getByIdent? (r : Registry) (ident : String) : Option Descriptor :=
  (r.byIdent.lookup ident).bind r.get?

def isAmbiguous (r : Registry) (ident : String) : Bool := r.ambiguous.contains ident

def size (r : Registry) : Nat := r.types.length

/-- The registry with the short name of a type that is new to it.  A short name that another type
has already leads nowhere from then on. -/
def addIdent (r : Registry) (t : TypeRef) : Registry :=
  if r.isAmbiguous t.ident then r
  else if (r.byIdent.lookup t.ident).isSome then
    { r with
      byIdent := r.byIdent.filter (·.1 != t.ident)
      ambiguous := t.ident :: r.ambiguous }
  else { r with byIdent := Entries.insert t.ident t r.byIdent }

def add (r : Registry) (d : Descriptor) : Registry :=
  { r.addIdent d.type with
    types := r.types ++ [d]
    byName := Entries.insert d.type.name d.type r.byName }

/-- The registry with a descriptor, in place of an earlier one of the same type.  Nothing else is
registered. -/
def insert (r : Registry) (d : Descriptor) : Registry :=
  if r.contains d.type then
    { r with types := r.types.map fun old => if old.type = d.type then d else old }
  else r.add d

def missing (c : Catalog) (r : Registry) : List Descriptor :=
  c.descriptors.filter fun d => !r.contains d.type

theorem contains_add (r : Registry) (d : Descriptor) (t : TypeRef) :
    (r.add d).contains t = (r.contains t || decide (d.type = t)) := by
  simp [add, contains]

theorem length_missing_add_lt {c : Catalog} {r : Registry} {d : Descriptor}
    (hmem : d ∈ c.descriptors) (hnew : r.contains d.type = false) :
    ((r.add d).missing c).length < (r.missing c).length := by
  unfold missing
  rw [← List.countP_eq_length_filter, ← List.countP_eq_length_filter]
  have hle : ∀ (l : List Descriptor),
      l.countP (fun e => !(r.add d).contains e.type) ≤ l.countP (fun e => !r.contains e.type) := by
    intro l
    apply List.countP_mono_left
    intro e _ h
    simp only [contains_add, Bool.not_eq_true', Bool.or_eq_false_iff] at h
    simp [h.1]
  obtain ⟨before, after, hsplit⟩ := List.append_of_mem hmem
  rw [hsplit]
  simp only [List.countP_append, List.countP_cons]
  have hb := hle before
  have ha := hle after
  simp only [contains_add, hnew, decide_true, Bool.or_true, Bool.not_true, Bool.not_false,
    Bool.false_eq_true, if_true, if_false] at *
  omega

/-- The registry with all types of a list and what they depend on. -/
def enroll (c : Catalog) (r : Registry) : (pending : List TypeRef) → Registry
  | [] => r
  | t :: rest =>
    match _hmem : c.describe? t with
    | none => enroll c r rest
    | some d =>
      if _hnew : r.contains d.type = true then enroll c r rest
      else enroll c (r.add d) (d.dependencies ++ rest)
termination_by pending => ((r.missing c).length, pending.length)
decreasing_by
  · exact Prod.Lex.right _ (by simp)
  · exact Prod.Lex.right _ (by simp)
  · exact Prod.Lex.left _ _
      (length_missing_add_lt (List.mem_of_find?_eq_some _hmem) (by simpa using _hnew))

/-- Registers a type by a given descriptor; tells whether it was new. -/
def registerDescriptor (c : Catalog) (r : Registry) (d : Descriptor) : Bool × Registry :=
  if r.contains d.type then (false, r) else (true, (r.add d).enroll c d.dependencies)

/-- Registers a type by its own descriptor; tells whether it was new.  A type that the catalogue
does not describe is left out. -/
def register (c : Catalog) (r : Registry) (t : TypeRef) : Bool × Registry :=
  match c.describe? t with
  | none => (false, r)
  | some d => r.registerDescriptor c d

def primitives : List TypeRef :=
  [.bool, .char] ++ ([.u8, .u16, .u32, .u64, .u128, .usize, .i8, .i16, .i32, .i64, .i128,
    .isize] : List IntegerType).map (·.ref) ++ [.float32, .float64, .text]

def standard : Registry := primitives.foldl (fun r t => r.insert ⟨t, .scalar⟩) empty

def describe (r : Registry) : String :=
  "\x7b" ++ ", ".intercalate (r.byName.map fun (name, _) => Text.quoted name) ++ "\x7d"

end Registry

end ConfigBind
