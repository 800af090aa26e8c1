import ConfigBind.Text.Basic

/-!
# Texts with references

A text may hold references `$\x7bname\x7d` to other data.  `Template.parse` cuts it into pieces,
each a literal part followed by a reference, and the part behind the last reference.  A reference
runs from the first opening mark to the first closing brace behind it; an opening mark without one
is literal.  `Template.fill` puts values in place of the references, from left to right, and leaves
a reference without value as it was written.

`wholeReference?` recognises a text that is one reference and nothing else.
-/

namespace ConfigBind.Text

/-- The text before the first opening mark, and the text after the mark. -/
def splitOpen? : List Char → Option (List Char × List Char)
  | [] => none
  | '$' :: '\x7b' :: rest => some ([], rest)
  | c :: rest => (splitOpen? rest).map fun (before, after) => (c :: before, after)

def splitClose? : List Char → Option (List Char × List Char)
  | [] => none
  | c :: rest =>
    if c = '\x7d' then some ([], rest)
    else (splitClose? rest).map fun (before, after) => (c :: before, after)

theorem length_of_splitOpen? {cs before after : List Char}
    (h : splitOpen? cs = some (before, after)) : after.length < cs.length := by
  fun_induction splitOpen? cs generalizing before after with
  | case1 => simp at h
  | case2 rest =>
    simp only [Option.some.injEq, Prod.mk.injEq] at h
    obtain ⟨_, rfl⟩ := h
    simp only [List.length_cons]
    omega
  | case3 c rest _ ih =>
    obtain ⟨⟨b, a⟩, hsplit, heq⟩ := Option.map_eq_some_iff.1 h
    simp only [Prod.mk.injEq] at heq
    obtain ⟨_, rfl⟩ := heq
    have := ih hsplit
    simp only [List.length_cons]
    omega

theorem length_of_splitClose? {cs before after : List Char}
    (h : splitClose? cs = some (before, after)) : after.length < cs.length := by
  induction cs generalizing before after with
  | nil => simp [splitClose?] at h
  | cons c rest ih =>
    simp only [splitClose?] at h
    split at h
    · simp only [Option.some.injEq, Prod.mk.injEq] at h
      obtain ⟨_, rfl⟩ := h
      simp
    · obtain ⟨⟨b, a⟩, hsplit, heq⟩ := Option.map_eq_some_iff.1 h
      simp only [Prod.mk.injEq] at heq
      obtain ⟨_, rfl⟩ := heq
      have := ih hsplit
      simp only [List.length_cons]
      omega

/-- A text cut at its references.  References are kept as they are written, blanks included. -/
structure Template where
  /-- Every reference with the literal text before it. -/
  pieces : List (List Char × List Char)
  tail : List Char
  deriving DecidableEq, Repr

namespace Template

def written (reference : List Char) : List Char := '$' :: '\x7b' :: reference ++ ['\x7d']

def render (t : Template) : List Char :=
  t.pieces.flatMap (fun (literal, reference) => literal ++ written reference) ++ t.tail

def parse (cs : List Char) : Template :=
  match _hopen : splitOpen? cs with
  | none => ⟨[], cs⟩
  | some (literal, after) =>
    match _hclose : splitClose? after with
    | none => ⟨[], cs⟩
    | some (reference, rest) =>
      let t := parse rest
      { t with pieces := (literal, reference) :: t.pieces }
termination_by cs.length
decreasing_by
  have := length_of_splitOpen? _hopen
  have := length_of_splitClose? _hclose
  omega

def references (t : Template) : List String :=
  t.pieces.map fun (_, reference) => String.ofList (trim reference)

/-- The pieces with values in place of the references, and the tail behind them. -/
def fillPieces {m : Type → Type} [Monad m] (resolve : String → m (Option String))
    (tail : List Char) : List (List Char × List Char) → m (List Char)
  | [] => return tail
  | (literal, reference) :: rest => do
    let value ← resolve (String.ofList (trim reference))
    let filled ← fillPieces resolve tail rest
    return literal ++ (value.map String.toList).getD (written reference) ++ filled

def fill {m : Type → Type} [Monad m] (resolve : String → m (Option String)) (t : Template) :
    m (List Char) :=
  fillPieces resolve t.tail t.pieces

end Template

def hasReference (cs : List Char) : Bool :=
  match splitOpen? cs with
  | some (_, after) => after.contains '\x7d'
  | none => false

/-- The reference that a text consists of. -/
def wholeReference? : List Char → Option String
  | '$' :: '\x7b' :: rest =>
    let inner := rest.dropLast
    if rest.getLast? == some '\x7d' && !inner.isEmpty && (splitOpen? inner).isNone &&
      !inner.contains '\x7d'
    then some (String.ofList (trim inner)) else none
  | _ => none

end ConfigBind.Text
