import ConfigBind.Proofs.Path.Windows

/-!
# Relative addresses

The segments of a join are those of both sides, so a join leads where its right side leads from
where the left one does.  A join drops a side that is empty, and an empty path need not be without
segments: the one parsed from the empty text has one, without a mark.  Resolving passes over that
segment too (`Built.get?_of_isEmpty`), so whatever is dropped would not have led anywhere.

* `get?_append`: resolving a join is resolving its sides one after the other.
* `relative_addresses`: so for the first segments of a path and the others, and the elements of a
  list are found behind the path of the list.
-/

namespace ConfigBind

namespace Path

variable {p q : Path}

theorem Built.get?_of_isEmpty (h : p.Built) (he : p.isEmpty = true) (root : Node) :
    root.get? p = some root := by
  rcases h.tight_or with htight | hblank
  · rw [Node.get?, htight he, Node.follow?_nil]
  · have hsegments : p.segments = [⟨"", .blank⟩] := by
      rw [hblank]
      rfl
    rw [Node.get?, hsegments, Node.follow?_cons]
    rfl

/-- **A join leads where its right side leads from where the left one does.** -/
theorem get?_append (hp : p.Built) (hq : q.Built) (root : Node) :
    root.get? (p ++ q) = (root.get? p).bind (·.get? q) := by
  cases he : q.isEmpty with
  | true =>
    have hstay : (fun n : Node => n.get? q) = some := funext (hq.get?_of_isEmpty he)
    rw [append_of_isEmpty_right p he, hstay, Option.bind_fun_some]
  | false =>
    cases he' : p.isEmpty with
    | true =>
      rw [append_of_isEmpty_left he he', hp.get?_of_isEmpty he' root, Option.bind_some]
    | false =>
      rw [Node.get?, segments_append he' he, Node.follow?_append]
      rfl

theorem get?_window {i j k : Nat} (hij : i ≤ j) (hjk : j ≤ k) (hk : k ≤ p.size) (root : Node) :
    root.get? (p.window i k) = (root.get? (p.window i j)).bind (·.get? (p.window j k)) := by
  rw [Node.get?, ← segments_neighbouring_windows hij hjk hk, Node.follow?_append]
  rfl

theorem get?_bracketed (separator : Char) (items : List Node) {i : Nat}
    (hi : i < 0x10000000000000000) :
    (Node.list items).get? (parseWith separator ("[" ++ toString i ++ "]")) = items[i]? := by
  have hsegments : (parseWith separator ("[" ++ toString i ++ "]")).segments =
      [elementSegment i] := segments_parseWith_bracketed separator (balanced_toString_nat i)
  rw [Node.get?, hsegments, Node.follow?_singleton _ (isBlank_elementSegment i), Node.child?,
    index?_elementSegment hi, Option.bind_some]

theorem Built.get?_element (h : p.Built) {root : Node} {items : List Node}
    (hp : root.get? p = some (.list items)) {i : Nat} (hi : i < 0x10000000000000000) :
    root.get? (p.element i) = items[i]? := by
  rw [element_eq, appendText, get?_append h (.parse _ _), hp, Option.bind_some,
    get?_bracketed _ _ hi]

/-- **Addresses are relative.**  However two paths were built, with whatever separators, resolving
their join is resolving one below what the other leads to, and there is nothing if either step finds
nothing.  So a path leads where its first segments lead and from there the others.  An index, which
is below 2^64, in brackets behind the path of a list leads to the item. -/
theorem relative_addresses (hp : p.Built) (hq : q.Built) (root : Node) :
    root.get? (p ++ q) = (root.get? p).bind (·.get? q) ∧
    (∀ k, k ≤ p.size → ∃ rest, p.drop k = .ok rest ∧
      root.get? p = (root.get? (p.take k)).bind (·.get? rest)) ∧
    ∀ items, root.get? p = some (.list items) →
      ∀ (i : Nat) (hi : i < items.length), i < 0x10000000000000000 →
        root.get? (p.element i) = some items[i] ∧
        ∀ separator, root.get? (p ++ parseWith separator ("[" ++ toString i ++ "]")) =
          some items[i] := by
  refine ⟨get?_append hp hq root, ?_, ?_⟩
  · intro k hk
    refine ⟨p.window k p.size, slice_eq_ok_iff.2 ⟨hk, Nat.le_refl _, rfl⟩, ?_⟩
    have hwhole : p.window 0 p.size = p := if_pos ⟨rfl, rfl⟩
    have hfirst : p.take k = p.window 0 k := by rw [take, Nat.min_eq_left hk]
    have hparts := get?_window (Nat.zero_le k) hk (Nat.le_refl p.size) root
    rw [hwhole] at hparts
    rw [hfirst, ← hparts]
  · intro items hitems i hi hindex
    have hitem : items[i]? = some items[i] := List.getElem?_eq_getElem hi
    refine ⟨?_, fun separator => ?_⟩
    · rw [hp.get?_element hitems hindex, hitem]
    · rw [get?_append hp (.parse _ _), hitems, Option.bind_some, get?_bracketed _ _ hindex, hitem]

end Path

namespace Sample

def depot : Node :=
  .ofEntries [("a.b", .list [.null, .ofEntries [("x/", .list [.int 7, .text "t"])]])]

def crate : Path := Path.parse "[a.b][1]"

theorem crate_built : crate.Built := .parse '.' "[a.b][1]"

def opened : Path := (Path.parse "z" ++ Path.parseWith '/' "[x/").window 1 2

theorem opened_built : opened.Built :=
  .window (.append (.parse '.' "z") (.parse '/' "[x/")) (by decide) (by decide)

/-- A corrupted part, made with another separator, leads on to a list, whose items are behind it. -/
theorem crate_opened : (crate.Built ∧ opened.Built) ∧ opened.isCorrupted = true ∧
    depot.get? (crate ++ opened) = some (.list [.int 7, .text "t"]) ∧
    (∃ rest, (crate ++ opened).drop 2 = .ok rest ∧
      (depot.get? ((crate ++ opened).take 2)).bind (·.get? rest) =
        some (.list [.int 7, .text "t"])) ∧
    depot.get? ((crate ++ opened).element 1) = some (.text "t") := by
  have hwhole : depot.get? (crate ++ opened) = some (.list [.int 7, .text "t"]) := by
    rw [(Path.relative_addresses crate_built opened_built depot).1]
    rfl
  have hjoined := Path.relative_addresses (.append crate_built opened_built) opened_built depot
  obtain ⟨rest, hrest, hparts⟩ := hjoined.2.1 2 (by decide)
  refine ⟨⟨crate_built, opened_built⟩, by decide, hwhole, ⟨rest, hrest, ?_⟩, ?_⟩
  · rw [← hparts, hwhole]
  · exact (hjoined.2.2 _ hwhole 1 (by decide) (by decide)).1

end Sample

end ConfigBind
