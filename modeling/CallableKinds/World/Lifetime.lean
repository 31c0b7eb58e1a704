import CallableKinds.World

/-!
# Lifetimes

An object is alive while it can be reached from a name or from a source that a tracker has recorded.
Entries of dead callables go from the tables of the trackers, and as the sources in them held other
objects, these may die too; so the dead are looked for again until there are no more.
-/

namespace CallableKinds

namespace Value

/-- The objects among some values. -/
def objects (values : List Value) : List Ref := values.filterMap object?

end Value

namespace Heap

/-- The objects that an object is made of. -/
def parts (h : Heap) (r : Ref) : List Ref :=
  match h.shape r with
  | .cls c => c.bases
  | .instanceOf cls => [cls]
  | .method func receiver => [func, receiver]
  | .partialOf p => p.cls :: p.func :: Value.objects (p.args ++ p.keywords.map (·.2))
  | _ => []

/-- The objects that an object refers to. -/
def references (h : Heap) (r : Ref) : List Ref :=
  h.parts r ++ Value.objects ((h.ownAttributes r).map (·.2))

/-- Of the objects `remaining` those that cannot be reached from the objects `pending` through others
of them. -/
def unreached (h : Heap) (remaining : List Ref) : List Ref → List Ref
  | [] => remaining
  | r :: pending =>
    if remaining.contains r then
      h.unreached (remaining.erase r) (h.references r ++ pending)
    else h.unreached remaining pending
termination_by pending => (remaining.length, pending.length)
decreasing_by
  · rename_i hr
    have hr : r ∈ remaining := by simpa using hr
    have hpos := List.length_pos_of_mem hr
    apply Prod.Lex.left
    rw [List.length_erase_of_mem hr]
    omega
  · apply Prod.Lex.right
    simp

/-- The objects that come after the builtin ones and cannot be reached from some roots. -/
def dead (h : Heap) (roots : List Ref) : List Ref :=
  h.unreached ((List.range h.size).drop Heap.initial.size) roots

end Heap

namespace World

/-- What keeps objects alive: names, and the sources in the tables of the trackers. -/
def roots (w : World) (names : List Ref) : List Ref :=
  names ++ w.trackers.flatMap fun t => t.sources.values

/-- The world after the deaths of all objects that are not alive now. -/
def bury (w : World) (names : List Ref) : World :=
  let dead := w.heap.dead (w.roots names)
  { w with trackers := w.trackers.map fun t => t.prune fun r => !dead.contains r }

/-- The number of entries in the tables of all trackers. -/
def entries (w : World) : Nat :=
  w.trackers.foldr (fun t n => t.sources.entries.length + t.states.entries.length + n) 0

/-- The world after all deaths. They are looked for again as long as entries go, because these may
have held other objects. -/
def settle (w : World) (names : List Ref) : World :=
  let w' := w.bury names
  if w'.entries < w.entries then w'.settle names else w
termination_by w.entries

end World

end CallableKinds
