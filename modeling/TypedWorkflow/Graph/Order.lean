import TypedWorkflow.Workflow.Basic

/-!
# Topological order of links

Nodes are ordered so that every link leads forward. A depth-first walk over the links marks the
nodes that it has discovered and those that it has finished; the reverse of the finishing order is
the order. If there is a cycle, a second walk against the links, from each node in that order,
reaches more than one new node, and the second of them is reported.

## Main definitions

* `Digraph`: ids and links, the links of a node newest first.
* `Digraph.walk`: the depth-first walk, by steps.
* `Digraph.order`: the order of the ids, or a node on a cycle.
-/

namespace TypedWorkflow

/-- Ids of nodes and links between them. -/
structure Digraph where
  ids : List String
  links : List Link

namespace Digraph

/-- The links into a node, newest first. -/
def linksInto (g : Digraph) (id : String) : List Link :=
  g.links.reverse.filter fun l => l.targetId == id

/-- The links out of a node, newest first. -/
def linksOutOf (g : Digraph) (id : String) : List Link :=
  g.links.reverse.filter fun l => l.sourceId == id

/-- The sources of the links into a node, newest first. -/
def sourcesOf (g : Digraph) (id : String) : List String :=
  (g.linksInto id).map Link.sourceId

/-- The targets of the links out of a node, newest first. -/
def targetsOf (g : Digraph) (id : String) : List String :=
  (g.linksOutOf id).map Link.targetId

/-- Whether a node links to itself. -/
def linksToItself (g : Digraph) (id : String) : Bool :=
  (g.targetsOf id).contains id

/-! ## Walking along the links -/

/-- The state of a walk: the nodes discovered, the nodes finished, the latest first, and the nodes
still to be looked at, the next first. -/
structure Walk where
  discovered : List String
  finished : List String
  stack : List String

/-- One step of a walk looks at the next node. A new node is discovered, and its undiscovered
targets are to be looked at before it is looked at again; at the second look it is finished. A node
that links to itself ends the walk. -/
def step (g : Digraph) (w : Walk) : Except String Walk :=
  match w.stack with
  | [] => .ok w
  | id :: rest =>
    if !w.discovered.contains id then
      if g.linksToItself id then .error id
      else
        let discovered := id :: w.discovered
        let next := (g.targetsOf id).filter fun t => !discovered.contains t
        .ok { w with discovered, stack := next.reverse ++ w.stack }
    else if w.finished.contains id then .ok { w with stack := rest }
    else .ok { w with finished := id :: w.finished, stack := rest }

/-- Steps until nothing is left to be looked at. Every step either discovers a node or takes one
off, so `fuel` steps are enough if there are that many nodes and links. -/
def walk (g : Digraph) : Nat → Walk → Except String Walk
  | 0, w => .ok w
  | fuel + 1, w =>
    match w.stack with
    | [] => .ok w
    | _ => do g.walk fuel (← g.step w)

/-- An upper bound for the steps of a walk from one node. -/
def walkBound (g : Digraph) : Nat :=
  2 * g.ids.length + g.links.length + 1

/-- Walks from every node in order that is not discovered before. -/
def walkAll (g : Digraph) (w : Walk) : List String → Except String Walk
  | [] => .ok w
  | id :: ids =>
    if w.discovered.contains id then g.walkAll w ids
    else do g.walkAll (← g.walk g.walkBound { w with stack := [id] }) ids

/-! ## Walking against the links -/

/-- A walk against the links from the nodes on the stack: the nodes newly reached, in order, and
all nodes reached. -/
def reach (g : Digraph) : Nat → List String → List String → List String × List String
  | 0, reached, _ => ([], reached)
  | _, reached, [] => ([], reached)
  | fuel + 1, reached, id :: stack =>
    if reached.contains id then g.reach fuel reached stack
    else
      let reached := id :: reached
      let next := (g.sourcesOf id).filter fun s => !reached.contains s
      let (found, all) := g.reach fuel reached (next.reverse ++ stack)
      (id :: found, all)

/-- The second node that one walk against the links newly reaches, the walks starting at the given
nodes in order. -/
def cycleNode? (g : Digraph) (reached : List String) : List String → Option String
  | [] => none
  | id :: ids =>
    match g.reach g.walkBound reached [id] with
    | (_ :: second :: _, _) => some second
    | (_, reached) => g.cycleNode? reached ids

/-! ## The order -/

/-- The ids in an order in which every link leads forward; the error is a node on a cycle. -/
def order (g : Digraph) : Except String (List String) := do
  let w ← g.walkAll ⟨[], [], []⟩ g.ids
  match g.cycleNode? [] w.finished with
  | some id => .error id
  | none => return w.finished

end Digraph

end TypedWorkflow
