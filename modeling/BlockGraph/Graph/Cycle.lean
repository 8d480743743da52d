import BlockGraph.Graph.Basic
/-!
Cycles found by a depth-first search: each edge back to the path that is being searched closes one.
-/
namespace BlockGraph.Graph

/-- A search under way: the path from the root, innermost first, the edges of each element on it that
are still to be followed, what was ever reached, and the cycles found, latest first. -/
structure Search where
  path : List String
  edges : List (List Connection)
  visited : List String
  cycles : List (List String)

namespace Search

/-- The part of the path from an element on, and that element again. -/
def closing (path : List String) (target : String) : List String :=
  path.reverse.dropWhile (· != target) ++ [target]

/-- Follows one edge, or leaves an element that has none left. -/
def step (g : Graph) (s : Search) : Search :=
  match s.edges with
  | [] => s
  | [] :: outer => { s with path := s.path.drop 1, edges := outer }
  | (c :: rest) :: outer =>
    if s.path.contains c.target then
      { s with edges := rest :: outer, cycles := closing s.path c.target :: s.cycles }
    else if s.visited.contains c.target then { s with edges := rest :: outer }
    else
      { path := c.target :: s.path
        edges := g.outgoing c.target :: rest :: outer
        visited := c.target :: s.visited
        cycles := s.cycles }

/-- Searches until no edge is left. Each step follows an edge or leaves an element, and neither
happens twice for the same one, so the size of the graph bounds the steps. -/
def run (g : Graph) : Nat → Search → Search
  | 0, s => s
  | fuel + 1, s => if s.edges.isEmpty then s else run g fuel (s.step g)

/-- Searches from a root that was not reached before. -/
def fromRoot (g : Graph) (s : Search) (root : String) : Search :=
  if s.visited.contains root then s
  else run g (g.connections.length + g.elements.length)
    { s with path := [root], edges := [g.outgoing root], visited := root :: s.visited }

end Search

/-- Each cycle as a path that starts and ends on the same element, in the order found. -/
def cycles (g : Graph) : List (List String) :=
  (g.elements.foldl (fun s e => s.fromRoot g e.id) ⟨[], [], [], []⟩ : Search).cycles.reverse

end BlockGraph.Graph
