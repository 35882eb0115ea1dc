/-
The build order of a graph. Every node has a counter of the edges it still
waits for, and the nodes that wait for nothing stand in a queue. At every
step the earliest declared node of the queue goes next and releases its
dependents, which join the queue when their counters reach zero. A
`Progress` is what is known between two steps; `Graph.finish` takes steps
until the queue is empty.

If nodes are left over that all wait for another, a walk from the first of
them back along edges must meet itself, and the part of the walk between the
two visits is reported as a cycle.
-/
import PartPlan.Graph.Basic

namespace PartPlan

-- =========================================================== scheduling

/-- How far scheduling has come. -/
structure Progress where
  /-- The nodes scheduled so far, in their order. -/
  scheduled : List String
  /-- The queue: nodes that wait for nothing and are not scheduled. -/
  ready : List String
  /-- For each node the number of edges it waits for. -/
  counters : SortedMap Nat
  deriving DecidableEq, Repr

namespace Progress

/-- How many edges a node waits for. -/
def waits (p : Progress) (id : String) : Nat := (p.counters.find? id).getD 0

/-- One edge less for a node to wait for. After its last one it is ready. -/
def release (p : Progress) (id : String) : Progress :=
  match p.waits id with
  | 0 => p
  | n + 1 => { p with
      ready := if n = 0 then id :: p.ready else p.ready
      counters := p.counters.insert id n }

/-- A node moved from the queue to the schedule. -/
def take (p : Progress) (id : String) : Progress :=
  { p with scheduled := p.scheduled ++ [id], ready := p.ready.erase id }

/-- What pays for the steps to come: each takes one node from the queue, and
a node only joins the queue when its counter drops. -/
def load (p : Progress) : Nat := p.ready.length + p.counters.total

/-- A release that counts needs a counter to count down. -/
theorem find?_counters {p : Progress} {id : String} {n : Nat} (h : p.waits id = n + 1) :
    p.counters.find? id = some (n + 1) := by
  unfold waits at h
  cases found : p.counters.find? id with
  | none => rw [found] at h; cases h
  | some m => rw [found] at h; rw [← h]; rfl

/-- A release adds nothing to the load. -/
theorem load_release_le (p : Progress) (id : String) : (p.release id).load ≤ p.load := by
  unfold release
  split
  · exact Nat.le_refl _
  · next n h =>
    have paid := SortedMap.total_insert (v := n) (find?_counters h)
    simp only [load]
    split
    · simp only [List.length_cons]
      omega
    · omega

theorem load_foldl_release_le (ids : List String) (p : Progress) :
    (ids.foldl release p).load ≤ p.load := by
  induction ids generalizing p with
  | nil => exact Nat.le_refl _
  | cons id ids ih => exact Nat.le_trans (ih _) (load_release_le p id)

/-- A node that leaves the queue makes the load smaller. -/
theorem load_take_lt {p : Progress} {id : String} (h : id ∈ p.ready) : (p.take id).load < p.load := by
  have shorter := List.length_erase_of_mem h
  have := List.length_pos_of_mem h
  simp only [load, take]
  omega

end Progress

namespace Graph

/-- How many edges lead into a node. -/
def indegree (g : Graph) (id : String) : Nat := g.edges.countP (·.dependent == id)

/-- What is known before the first step. -/
def start (g : Graph) : Progress where
  scheduled := []
  ready := g.nodes.filter fun id => g.indegree id == 0
  counters := .ofList (g.nodes.map fun id => (id, g.indegree id))

/-- The node that goes next: the earliest declared one of the queue. -/
def next? (g : Graph) (p : Progress) : Option String := g.nodes.find? fun id => p.ready.contains id

/-- What is known once a node is scheduled and has released its dependents. -/
def schedule (g : Graph) (p : Progress) (id : String) : Progress :=
  (g.dependentsOf id).foldl Progress.release (p.take id)

theorem mem_ready_of_next? {g : Graph} {p : Progress} {id : String} (h : g.next? p = some id) :
    id ∈ p.ready := by
  have queued := List.find?_some h
  simpa using queued

/-- A step makes the load smaller. -/
theorem load_schedule_lt {g : Graph} {p : Progress} {id : String} (h : g.next? p = some id) :
    (g.schedule p id).load < p.load :=
  Nat.lt_of_le_of_lt (Progress.load_foldl_release_le _ _)
    (Progress.load_take_lt (mem_ready_of_next? h))

/-- Steps until the queue is empty. -/
def finish (g : Graph) (p : Progress) : Progress :=
  match _ : g.next? p with
  | none => p
  | some id => g.finish (g.schedule p id)
termination_by p.load
decreasing_by exact load_schedule_lt ‹_›

-- =============================================================== cycles

/-- The earliest declared of the given nodes that `id` waits for. -/
def predecessor? (g : Graph) (among : List String) (id : String) : Option String :=
  among.find? fun d => g.edges.contains ⟨d, id⟩

/-- A walk back along predecessors, `path` holding the visited nodes, last
first, and `unvisited` the others. It ends at a node met before, with the
nodes since that visit, each of which depends on the one before it. -/
def walkBack (g : Graph) (among unvisited path : List String) (current : String) : List String :=
  if current ∈ unvisited then
    match g.predecessor? among current with
    | some d => walkBack g among (unvisited.erase current) (current :: path) d
    | none => (current :: path).reverse
  else path.takeWhile (· ≠ current) ++ [current]
termination_by unvisited.length
decreasing_by
  rename_i member
  have := List.length_erase_of_mem member
  have := List.length_pos_of_mem member
  omega

/-- A cycle among nodes that all wait for another. -/
def cycleAmong (g : Graph) : List String → List String
  | [] => []
  | first :: rest => walkBack g (first :: rest) (first :: rest) [] first

-- =============================================================== orders

/-- The first id that stands in a list a second time. -/
def repeated? (seen : List String) : List String → Option String
  | [] => none
  | id :: rest => if id ∈ seen then some id else repeated? (id :: seen) rest

/-- The first edge with an end that is no node. -/
def strayEdge? (g : Graph) : Option Edge :=
  g.edges.find? fun e => !(g.nodes.contains e.dependency && g.nodes.contains e.dependent)

/-- The build order of a graph. -/
def order (g : Graph) : Except GraphError (List String) :=
  match repeated? [] g.nodes with
  | some id => .error (.featureDuplicate id)
  | none =>
    match g.strayEdge? with
    | some e => .error (.edgeUnknown e.dependency e.dependent)
    | none =>
      let p := g.finish g.start
      if p.scheduled.length < g.nodes.length then
        .error (.cycle (g.cycleAmong (g.nodes.filter fun id => 0 < p.waits id)))
      else .ok p.scheduled

end Graph
end PartPlan
