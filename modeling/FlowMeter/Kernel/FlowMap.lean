import FlowMeter.Flow.Merge
import FlowMeter.Logged
/-!
# The map of flows in the kernel

For every flow one value on each processor.  A flow is there for all of them as soon as one has inserted it, with nothing
counted on the others.  From outside the flows are read and removed together (`FlowMap.evict`).  Main lemmas:
`FlowMap.get?_put`, `FlowMap.lookup_put_of_ne`.
-/
namespace FlowMeter.Kernel

/-- The walk over the flows broke off. -/
structure BrokenWalk where
  deriving DecidableEq, Repr

structure ReadFaults where
  /-- The walk breaks off after so many flows. -/
  walk : Option Nat := none
  keeps : Flow.Id → Bool := fun _ => false

structure FlowMap where
  cpus : Nat
  /-- Flows that the map may hold. -/
  capacity : Nat
  rows : Table Flow.Id (List Flow.Metrics) := ∅
  deriving Inhabited

namespace FlowMap

def size (m : FlowMap) : Nat := m.rows.size

/-- The values of a flow that nobody has counted yet. -/
def blankRow (m : FlowMap) : List Flow.Metrics := List.replicate m.cpus {}

/-- The value of a flow on one processor; a flow that is not there has none. -/
def lookup (m : FlowMap) (cpu : Nat) (id : Flow.Id) : Option Flow.Metrics :=
  (m.rows.get? id).bind fun row => row[cpu]?

/-- The map with another value on one processor, the flow being there or not. -/
def put (m : FlowMap) (cpu : Nat) (id : Flow.Id) (v : Flow.Metrics) : FlowMap :=
  { m with rows := m.rows.upsert id fun row => (row.getD m.blankRow).set cpu v }

/-- Writes the value on one processor.  A refusal comes from outside, or because a new flow finds no room. -/
def insert (m : FlowMap) (cpu : Nat) (refusal : Option Refusal) (id : Flow.Id) (v : Flow.Metrics) : Except Refusal FlowMap :=
  match refusal with
  | some r => .error r
  | none => if m.rows.contains id ∨ m.size < m.capacity then .ok (m.put cpu id v) else .error Refusal.full

def delete (m : FlowMap) (id : Flow.Id) : FlowMap := { m with rows := m.rows.erase id }

/-- The map with the values of a flow replaced; values that are missing count nothing, and those of processors that are
not there are left out. -/
def setRow (m : FlowMap) (id : Flow.Id) (row : List Flow.Metrics) : FlowMap :=
  { m with rows := m.rows.insert id ((row ++ m.blankRow).take m.cpus) }

/-- Every flow with its values, in the order in which the map is walked. -/
def entries (m : FlowMap) : List (Flow.Id × List Flow.Metrics) := m.rows.entries

def emptied (m : FlowMap) : FlowMap := { m with rows := ∅ }

def walks (m : FlowMap) (faults : ReadFaults) : Bool := faults.walk.all (m.size < ·)

/-- Reads all flows and removes them one by one, one partial view for each processor.  Nothing is removed before the walk has
come to its end; a flow that cannot be removed is only told. -/
def evict (m : FlowMap) (faults : ReadFaults) : FlowMap × Logged BrokenWalk (List Flow.Snapshot) :=
  if m.walks faults then
    let kept := m.rows.filter fun id _ => faults.keeps id
    let notices := kept.entries.map fun _ => Notice.flowNotDeleted
    ({ m with rows := kept }, { notices, outcome := .ok (Flow.splitRows m.entries) })
  else (m, Logged.fail {})

theorem get?_put (m : FlowMap) (cpu : Nat) (id id' : Flow.Id) (v : Flow.Metrics) :
    (m.put cpu id v).rows.get? id' = if id' = id then some (((m.rows.get? id).getD m.blankRow).set cpu v) else m.rows.get? id' :=
  Table.get?_upsert ..

theorem contains_put (m : FlowMap) (cpu : Nat) (id : Flow.Id) (v : Flow.Metrics) : (m.put cpu id v).rows.contains id = true := by
  simp [Table.contains, get?_put]

theorem lookup_put_of_ne (m : FlowMap) {cpu cpu' : Nat} {id id' : Flow.Id} (v : Flow.Metrics) (h : id' ≠ id) :
    (m.put cpu id v).lookup cpu' id' = m.lookup cpu' id' := by
  simp [lookup, get?_put, h]

/-- Of two values on the same processor, the second one counts. -/
theorem put_put (m : FlowMap) (cpu : Nat) (id : Flow.Id) (v v' : Flow.Metrics) :
    (m.put cpu id v).put cpu id v' = m.put cpu id v' := by
  simp only [put, Table.upsert_upsert, Option.getD_some, List.set_set]

end FlowMap
end FlowMeter.Kernel
