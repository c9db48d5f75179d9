import FlowMeter.Flow.Record
/-!
# Overflow queues

Records that found no place in a shard wait in a bounded queue, first in, first out, each as its image.  A submission never
waits: it fails when every slot is taken, or when nobody reads any more.
-/
namespace FlowMeter.Overflow

inductive Failure where
  | full
  | closed
  deriving DecidableEq, Repr

def Failure.message : Failure → String
  | .full => "no free slot in the overflow channel"
  | .closed => "overflow channel closed"

structure Queue where
  /-- How many records may wait at a time. -/
  slots : Nat
  /-- The images that wait, oldest first. -/
  waiting : List Octets := []
  closed : Bool := false
  deriving Repr, Inhabited

namespace Queue

/-- An empty queue of at least one slot. -/
def ofSlots (slots : Nat) : Queue where
  slots := max slots 1

/-- An empty queue of as many slots as there are whole records in so many octets. -/
def ofSize (octets : Nat) : Queue := ofSlots (octets / Flow.Record.layout.size)

/-- The queue with a record at its end; a closed queue is reported as such even when it is full. -/
def submit (q : Queue) (r : Flow.Record) : Except Failure Queue :=
  if q.closed then .error .closed
  else if q.waiting.length < q.slots then .ok { q with waiting := q.waiting ++ [r.toOctets] }
  else .error .full

/-- The records that wait. -/
def records (q : Queue) : List Flow.Record := q.waiting.filterMap Flow.Record.ofOctets?

/-- The queue with no record left. -/
def drained (q : Queue) : Queue := { q with waiting := [] }

/-- The oldest record of the images, and the images behind it. -/
def nextOf? : List Octets → Option (Flow.Record × List Octets)
  | [] => none
  | image :: rest =>
    match Flow.Record.ofOctets? image with
    | some r => some (r, rest)
    | none => nextOf? rest

/-- The oldest record, and the queue behind it. -/
def next? (q : Queue) : Option (Flow.Record × Queue) :=
  (nextOf? q.waiting).map fun (r, rest) => (r, { q with waiting := rest })

/-- The queue when its reader has gone, and with it all that waited. -/
def close (q : Queue) : Queue := { q with waiting := [], closed := true }

/-- A queue that takes a record takes its image at the end, and is the same otherwise. -/
theorem eq_of_submit {q q' : Queue} {r : Flow.Record} (h : q.submit r = .ok q') :
    q' = { q with waiting := q.waiting ++ [r.toOctets] } := by
  simp only [submit] at h
  split at h
  · cases h
  · split at h
    · cases h
      rfl
    · cases h

theorem waiting_of_submit {q q' : Queue} {r : Flow.Record} (h : q.submit r = .ok q') :
    q'.waiting = q.waiting ++ [r.toOctets] := by
  rw [eq_of_submit h]

theorem records_of_submit {q q' : Queue} {r : Flow.Record} (h : q.submit r = .ok q') : q'.records = q.records ++ [r] := by
  rw [records, waiting_of_submit h, List.filterMap_append, List.filterMap_cons_some r.ofOctets?_toOctets]
  rfl

theorem filterMap_of_nextOf? : ∀ images : List Octets,
    images.filterMap Flow.Record.ofOctets? =
      match nextOf? images with
      | some (r, rest) => r :: rest.filterMap Flow.Record.ofOctets?
      | none => []
  | [] => rfl
  | image :: rest => by
    rw [nextOf?]
    cases h : Flow.Record.ofOctets? image with
    | some r => rw [List.filterMap_cons_some h]
    | none => rw [List.filterMap_cons_none h, filterMap_of_nextOf? rest]

/-- **The oldest record is the first one that waits.** -/
theorem records_of_next? {q q' : Queue} {r : Flow.Record} (h : q.next? = some (r, q')) : q.records = r :: q'.records := by
  rw [next?] at h
  obtain ⟨⟨r', rest⟩, hnext, he⟩ := Option.map_eq_some_iff.1 h
  cases he
  rw [records, filterMap_of_nextOf?, hnext]
  rfl

end Queue
end FlowMeter.Overflow
