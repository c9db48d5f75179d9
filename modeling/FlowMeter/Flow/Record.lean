import FlowMeter.Flow.Id
import FlowMeter.Flow.Metrics
/-!
# Flow records

A flow with its metrics, as it travels when no shard keeps it.  The image is the identity's followed by the metrics'
(97 octets); a longer string is read by its start.  Main lemmas: `Record.ofOctets?_eq_none_iff`,
`Record.ofOctets?_toOctets_append`.
-/
namespace FlowMeter.Flow

structure Record where
  id : Id := {}
  metrics : Metrics := {}
  deriving DecidableEq, Repr, Inhabited

namespace Record

open Layout in
def layout : Layout Record :=
  (seq Id.layout Metrics.layout).rename (fun (id, metrics) => { id, metrics }) (fun r => (r.id, r.metrics))
    (fun _ => rfl) (fun _ => rfl)

def toOctets (r : Record) : Octets := layout.encode r

def ofOctets? (s : Octets) : Option Record := layout.read? s

theorem size_layout : layout.size = 97 := rfl

theorem length_toOctets (r : Record) : r.toOctets.length = 97 := layout.length_encode r

theorem ofOctets?_eq_none_iff (s : Octets) : ofOctets? s = none ↔ s.length < 97 := by
  have := Layout.readAt?_eq_none_iff layout s 0
  rwa [Nat.zero_add, size_layout] at this

theorem ofOctets?_toOctets_append (r : Record) (after : Octets) : ofOctets? (r.toOctets ++ after) = some r :=
  Layout.read?_encode_append ..

theorem ofOctets?_toOctets (r : Record) : ofOctets? r.toOctets = some r := by
  have := ofOctets?_toOctets_append r []
  rwa [List.append_nil] at this

end Record
end FlowMeter.Flow
