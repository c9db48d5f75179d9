/-!
# Traffic direction

A packet enters or leaves through the interface it was seen at.  Identities carry the direction as a number, which may
come from outside and then mean neither.
-/
namespace FlowMeter

inductive Direction where
  | ingress
  | egress
  deriving DecidableEq, Repr, Inhabited

namespace Direction

def code : Direction → UInt8
  | ingress => 0
  | egress => 1

def ofCode? (n : UInt8) : Option Direction :=
  if n = 0 then some ingress else if n = 1 then some egress else none

def name : Direction → String
  | ingress => "ingress"
  | egress => "egress"

theorem ofCode?_eq_some_iff (n : UInt8) (d : Direction) : ofCode? n = some d ↔ n = d.code := by
  unfold ofCode?
  constructor
  · intro h
    split at h
    · cases h; assumption
    · split at h
      · cases h; assumption
      · cases h
  · rintro rfl
    cases d <;> rfl

end Direction
end FlowMeter
