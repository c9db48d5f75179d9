import FlowMeter.Frame.Recipe
import FlowMeter.Proofs.FlowTimes
import FlowMeter.Proofs.MirroredMeters
/-!
# Direction only labels flows

The same packets go through meters twice, once as they come in and once as they go out.  The runs are the same step by step, but for
the direction in the identities and for connections that only an incoming acknowledgement shows to be established
(`MeterBank.direction_labels`).
-/
namespace FlowMeter

/-- The same step with a packet of the direction. -/
def BankStep.toward (direction : Direction) : BankStep → BankStep
  | process i clock refusal p => process i clock refusal (p.toward direction)
  | evict i => evict i
  | receive => receive
  | drain => drain
  | close => close

theorem BankStep.timesAt_toward (direction : Direction) (i : Nat) (steps : List BankStep) :
    timesAt i (steps.map (toward direction)) = timesAt i steps := by
  unfold timesAt
  rw [List.filterMap_map]
  refine congrArg (List.filterMap · steps) (funext fun s => ?_)
  cases s <;> rfl

section

variable {α β : Type} {E : α → β → Prop} {l : List α} {l' : List β}

/-- Of two related lists, both have an entry at a place, or none has. -/
theorem rel_getElem? (h : List.Forall₂ E l l') (i : Nat) : Option.Rel E l[i]? l'[i]? := by
  induction h generalizing i with
  | nil => exact .none
  | cons he _ ih =>
    cases i with
    | zero => exact .some he
    | succ i => exact ih i

theorem forall₂_set (h : List.Forall₂ E l l') {a : α} {b : β} (hab : E a b) (i : Nat) :
    List.Forall₂ E (l.set i a) (l'.set i b) := by
  induction h generalizing i with
  | nil => exact .nil
  | cons he hrest ih =>
    cases i with
    | zero => exact .cons hab hrest
    | succ i => exact .cons he (ih i)

end

namespace MeterBank

/-- Two runs are alike but for the direction of what they count: the meters and their queues, what became of each packet, and all
that has left the shards. -/
structure Mirrors (t t' : MeterBank) : Prop where
  meters : List.Forall₂ Meter.Mirrors t.meters t'.meters
  queue : t.queue.Mirrors t'.queue
  outcomes : List.Forall₂ Outcome.Mirrors t.outcomes t'.outcomes
  views : List.Forall₂ Flow.Snapshot.Mirrors t.views t'.views
  received : List.Forall₂ (fun r r' => Flow.Mirrors r.entry r'.entry) t.received t'.received

namespace Mirrors

variable {t t' : MeterBank}

theorem start (settings : List (MeterSettings × List UInt32)) (slots : Nat) :
    (MeterBank.start settings slots).Mirrors (MeterBank.start settings slots) where
  meters := List.forall₂_same.2 fun m hm => by
    obtain ⟨s, -, rfl⟩ := List.mem_map.1 hm
    exact ⟨rfl, rfl, rfl, .nil⟩
  queue := ⟨rfl, rfl, .nil⟩
  outcomes := .nil
  views := .nil
  received := .nil

/-- Both runs have the meter, or none has. -/
theorem meter_cases (h : t.Mirrors t') (i : Nat) :
    (t.meters[i]? = none ∧ t'.meters[i]? = none) ∨
      ∃ m m', t.meters[i]? = some m ∧ t'.meters[i]? = some m' ∧ m.Mirrors m' := by
  have hmeter := rel_getElem? h.meters i
  generalize t.meters[i]? = found at hmeter
  generalize t'.meters[i]? = found' at hmeter
  cases hmeter with
  | some hm => exact .inr ⟨_, _, rfl, rfl, hm⟩
  | none => exact .inl ⟨rfl, rfl⟩

theorem process (h : t.Mirrors t') {i : Nat} {clock : Clock} (refusal : Option Refusal) (p : Packet)
    (hclock : ∀ m, t.meters[i]? = some m → clock.now ≠ 0 ∧ ∀ e ∈ m.shard.snapshot, e.2.handshake ≤ clock.now) :
    (t.step (.process i clock refusal (p.toward .ingress))).Mirrors (t'.step (.process i clock refusal (p.toward .egress))) := by
  rcases h.meter_cases i with ⟨hm, hm'⟩ | ⟨m, m', hm, hm', hmirrors⟩
  · rwa [step_process_none hm, step_process_none hm']
  · obtain ⟨hnow, hpast⟩ := hclock m hm
    obtain ⟨hmeter, hqueue, houtcome⟩ := Meter.process_mirrors hmirrors h.queue hnow hpast refusal p
    rw [step_process hm, step_process hm']
    exact ⟨forall₂_set h.meters hmeter i, hqueue, List.rel_append h.outcomes (.cons houtcome .nil), h.views, h.received⟩

theorem evict (h : t.Mirrors t') (i : Nat) : (t.step (.evict i)).Mirrors (t'.step (.evict i)) := by
  rcases h.meter_cases i with ⟨hm, hm'⟩ | ⟨m, m', hm, hm', hmirrors⟩
  · rwa [step_evict_none hm, step_evict_none hm']
  · have hemptied : m.emptied.Mirrors m'.emptied :=
      ⟨hmirrors.settings, hmirrors.draws, hmirrors.shard.capacity, .nil⟩
    rw [step_evict hm, step_evict hm']
    exact ⟨forall₂_set h.meters hemptied i, h.queue, h.outcomes, List.rel_append h.views (.cons hmirrors.shard.flows .nil),
      h.received⟩

theorem receive (h : t.Mirrors t') : (t.step .receive).Mirrors (t'.step .receive) := by
  rcases h.queue.next with ⟨hnext, hnext'⟩ | ⟨record, record', queue, queue', hnext, hnext', hrecord, hqueue⟩
  · rwa [step_receive_none hnext, step_receive_none hnext']
  · rw [step_receive hnext, step_receive hnext']
    exact ⟨h.meters, hqueue, h.outcomes, h.views, List.rel_append h.received (.cons hrecord .nil)⟩

theorem drain (h : t.Mirrors t') : (t.step .drain).Mirrors (t'.step .drain) where
  meters := h.meters
  queue := ⟨h.queue.slots, h.queue.closed, .nil⟩
  outcomes := h.outcomes
  views := h.views
  received := List.rel_append h.received h.queue.records

theorem close (h : t.Mirrors t') : (t.step .close).Mirrors (t'.step .close) where
  meters := h.meters
  queue := ⟨h.queue.slots, rfl, .nil⟩
  outcomes := h.outcomes
  views := h.views
  received := h.received

/-- **Step by step, direction only labels flows.** -/
theorem follow : ∀ (steps : List BankStep) {since : Nat → UInt64} {t t' : MeterBank}, t.Mirrors t' →
    Holds (fun now _ m => m.Ordered ∧ m.stop ≤ now) since t →
    Ticks (· ≤ ·) since t.meters.length (steps.map (BankStep.toward .ingress)) →
    (t.follow (steps.map (BankStep.toward .ingress))).Mirrors (t'.follow (steps.map (BankStep.toward .egress)))
  | [], _, _, _, h, _, _ => h
  | s :: steps, since, t, t', h, hholds, hticks => by
    obtain ⟨since', hholds', hrest⟩ := hholds.step Flow.sustained_ordered hticks
    have hstep : (t.step (s.toward .ingress)).Mirrors (t'.step (s.toward .egress)) := by
      cases s with
      | process i clock refusal p =>
        refine h.process refusal p fun m hm => ?_
        obtain ⟨hi, -⟩ := List.getElem?_eq_some_iff.1 hm
        obtain ⟨hnow, hlater, -⟩ := hticks.process hi
        refine ⟨hnow, fun e he => ?_⟩
        -- a connection that was established has been so since before the packet
        obtain ⟨hordered, hstop⟩ := hholds.kept hm e he
        exact UInt64.le_trans hordered.handshake_le (UInt64.le_trans hstop hlater)
      | evict i => exact h.evict i
      | receive => exact h.receive
      | drain => exact h.drain
      | close => exact h.close
    exact follow steps hstep hholds' hrest

end Mirrors

/-- **Direction only labels flows.**  Meters that take the same packets in and out, by clocks that never show zero or go back, do the
same with them: they keep the same flows, give up the same ones and leave the same records, but for the direction, and but for
connections, which are established no later as the packets come in. -/
theorem direction_labels (settings : List (MeterSettings × List UInt32)) (slots : Nat) (steps : List BankStep)
    (hclock : ∀ i < settings.length, (BankStep.timesAt i steps).Pairwise (· ≤ ·) ∧ 0 ∉ BankStep.timesAt i steps) :
    let t := (start settings slots).follow (steps.map (BankStep.toward .ingress))
    let t' := (start settings slots).follow (steps.map (BankStep.toward .egress))
    t.Mirrors t' ∧ List.Forall₂ (fun r r' => Flow.Mirrors r.entry r'.entry) t.queue.records t'.queue.records := by
  have hticks : Ticks (· ≤ ·) (fun _ => 0) (start settings slots).meters.length (steps.map (BankStep.toward .ingress)) := by
    refine ticks_start slots fun i hi => ?_
    rw [BankStep.timesAt_toward]
    exact hclock i hi
  have hmirrors := (Mirrors.start settings slots).follow steps (Holds.start settings slots _) hticks
  exact ⟨hmirrors, hmirrors.queue.records⟩

/-- A bare acknowledgement establishes the connection as it comes in, and the answered request behind it as it goes out; a datagram
finds no room either way. -/
theorem direction_labels_bare_acknowledgement :
    let packet (ingredient : Frame.Ingredient) : Packet :=
      { frame := (Frame.Recipe.add { src := #v[10, 0, 0, 1], dst := #v[10, 0, 0, 2] } ingredient).frame
        length := 60, interface := 1, direction := .ingress }
    let settings : List (MeterSettings × List UInt32) := [({ capacity := 1 }, [])]
    let steps : List BankStep :=
      [.process 0 ⟨5, 0⟩ none (packet (.tcp 80 999 1 0x10)), .process 0 ⟨9, 0⟩ none (packet (.tcp 80 999 7 0x12)),
        .process 0 ⟨9, 0⟩ none (packet (.udp 53 999)), .evict 0]
    let t := (start settings 2).follow (steps.map (BankStep.toward .ingress))
    let t' := (start settings 2).follow (steps.map (BankStep.toward .egress))
    (∀ i < settings.length, (BankStep.timesAt i steps).Pairwise (· ≤ ·) ∧ 0 ∉ BankStep.timesAt i steps) ∧
      t.views.flatten.map (fun e => e.2.handshake) = [5] ∧ t'.views.flatten.map (fun e => e.2.handshake) = [9] ∧
      t.Mirrors t' ∧ List.Forall₂ (fun r r' => Flow.Mirrors r.entry r'.entry) t.queue.records t'.queue.records := by
  intro packet settings steps t t'
  have hclock : ∀ i < settings.length,
      (BankStep.timesAt i steps).Pairwise (· ≤ ·) ∧ 0 ∉ BankStep.timesAt i steps := by decide +kernel
  exact ⟨hclock, by decide +kernel, by decide +kernel, direction_labels settings 2 steps hclock⟩

end MeterBank
end FlowMeter
