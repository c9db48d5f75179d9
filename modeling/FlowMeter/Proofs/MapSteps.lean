import FlowMeter.Proofs.HooksSteps
import Mathlib.Logic.Function.Basic
/-!
# Packets beside readings of the map

A packet calls the map twice, to look its flow up and to write it, and in between the map goes on: packets come to other processors,
and from outside the flows are read one by one and removed one by one, where each removal may be refused.  `MapRun.step` is one
step of any of these, and `MapRun.follow` any succession of them.  With nothing in between, the two calls of a packet are
`Classifier.observe` (`MapRun.follow_packet`), and a reading is `FlowMap.evict` (`MapRun.follow_call`).
-/
namespace FlowMeter.Kernel

open FlowMeter.Flow (weigh)
open Agent (Row)

/-- What one call has read, with the flows that could not be removed. -/
structure Harvest where
  rows : List Row
  stuck : List Flow.Id

namespace Harvest

def views (h : Harvest) : List Flow.Snapshot := Flow.splitRows h.rows

/-- The packets of a flow that the call has returned. -/
def shown (id : Flow.Id) (h : Harvest) : Nat := weigh (fun m => m.packets.toNat) id h.views.flatten

def reads (id : Flow.Id) (h : Harvest) : Bool := id ∈ h.rows.map Prod.fst

end Harvest

/-- How far a call has come: all flows that were read, those that could not be removed, and those that were not tried. -/
inductive Stage where
  | resting
  | reading (rows : List Row)
  | removing (rows : List Row) (stuck : List Flow.Id) (left : List Row)

def Stage.rows : Stage → List Row
  | resting => []
  | reading rows => rows
  | removing rows _ _ => rows

/-- A packet between its two calls. -/
structure Errand where
  write : Classifier.Write
  /-- The flow was removed after it had counted the packet. -/
  late : Bool := false

namespace Errand

/-- The packets of a flow in a value that is still in its slot. -/
def held (id : Flow.Id) : Errand → Nat
  | { write := .back k value, late := false } => if k = id then value.packets.toNat else 0
  | _ => 0

/-- The packets of a flow that come back with a value whose slot is gone. -/
def revived (id : Flow.Id) : Errand → Nat
  | { write := .back k value, late := true } => if k = id then value.packets.toNat else 0
  | _ => 0

/-- The packets of a flow that are counted only when they are written. -/
def first (id : Flow.Id) : Errand → Nat
  | { write := .fresh k _, late := _ } => if k = id then 1 else 0
  | _ => 0

/-- After the removal of a flow. -/
def without (id : Flow.Id) : Errand → Errand
  | { write := .back k value, late } => { write := .back k value, late := late || k = id }
  | e => e

end Errand

inductive MapStep where
  /-- A packet comes to a processor that has nothing to write. -/
  | arrive (cpu : Nat) (now : UInt64) (p : Packet)
  /-- A processor writes; the map may refuse it. -/
  | write (cpu : Nat) (refusal : Option Refusal)
  | begin
  | read (id : Flow.Id)
  | breakOff
  | turn
  | remove (refused : Bool)
  | deliver

structure MapRun where
  kernel : Classifier
  /-- What the processors have to write, one packet each. -/
  errands : Nat → Option Errand := fun _ => none
  stage : Stage := .resting
  /-- What the calls have returned, newest first. -/
  harvests : List Harvest := []
  /-- The packets of a flow that were counted, in place or as the first one of their flow. -/
  counted : Flow.Id → Nat := fun _ => 0
  /-- The packets of a flow that were written back after the flow had been removed. -/
  revived : Flow.Id → Nat := fun _ => 0

namespace MapRun

/-- A map that is loaded, with no flow in it. -/
def start (settings : MeterSettings) (draws : List UInt32) (cpus capacity slots : Nat) : MapRun where
  kernel := { settings, map := { cpus, capacity }, ring := { slots }, draws }

def withMap (t : MapRun) (map : FlowMap) : MapRun := { t with kernel := { t.kernel with map } }

def arrive (t : MapRun) (cpu : Nat) (now : UInt64) (p : Packet) : MapRun :=
  if cpu < t.kernel.map.cpus ∧ (t.errands cpu).isNone then
    let (kernel, write) := t.kernel.arrive cpu now p
    { t with
      kernel
      errands := Function.update t.errands cpu (write.map fun write => { write })
      counted := fun id => t.counted id + (write.map fun w => if w.inPlace ∧ w.id = id then 1 else 0).getD 0 }
  else t

def write (t : MapRun) (cpu : Nat) (refusal : Option Refusal) : MapRun :=
  match t.errands cpu with
  | none => t
  | some e =>
    let written :=
      { t with
        kernel := (t.kernel.write cpu refusal e.write).1
        errands := Function.update t.errands cpu none }
    if (t.kernel.map.insert cpu refusal e.write.id {}).isOk then
      { written with
        counted := fun id => t.counted id + e.first id
        revived := fun id => t.revived id + e.revived id }
    else written

/-- A flow is removed, and what processors have still to write of it comes too late. -/
def delete (t : MapRun) (id : Flow.Id) : MapRun :=
  { t.withMap (t.kernel.map.delete id) with
    errands := fun cpu => (t.errands cpu).map (Errand.without id) }

def step (t : MapRun) : MapStep → MapRun
  | .arrive cpu now p => t.arrive cpu now p
  | .write cpu refusal => t.write cpu refusal
  | .begin =>
    match t.stage with
    | .resting => { t with stage := .reading [] }
    | _ => t
  | .read id =>
    match t.stage, t.kernel.map.rows.get? id with
    | .reading rows, some row => if id ∈ rows.map Prod.fst then t else { t with stage := .reading (rows ++ [(id, row)]) }
    | _, _ => t
  | .breakOff =>
    match t.stage with
    | .reading _ => { t with stage := .resting }
    | _ => t
  | .turn =>
    match t.stage with
    | .reading rows => { t with stage := .removing rows [] rows }
    | _ => t
  | .remove refused =>
    match t.stage with
    | .removing rows stuck (row :: left) =>
      if refused then { t with stage := .removing rows (stuck ++ [row.1]) left }
      else { t.delete row.1 with stage := .removing rows stuck left }
    | _ => t
  | .deliver =>
    match t.stage with
    | .removing rows stuck [] => { t with stage := .resting, harvests := { rows, stuck } :: t.harvests }
    | _ => t

def follow (t : MapRun) (steps : List MapStep) : MapRun := steps.foldl step t

theorem follow_append (t : MapRun) (steps more : List MapStep) : t.follow (steps ++ more) = (t.follow steps).follow more := by
  unfold follow
  exact List.foldl_append

theorem follow_cons (t : MapRun) (s : MapStep) (steps : List MapStep) : t.follow (s :: steps) = (t.step s).follow steps := rfl

theorem follow_reads : ∀ (todo : List Row) {t : MapRun} {rows : List Row}, t.stage = .reading rows →
    t.kernel.map.entries = rows ++ todo →
    t.follow (todo.map fun e => .read e.1) = { t with stage := .reading (rows ++ todo) }
  | [], t, rows, hstage, _ => by
    rw [List.append_nil, ← hstage]
    rfl
  | e :: todo, t, rows, hstage, hentries => by
    have hrow : t.kernel.map.rows.get? e.1 = some e.2 := by
      rw [Table.get?_eq_some_iff]
      show e ∈ t.kernel.map.entries
      rw [hentries]
      exact List.mem_append_right _ List.mem_cons_self
    have hfresh : e.1 ∉ rows.map Prod.fst := by
      have hdistinct := t.kernel.map.rows.distinct
      rw [show t.kernel.map.rows.entries = rows ++ e :: todo from hentries, List.map_append, List.nodup_append] at hdistinct
      exact fun hmem => hdistinct.2.2 e.1 hmem e.1 List.mem_cons_self rfl
    have hstep : t.step (.read e.1) = { t with stage := .reading (rows ++ [e]) } := by
      rw [step, hstage]
      simp only [hrow, hfresh, if_false]
    rw [List.map_cons, follow_cons, hstep, follow_reads todo rfl (by rw [List.append_assoc]; exact hentries), List.append_assoc]
    rfl

/-- **A packet with nothing between its two calls is observed as a whole.** -/
theorem follow_packet {t : MapRun} {cpu : Nat} (hcpu : cpu < t.kernel.map.cpus) (hidle : t.errands cpu = none) (now : UInt64)
    (refusal : Option Refusal) (p : Packet) :
    (t.follow [.arrive cpu now p, .write cpu refusal]).kernel = (t.kernel.observe cpu now refusal p).1 := by
  show ((t.arrive cpu now p).write cpu refusal).kernel = _
  rw [arrive, if_pos ⟨hcpu, by rw [hidle]; rfl⟩, Classifier.observe]
  rcases t.kernel.arrive cpu now p with ⟨kernel, _ | w⟩
  · simp [write]
  · simp only [write, Option.map_some, Function.update_self]
    split <;> rfl

/-- The map without the flows that were tried, but for those that could not be removed. -/
def without (m : FlowMap) (keeps : Flow.Id → Bool) (tried : List Row) : FlowMap :=
  { m with rows := m.rows.filter fun id _ => keeps id || !tried.any fun e => e.1 = id }

theorem without_cons_kept (m : FlowMap) {keeps : Flow.Id → Bool} {e : Row} (left : List Row) (hkeeps : keeps e.1 = true) :
    without m keeps (e :: left) = without m keeps left := by
  unfold without
  congr 1
  refine Table.ext (List.filter_congr fun r _ => ?_)
  show (keeps r.1 || !(e :: left).any fun e => e.1 = r.1) = (keeps r.1 || !left.any fun e => e.1 = r.1)
  by_cases hr : e.1 = r.1
  · rw [← hr, hkeeps, Bool.true_or, Bool.true_or]
  · rw [List.any_cons, decide_eq_false hr, Bool.false_or]

theorem without_cons_removed (m : FlowMap) {keeps : Flow.Id → Bool} {e : Row} (left : List Row) (hkeeps : keeps e.1 = false) :
    without m keeps (e :: left) = without (m.delete e.1) keeps left := by
  unfold without FlowMap.delete
  congr 1
  refine Table.ext ?_
  show List.filter _ _ = List.filter _ (List.filter _ _)
  rw [List.filter_filter]
  refine List.filter_congr fun r _ => ?_
  by_cases hr : e.1 = r.1
  · simp [← hr, hkeeps]
  · simp [hr, Ne.symm hr]

theorem delete_of_idle {t : MapRun} (hidle : t.errands = fun _ => none) (id : Flow.Id) :
    t.delete id = t.withMap (t.kernel.map.delete id) := by
  unfold delete
  rw [hidle]
  exact congrArg (fun errands => { t.withMap (t.kernel.map.delete id) with errands }) hidle.symm

theorem follow_removes (keeps : Flow.Id → Bool) : ∀ (left : List Row) {t : MapRun} {rows : List Row} {stuck : List Flow.Id},
    (t.errands = fun _ => none) → t.stage = .removing rows stuck left →
    t.follow (left.map fun e => .remove (keeps e.1)) =
      { t.withMap (without t.kernel.map keeps left) with
        stage := .removing rows (stuck ++ (left.filter fun e => keeps e.1).map Prod.fst) [] }
  | [], t, rows, stuck, _, hstage => by
    have hall : without t.kernel.map keeps [] = t.kernel.map := by
      unfold without
      congr 1
      exact Table.ext (List.filter_eq_self.2 fun e _ => Bool.or_true _)
    rw [hall]
    show t = ({ t with stage := .removing rows (stuck ++ []) [] } : MapRun)
    rw [List.append_nil, ← hstage]
  | e :: left, t, rows, stuck, hidle, hstage => by
    rw [List.map_cons, follow_cons]
    cases hkeeps : keeps e.1 with
    | true =>
      have hstep : t.step (.remove true) = { t with stage := .removing rows (stuck ++ [e.1]) left } := by
        rw [step, hstage]
        rfl
      have hfilter : ((e :: left).filter fun e => keeps e.1) = e :: left.filter fun e => keeps e.1 := List.filter_cons_of_pos hkeeps
      have hrest := follow_removes keeps left (t := { t with stage := .removing rows (stuck ++ [e.1]) left }) hidle rfl
      rw [hstep, hrest, without_cons_kept _ left hkeeps, hfilter, List.append_assoc]
      rfl
    | false =>
      have hstep : t.step (.remove false) = { t.withMap (t.kernel.map.delete e.1) with stage := .removing rows stuck left } := by
        rw [step, hstage, ← delete_of_idle hidle]
        rfl
      have hfilter : ((e :: left).filter fun e => keeps e.1) = left.filter fun e => keeps e.1 :=
        List.filter_cons_of_neg (Bool.eq_false_iff.1 hkeeps)
      have hrest := follow_removes keeps left (t := { t.withMap (t.kernel.map.delete e.1) with stage := .removing rows stuck left })
        hidle rfl
      rw [hstep, hrest, without_cons_removed _ left hkeeps, hfilter]
      rfl

/-- The steps of a call that nothing comes between. -/
def call (m : FlowMap) (faults : ReadFaults) : List MapStep :=
  .begin :: ((m.entries.map fun e => .read e.1) ++ .turn :: ((m.entries.map fun e => .remove (faults.keeps e.1)) ++ [.deliver]))

/-- **A call with nothing in between is an eviction of the map.** -/
theorem follow_call {t : MapRun} {faults : ReadFaults} (hidle : t.errands = fun _ => none) (hstage : t.stage = .resting)
    (hwalks : t.kernel.map.walks faults = true) :
    ∃ h : Harvest, (t.kernel.map.evict faults).2.outcome = .ok h.views ∧
      t.follow (call t.kernel.map faults) = { t.withMap (t.kernel.map.evict faults).1 with harvests := h :: t.harvests } := by
  obtain ⟨k, errands, stage, harvests, counted, revived⟩ := t
  obtain rfl : stage = .resting := hstage
  have hevict : k.map.evict faults = (without k.map faults.keeps k.map.entries, (k.map.evict faults).2) := by
    unfold FlowMap.evict without
    rw [if_pos hwalks]
    refine congrArg (fun rows => (({ k.map with rows } : FlowMap), _)) (Table.ext (List.filter_congr fun e he => ?_))
    have htried : (k.map.entries.any fun r => decide (r.1 = e.1)) = true := List.any_eq_true.2 ⟨e, he, decide_eq_true rfl⟩
    show faults.keeps e.1 = (faults.keeps e.1 || !k.map.entries.any fun r => decide (r.1 = e.1))
    rw [htried, Bool.not_true, Bool.or_false]
  have hshards : (k.map.evict faults).2.outcome = .ok (Flow.splitRows k.map.entries) := by
    unfold FlowMap.evict
    rw [if_pos hwalks]
  refine ⟨{ rows := k.map.entries, stuck := (k.map.entries.filter fun e => faults.keeps e.1).map Prod.fst }, hshards, ?_⟩
  let at_ (stage : Stage) : MapRun := ⟨k, errands, stage, harvests, counted, revived⟩
  have hreads := follow_reads k.map.entries (t := at_ (.reading [])) rfl rfl
  have hremoves := follow_removes faults.keeps k.map.entries (t := at_ (.removing k.map.entries [] k.map.entries)) hidle rfl
  have hturn : (at_ (.reading k.map.entries)).step .turn = at_ (.removing k.map.entries [] k.map.entries) := rfl
  unfold call
  rw [follow_cons, follow_append]
  refine (congrArg (fun t : MapRun => t.follow _) hreads).trans ?_
  rw [List.nil_append, follow_cons]
  refine (congrArg (fun t : MapRun => t.follow _) hturn).trans ?_
  rw [follow_append, hremoves, hevict]
  rfl

end MapRun
end FlowMeter.Kernel
