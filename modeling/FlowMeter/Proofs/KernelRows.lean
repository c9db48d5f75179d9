import FlowMeter.Kernel.Classifier
import FlowMeter.Proofs.Metering
/-!
# Flows with a value on every processor

A packet that the kernel counts is in the slot of its processor with all of its volume, whatever becomes of the write, or its
record is in the ring (`Classifier.observe_cases`).  The views that rows are split into hold what the rows held
(`weigh_splitRows`), as long as a slot that shows no packets has counted none.
-/
namespace FlowMeter

open FlowMeter.Flow (weigh Metrics.volume)

namespace Flow

/-- What all processors together have counted of a flow. -/
def rowVolume (row : List Metrics) : Volume := (row.map Metrics.volume).sum

/-- What a row shows of one processor, if it shows any packets. -/
def shown? (unit : Nat) (row : Id × List Metrics) : Option (Id × Metrics) :=
  match row.2[unit]? with
  | some m => if m.packets ≠ 0 then some (row.1, m) else none
  | none => none

/-- A slot that shows no packets has counted none. -/
def Shows (row : List Metrics) : Prop := ∀ m ∈ row, m.packets = 0 → m = {}

section

variable {M : Type} [AddCommMonoid M] {w : Metrics → M}

/-- What a row shows of a processor is its slot, if nothing is measured in a slot that shows no packets. -/
theorem weigh_shown? {row : List Metrics} (h : ∀ m ∈ row, m.packets = 0 → w m = 0) (k id : Id) (unit : Nat) :
    weigh w id (shown? unit (k, row)).toList = if k = id then ((row.map w)[unit]?).getD 0 else 0 := by
  rw [shown?, List.getElem?_map]
  cases hm : row[unit]? with
  | none => simp
  | some m =>
    by_cases hp : m.packets = 0
    · have hblank := h m (List.mem_of_getElem? hm) hp
      simp [hp, hblank]
    · simp [hp]

theorem sum_range_getElem? {M : Type} [AddCommMonoid M] : ∀ (l : List M) {n : Nat}, l.length ≤ n →
    ((List.range n).map fun i => l[i]?.getD 0).sum = l.sum
  | [], n, _ => by simp
  | a :: l, 0, h => by simp at h
  | a :: l, n + 1, h => by
    rw [List.range_succ_eq_map, List.map_cons, List.map_map, List.sum_cons, List.sum_cons]
    congr 1
    exact sum_range_getElem? l (by simpa using h)

/-- **The views that rows are split into hold what the rows held.** -/
theorem weigh_units (id : Id) {n : Nat} : ∀ (rows : List (Id × List Metrics)),
    (∀ e ∈ rows, e.2.length ≤ n ∧ ∀ m ∈ e.2, m.packets = 0 → w m = 0) →
    ((List.range n).map fun unit => weigh w id (rows.filterMap (shown? unit))).sum =
      weigh (fun row => (row.map w).sum) id rows
  | [], _ => by simp
  | (k, row) :: rows, h => by
    obtain ⟨hlength, hshows⟩ := h _ List.mem_cons_self
    have hunit : ∀ unit, weigh w id (((k, row) :: rows).filterMap (shown? unit)) =
        (if k = id then ((row.map w)[unit]?).getD 0 else 0) + weigh w id (rows.filterMap (shown? unit)) := by
      intro unit
      rw [← weigh_shown? hshows, ← weigh_append, List.filterMap_cons]
      cases shown? unit (k, row) <;> rfl
    simp only [hunit, List.sum_map_add, weigh_units id rows fun e he => h e (List.mem_cons_of_mem _ he), weigh_cons]
    congr 1
    by_cases hk : k = id
    · simp only [hk, if_true]
      exact sum_range_getElem? _ (by simpa using hlength)
    · simp [hk]

theorem le_foldl_max : ∀ (rows : List (Id × List Metrics)) (n : Nat),
    n ≤ rows.foldl (fun n row => max n row.2.length) n ∧
      ∀ e ∈ rows, e.2.length ≤ rows.foldl (fun n row => max n row.2.length) n
  | [], n => ⟨Nat.le_refl n, fun e he => by cases he⟩
  | row :: rows, n => by
    obtain ⟨hle, hall⟩ := le_foldl_max rows (max n row.2.length)
    refine ⟨Nat.le_trans (Nat.le_max_left ..) hle, fun e he => ?_⟩
    rcases List.mem_cons.1 he with rfl | he
    · exact Nat.le_trans (Nat.le_max_right ..) hle
    · exact hall e he

theorem weigh_splitRows_of_shown (id : Id) {rows : List (Id × List Metrics)}
    (h : ∀ e ∈ rows, ∀ m ∈ e.2, m.packets = 0 → w m = 0) :
    weigh w id (splitRows rows).flatten = weigh (fun row => (row.map w).sum) id rows := by
  rw [weigh_flatten, ← weigh_units id rows fun e he => ⟨(le_foldl_max rows 0).2 e he, h e he⟩, splitRows, List.map_map]
  rfl

end

/-- **Rows go out whole.** -/
theorem weigh_splitRows (id : Id) {rows : List (Id × List Metrics)} (h : ∀ e ∈ rows, Shows e.2) :
    weigh Metrics.volume id (splitRows rows).flatten = weigh rowVolume id rows := by
  refine weigh_splitRows_of_shown id fun e he m hm hp => ?_
  rw [h e he m hm hp]
  rfl

theorem mem_splitRows {rows : List (Id × List Metrics)} {e : Id × Metrics} (h : e ∈ (splitRows rows).flatten) :
    e.2.packets ≠ 0 ∧ ∃ row, (e.1, row) ∈ rows ∧ e.2 ∈ row := by
  obtain ⟨view, hview, he⟩ := List.mem_flatten.1 h
  obtain ⟨unit, -, rfl⟩ := List.mem_map.1 hview
  obtain ⟨⟨k, row⟩, hrow, hshown⟩ := List.mem_filterMap.1 he
  cases hm : row[unit]? with
  | none => simp [hm] at hshown
  | some m =>
    by_cases hp : m.packets = 0
    · simp [hm, hp] at hshown
    · obtain rfl : (k, m) = e := by simpa [hm, hp] using hshown
      exact ⟨hp, row, hrow, List.mem_of_getElem? hm⟩

end Flow

/-- A slot that has counted so many packets. -/
structure SlotBooks (boot : WallTime) (n : Nat) (m : Flow.Metrics) : Prop where
  packets : m.packets = UInt32.ofNat n
  blank : n = 0 → m = {}
  datable : m = {} ∨ m.Datable boot

/-- A row of a flow, whose slots have counted so many packets. -/
structure RowBooks (boot : WallTime) (cpus : Nat) (tally : Nat → Nat) (row : List Flow.Metrics) : Prop where
  length : row.length = cpus
  slots : ∀ (cpu : Nat) (m : Flow.Metrics), row[cpu]? = some m → SlotBooks boot (tally cpu) m

variable {boot : WallTime} {cpus : Nat}

theorem slotBooks_blank : SlotBooks boot 0 {} := ⟨rfl, fun _ => rfl, .inl rfl⟩

theorem SlotBooks.add {n : Nat} {m : Flow.Metrics} (h : SlotBooks boot n m) {o : Flow.Observation} (ho : Datable boot o.time) :
    SlotBooks boot (n + 1) (m.add o) where
  packets := by
    show m.packets + 1 = _
    rw [h.packets, UInt32.ofNat_add]
    rfl
  blank hn := by omega
  datable := by
    refine .inr ?_
    rcases h.datable with rfl | hm
    · exact ⟨by simpa [Flow.Metrics.add] using ho, ho⟩
    · exact hm.add ho

theorem slotBooks_ofFirst {o : Flow.Observation} (ho : Datable boot o.time) : SlotBooks boot 1 (.ofFirst o) :=
  ⟨rfl, fun h => (by cases h), .inr (Flow.Metrics.datable_ofFirst ho)⟩

theorem rowBooks_blank : RowBooks boot cpus (fun _ => 0) (List.replicate cpus {}) where
  length := List.length_replicate
  slots cpu m hm := by
    rw [List.getElem?_replicate] at hm
    split at hm
    · cases hm
      exact slotBooks_blank
    · cases hm

theorem RowBooks.set {tally : Nat → Nat} {row : List Flow.Metrics} (h : RowBooks boot cpus tally row) {cpu : Nat}
    {m : Flow.Metrics} (hm : SlotBooks boot (tally cpu + 1) m) :
    RowBooks boot cpus (fun i => if i = cpu then tally i + 1 else tally i) (row.set cpu m) where
  length := by rw [List.length_set, h.length]
  slots i v hv := by
    rcases getElem?_set_cases hv with ⟨rfl, rfl⟩ | ⟨hne, hv'⟩
    · rw [if_pos rfl]
      exact hm
    · rw [if_neg (Ne.symm hne)]
      exact h.slots i v hv'

/-- **A row that was read when no slot had counted a positive multiple of all that its counter can show.** -/
theorem RowBooks.shows {tally : Nat → Nat} {row : List Flow.Metrics} (h : RowBooks boot cpus tally row)
    (htally : ∀ cpu < cpus, tally cpu ≠ 0 → tally cpu % UInt32.size ≠ 0) : Flow.Shows row := by
  intro m hm hzero
  obtain ⟨cpu, hcpu⟩ := List.mem_iff_getElem?.1 hm
  have hslot := h.slots cpu m hcpu
  have hlt : cpu < cpus := h.length ▸ (List.getElem?_eq_some_iff.1 hcpu).1
  refine hslot.blank (Classical.byContradiction fun hne => htally cpu hlt hne ?_)
  have hpackets := congrArg UInt32.toNat (hzero.symm.trans hslot.packets)
  rw [UInt32.toNat_ofNat'] at hpackets
  exact hpackets.symm

/-- One packet more in the slot of a flow. -/
def bump (tally : Flow.Id → Nat → Nat) (id : Flow.Id) (cpu : Nat) : Flow.Id → Nat → Nat := fun k i =>
  if k = id ∧ i = cpu then tally k i + 1 else tally k i

namespace Kernel

namespace FlowMap

variable {m : FlowMap} {cpu : Nat} {id : Flow.Id} {v : Flow.Metrics}

theorem lookup_eq_none (hcpu : cpu < m.cpus) (hrows : ∀ row, m.rows.get? id = some row → row.length = m.cpus)
    (h : m.lookup cpu id = none) : m.rows.get? id = none := by
  cases hrow : m.rows.get? id with
  | none => rfl
  | some row =>
    have hlt : cpu < row.length := by rw [hrows row hrow]; exact hcpu
    rw [lookup, hrow, Option.bind_some, List.getElem?_eq_getElem hlt] at h
    cases h

/-- The value of a slot with a packet more, the flow being there or not. -/
def counted (m : FlowMap) (cpu : Nat) (id : Flow.Id) (o : Flow.Observation) : Flow.Metrics :=
  ((m.lookup cpu id).map fun v => v.add o).getD (.ofFirst o)

theorem volume_counted (m : FlowMap) (cpu : Nat) (id : Flow.Id) (o : Flow.Observation) :
    (m.counted cpu id o).volume = ((m.lookup cpu id).map Metrics.volume).getD 0 + (Flow.Metrics.ofFirst o).volume := by
  rw [counted]
  cases m.lookup cpu id with
  | none => exact (zero_add _).symm
  | some v => exact Flow.Metrics.volume_add v o

theorem slotBooks_counted {boot : WallTime} {tally : Flow.Id → Nat → Nat} (hcpu : cpu < m.cpus)
    (hrows : ∀ row, m.rows.get? id = some row → RowBooks boot m.cpus (tally id) row)
    (habsent : m.rows.get? id = none → ∀ i, tally id i = 0) {o : Flow.Observation} (ho : Datable boot o.time) :
    SlotBooks boot (tally id cpu + 1) (m.counted cpu id o) := by
  rw [counted]
  cases hlookup : m.lookup cpu id with
  -- no slot and no tally, so this is the first packet, wherever the flow's other slots are
  | none =>
    rw [habsent (lookup_eq_none hcpu (fun row hrow => (hrows row hrow).length) hlookup) cpu]
    exact slotBooks_ofFirst ho
  | some v =>
    obtain ⟨row, hrow, hv⟩ := Option.bind_eq_some_iff.1 hlookup
    exact ((hrows row hrow).slots cpu v hv).add ho

/-- **Whether a write is refused does not depend on the value.** -/
theorem insert_cases (m : FlowMap) (cpu : Nat) (refusal : Option Refusal) (id : Flow.Id) :
    (∀ v, m.insert cpu refusal id v = .ok (m.put cpu id v)) ∨ ∃ r, ∀ v, m.insert cpu refusal id v = .error r := by
  cases refusal with
  | some r => exact .inr ⟨r, fun _ => rfl⟩
  | none =>
    by_cases h : m.rows.contains id ∨ m.size < m.capacity
    · exact .inl fun v => if_pos h
    · exact .inr ⟨Refusal.full, fun v => if_neg h⟩

/-- **A new value in a slot adds what it is more than the old one.** -/
theorem weigh_put (hcpu : cpu < m.cpus) (hrows : ∀ row, m.rows.get? id = some row → row.length = m.cpus) {x : Flow.Volume}
    (hv : v.volume = ((m.lookup cpu id).map Metrics.volume).getD 0 + x) (id' : Flow.Id) :
    weigh Flow.rowVolume id' (m.put cpu id v).entries =
      weigh Flow.rowVolume id' m.entries + if id = id' then x else 0 := by
  refine Flow.weigh_place id' m.rows.entries (fun row hrow => ?_) (fun hnone => ?_)
  -- the flow is there: only this processor's slot changes
  · have hrow' : m.rows.get? id = some row := hrow
    have hlt : cpu < row.length := by rw [hrows row hrow']; exact hcpu
    have hget := List.getElem?_eq_getElem hlt
    rw [lookup, hrow', Option.bind_some, hget] at hv
    show ((row.set cpu v).map Metrics.volume).sum = _
    rw [List.map_set, hv]
    exact sum_set x (by rw [List.getElem?_map, hget]; rfl)
  -- it is not: the other processors' slots come as blanks, which weigh nothing
  · have hnone' : m.rows.get? id = none := hnone
    rw [lookup, hnone', Option.bind_none, Option.map_none, Option.getD_none, zero_add] at hv
    show ((m.blankRow.set cpu v).map Metrics.volume).sum = x
    have hsum := sum_set x (show (List.replicate m.cpus (0 : Flow.Volume))[cpu]? = some 0 by
      rw [List.getElem?_replicate, if_pos hcpu])
    rw [List.map_set, hv, blankRow, List.map_replicate]
    rw [List.sum_eq_zero fun a ha => (List.mem_replicate.1 ha).2, zero_add] at hsum
    exact hsum

theorem rowBooks_put {boot : WallTime} {tally : Flow.Id → Nat → Nat}
    (hrows : ∀ k row, m.rows.get? k = some row → RowBooks boot m.cpus (tally k) row)
    (habsent : m.rows.get? id = none → ∀ i, tally id i = 0) (hv : SlotBooks boot (tally id cpu + 1) v) (k : Flow.Id)
    (row : List Flow.Metrics) (hrow : (m.put cpu id v).rows.get? k = some row) :
    RowBooks boot m.cpus (bump tally id cpu k) row := by
  rw [get?_put] at hrow
  by_cases hk : k = id
  · subst hk
    rw [if_pos rfl] at hrow
    cases hrow
    have hbump : bump tally k cpu k = fun i => if i = cpu then tally k i + 1 else tally k i := by
      funext i
      simp [bump]
    rw [hbump]
    refine RowBooks.set ?_ hv
    cases hold : m.rows.get? k with
    | some old => exact hrows k old hold
    | none =>
      have hzero : tally k = fun _ => 0 := funext (habsent hold)
      rw [hzero]
      exact rowBooks_blank
  · rw [if_neg hk] at hrow
    have hbump : bump tally id cpu k = tally k := by
      funext i
      simp [bump, hk]
    rw [hbump]
    exact hrows k row hrow

end FlowMap

namespace Classifier

/-- What a packet is classified as, if it counts at all. -/
def flowOf? (k : Classifier) (p : Packet) : Option Classified :=
  if (k.settings.draw k.draws).1 then Classified.ofFrame? p.frame p.direction p.interface else none

/-- What a packet contributes at a time. -/
def observation (p : Packet) (c : Classified) (now : UInt64) : Flow.Observation where
  size := p.length
  time := now
  flags := c.signal.flags
  handshake := c.signal.handshake

theorem share_of_flowOf? {k : Classifier} {p : Packet} {c : Classified} (h : k.flowOf? p = some c) (now : UInt64) (id : Flow.Id) :
    p.share id = if c.id = id then (Flow.Metrics.ofFirst (observation p c now)).volume else 0 := by
  rw [flowOf?] at h
  split at h
  · rw [Packet.share, h]
    rfl
  · cases h

/-- The flow is not there, and the map refuses it. -/
def Spills (k : Classifier) (cpu : Nat) (refusal : Option Refusal) (id : Flow.Id) : Prop :=
  k.map.lookup cpu id = none ∧ (k.map.insert cpu refusal id {}).isOk = false

instance (k : Classifier) (cpu : Nat) (refusal : Option Refusal) (id : Flow.Id) : Decidable (k.Spills cpu refusal id) :=
  inferInstanceAs (Decidable (_ ∧ _))

/-- **The first call changes the draws, and the slot of a flow that is there.** -/
theorem arrive_cases (k : Classifier) (cpu : Nat) (now : UInt64) (p : Packet) :
    (k.flowOf? p = none ∧ k.arrive cpu now p = ({ k with draws := (k.settings.draw k.draws).2 }, none)) ∨
      ∃ c, k.flowOf? p = some c ∧
        ((∃ m, k.map.lookup cpu c.id = some m ∧
            k.arrive cpu now p =
              ({ k with
                  draws := (k.settings.draw k.draws).2
                  map := k.map.put cpu c.id (m.add (observation p c now)) },
                some (.back c.id (m.add (observation p c now))))) ∨
          (k.map.lookup cpu c.id = none ∧
            k.arrive cpu now p =
              ({ k with draws := (k.settings.draw k.draws).2 }, some (.fresh c.id (observation p c now))))) := by
  simp only [arrive, flowOf?]
  rcases k.settings.draw k.draws with ⟨counts, draws⟩
  cases counts with
  | false => exact .inl ⟨rfl, rfl⟩
  | true =>
    simp only [if_true]
    cases Classified.ofFrame? p.frame p.direction p.interface with
    | none => exact .inl ⟨rfl, rfl⟩
    | some c =>
      refine .inr ⟨c, rfl, ?_⟩
      cases hlookup : k.map.lookup cpu c.id with
      | some m => exact .inl ⟨m, rfl, by simp only [hlookup]; rfl⟩
      | none => exact .inr ⟨rfl, by simp only [hlookup]; rfl⟩

/-- A value that is in its slot already stays there, the write being refused or not. -/
theorem update_put (k : Classifier) (cpu : Nat) (refusal : Option Refusal) (id : Flow.Id) (m : Flow.Metrics) :
    (update { k with map := k.map.put cpu id m } cpu refusal id m).1 = { k with map := k.map.put cpu id m } := by
  rw [update]
  rcases (k.map.put cpu id m).insert_cases cpu refusal id with hinsert | ⟨r, hinsert⟩
  · simp only [hinsert, FlowMap.put_put]
  · simp only [hinsert]

/-- **A new flow is kept, or it is refused and its record goes into the ring if there is room.** -/
theorem create_cases (k : Classifier) (cpu : Nat) (refusal : Option Refusal) (id : Flow.Id) (o : Flow.Observation) :
    (k.create cpu refusal id o).1 = { k with map := k.map.put cpu id (.ofFirst o) } ∨
      ((k.map.insert cpu refusal id {}).isOk = false ∧
        ∃ r, (k.create cpu refusal id o).1 = { k with ring := (k.ring.push? (refusedRecord id o r)).getD k.ring }) := by
  rw [create]
  rcases k.map.insert_cases cpu refusal id with hinsert | ⟨r, hinsert⟩
  · exact .inl (by simp only [hinsert])
  · refine .inr ⟨by rw [hinsert]; rfl, r, ?_⟩
    simp only [hinsert]
    cases k.ring.push? (refusedRecord id o r) <;> rfl

namespace Write

def id : Write → Flow.Id
  | back id _ | fresh id _ => id

/-- The value that comes into the slot. -/
def value : Write → Flow.Metrics
  | back _ value => value
  | fresh _ o => .ofFirst o

/-- The packet is counted already. -/
def inPlace : Write → Bool
  | back .. => true
  | fresh .. => false

end Write

/-- **The second call changes one slot of the map, unless the map refuses it.** -/
theorem write_cases (k : Classifier) (cpu : Nat) (refusal : Option Refusal) (w : Write) :
    ((k.map.insert cpu refusal w.id {}).isOk = true ∧ (k.write cpu refusal w).1.map = k.map.put cpu w.id w.value) ∨
      ((k.map.insert cpu refusal w.id {}).isOk = false ∧ (k.write cpu refusal w).1.map = k.map) := by
  cases w with
  | back id value =>
    rcases k.map.insert_cases cpu refusal id with hinsert | ⟨r, hinsert⟩
    · exact .inl ⟨by simp only [Write.id, hinsert]; rfl, by simp only [write, update, hinsert]; rfl⟩
    · exact .inr ⟨by simp only [Write.id, hinsert]; rfl, by simp only [write, update, hinsert]⟩
  | fresh id o =>
    rcases k.map.insert_cases cpu refusal id with hinsert | ⟨r, hinsert⟩
    · exact .inl ⟨by simp only [Write.id, hinsert]; rfl, by simp only [write, create, hinsert]; rfl⟩
    · refine .inr ⟨by simp only [Write.id, hinsert]; rfl, ?_⟩
      simp only [write, create, hinsert]
      cases k.ring.push? (refusedRecord id o r) <;> rfl

/-- **What a packet changes in the kernel.**  It counts in its slot, the write being refused or not, unless its flow is new and
refused; then its record goes into the ring if there is room. -/
theorem observe_cases (k : Classifier) (cpu : Nat) (now : UInt64) (refusal : Option Refusal) (p : Packet) :
    (k.flowOf? p = none ∧ (k.observe cpu now refusal p).1 = { k with draws := (k.settings.draw k.draws).2 }) ∨
      ∃ c, k.flowOf? p = some c ∧
        ((k.observe cpu now refusal p).1 =
            { k with
              draws := (k.settings.draw k.draws).2
              map := k.map.put cpu c.id (k.map.counted cpu c.id (observation p c now)) } ∨
          (k.Spills cpu refusal c.id ∧ ∃ r, (k.observe cpu now refusal p).1 =
            { k with
              draws := (k.settings.draw k.draws).2
              ring := (k.ring.push? (refusedRecord c.id (observation p c now) r)).getD k.ring })) := by
  rw [observe]
  rcases k.arrive_cases cpu now p with ⟨hnone, harrive⟩ | ⟨c, hc, ⟨m, hlookup, harrive⟩ | ⟨hlookup, harrive⟩⟩
  · exact .inl ⟨hnone, by rw [harrive]⟩
  · refine .inr ⟨c, hc, .inl ?_⟩
    rw [harrive, FlowMap.counted, hlookup]
    exact update_put { k with draws := (k.settings.draw k.draws).2 } cpu refusal c.id _
  · refine .inr ⟨c, hc, ?_⟩
    rw [harrive, FlowMap.counted, hlookup]
    rcases create_cases { k with draws := (k.settings.draw k.draws).2 } cpu refusal c.id (observation p c now) with
      hkept | ⟨hrefused, r, hrecord⟩
    · exact .inl hkept
    · exact .inr ⟨⟨hlookup, hrefused⟩, r, hrecord⟩

end Classifier
end Kernel
end FlowMeter
