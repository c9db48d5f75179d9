import FlowMeter.Kernel.Forwarder
import Mathlib.Data.List.Basic
/-!
# What the reader of the ring hands on

Entries come into the ring in any batches while its reader takes steps, and its receiver takes record after record until it goes
away (`ForwarderRun.step`).  The entries that the reader has taken are told as discarded or have become records, in their order, and
the records are received, or wait, or were lost with the receiver (`Carries`).  So what is received is a prefix of what is long
enough (`ForwarderRun.hands_on`), and all of it when the receiver stays.
-/
namespace FlowMeter

open FlowMeter.Flow (Record)

/-- **What an entry holds**: the record whose image is the start of it, if it is long enough for one. -/
theorem Flow.Record.ofOctets?_eq (entry : Octets) :
    ofOctets? entry = if 97 ≤ entry.length then some (layout.decode (entry.take 97)) else none := by
  rw [ofOctets?, Layout.read?, Layout.readAt?, size_layout, List.drop_zero, Nat.zero_add]

namespace Kernel

/-- The entries that are long enough for a record, each cut off behind it. -/
def images (entries : List Octets) : List Octets := (entries.filter fun e => 97 ≤ e.length).map fun e => e.take 97

/-- The records that these entries hold. -/
def decoded (entries : List Octets) : List Record := (images entries).map Record.layout.decode

/-- What is told of the entries that are too short. -/
def discards (entries : List Octets) : List Notice :=
  (entries.filter fun e => e.length < 97).map fun e => .entryDiscarded e.length

theorem decoded_append (entries more : List Octets) : decoded (entries ++ more) = decoded entries ++ decoded more := by
  simp [decoded, images]

theorem discards_append (entries more : List Octets) : discards (entries ++ more) = discards entries ++ discards more := by
  simp [discards]

/-- **A decoded record has the image that it was decoded from.** -/
theorem map_toOctets_decoded (entries : List Octets) : (decoded entries).map Record.toOctets = images entries := by
  rw [decoded, List.map_map]
  refine (List.map_congr_left fun image himage => ?_).trans (List.map_id _)
  obtain ⟨entry, hentry, rfl⟩ := List.mem_map.1 himage
  have hlong : 97 ≤ entry.length := of_decide_eq_true (List.mem_filter.1 hentry).2
  exact Record.layout.encode_decode _ (by rw [List.length_take, Nat.min_eq_left hlong, Record.size_layout])

namespace Forwarder

theorem deserted_step (f : Forwarder) : f.step.1.deserted = f.deserted := by
  unfold step
  split
  · rfl
  · cases f.holding with
    | some r =>
      simp only [put]
      split
      · rfl
      · split <;> rfl
    | none =>
      simp only [take]
      cases f.ring with
      | nil => rfl
      | cons entry rest =>
        simp only
        cases Record.ofOctets? entry <;> rfl

theorem deserted_of_receive? {f f' : Forwarder} {r : Record} (h : f.receive? = some (r, f')) : f'.deserted = f.deserted := by
  unfold receive? at h
  split at h <;> cases h
  rfl

/-- **A step brings the records further**, or there is one to be received, or nothing is left to be done. -/
theorem stepsLeft_step {f : Forwarder} (hstays : f.deserted = false) (hgoes : f.ended = false) (hroom : 0 < f.room) :
    f.step.1.stepsLeft < f.stepsLeft ∨
      f.step.1.stepsLeft = f.stepsLeft ∧ (f.step.1.channel ≠ [] ∨ f.stepsLeft = 0) := by
  obtain ⟨room, ring, holding, channel, deserted, ended⟩ := f
  obtain rfl : deserted = false := hstays
  obtain rfl : ended = false := hgoes
  cases holding with
  | some r =>
    refine .inr ?_
    by_cases hfree : channel.length < room
    · simp only [step, put, hfree, stepsLeft, Bool.false_eq_true, if_false, if_true, Option.toList_some, Option.toList_none,
        List.length_append, List.length_singleton, List.length_nil]
      exact ⟨by omega, .inl (by simp)⟩
    · simp only [step, put, hfree, Bool.false_eq_true, if_false, true_and]
      exact .inl (List.length_pos_iff.1 (Nat.lt_of_lt_of_le hroom (Nat.le_of_not_lt hfree)))
  | none =>
    cases ring with
    | nil =>
      refine .inr ⟨rfl, ?_⟩
      cases channel with
      | nil => exact .inr rfl
      | cons r rest => exact .inl (List.cons_ne_nil r rest)
    | cons entry rest =>
      refine .inl ?_
      cases hread : Record.ofOctets? entry <;>
        simp only [step, take, hread, stepsLeft, Bool.false_eq_true, if_false, Option.toList_some, Option.toList_none,
          List.length_cons, List.length_nil] <;> omega

theorem stepsLeft_of_receive? {f f' : Forwarder} {r : Record} (h : f.receive? = some (r, f')) :
    f'.stepsLeft + 1 = f.stepsLeft := by
  unfold receive? at h
  split at h
  · cases h
  · rename_i rest hchannel
    cases h
    simp only [stepsLeft, hchannel, List.length_cons]
    omega

theorem eq_of_stepsLeft_eq_zero {f : Forwarder} (h : f.stepsLeft = 0) :
    f.ring = [] ∧ f.holding = none ∧ f.channel = [] := by
  unfold stepsLeft at h
  refine ⟨List.eq_nil_of_length_eq_zero (by omega), ?_, List.eq_nil_of_length_eq_zero (by omega)⟩
  exact Option.toList_eq_nil_iff.1 (List.eq_nil_of_length_eq_zero (by omega))

end Forwarder

structure ForwarderRun where
  forwarder : Forwarder
  /-- All entries that came into the ring, oldest first. -/
  arrived : List Octets := []
  /-- The records that were received, in their order. -/
  received : List Record := []
  notices : List Notice := []

namespace ForwarderRun

/-- What can happen next.  When the receiver goes away, what waits for it is lost. -/
inductive Choice where
  | arrive (entries : List Octets)
  | forward
  | receive
  | desert
  deriving DecidableEq

def start (capacity : Nat) : ForwarderRun where
  forwarder := Forwarder.ofRoom capacity

def step (t : ForwarderRun) : Choice → ForwarderRun
  | .arrive entries => { t with forwarder := t.forwarder.arrive entries, arrived := t.arrived ++ entries }
  | .forward => { t with forwarder := t.forwarder.step.1, notices := t.notices ++ t.forwarder.step.2 }
  | .receive =>
    match t.forwarder.receive? with
    | some (r, forwarder) => { t with forwarder, received := t.received ++ [r] }
    | none => t
  | .desert => { t with forwarder := t.forwarder.desert }

def follow (t : ForwarderRun) (choices : List Choice) : ForwarderRun := choices.foldl step t

/-- Of the entries that the reader has taken nothing is lost but with the receiver, and nothing is told twice. -/
structure Carries (capacity : Nat) (t : ForwarderRun) (taken : List Octets) (lost : List Record) : Prop where
  room : t.forwarder.room = capacity
  arrived : t.arrived = taken ++ t.forwarder.ring
  records : t.received ++ t.forwarder.channel ++ lost ++ t.forwarder.holding.toList = decoded taken
  told : t.notices = discards taken
  bounded : t.forwarder.channel.length ≤ capacity
  kept : t.forwarder.deserted = false → lost = []
  gone : t.forwarder.deserted = true → t.forwarder.channel = []
  ended : t.forwarder.ended = true → t.forwarder.deserted = true

namespace Carries

variable {capacity : Nat} {t : ForwarderRun} {taken : List Octets} {lost : List Record}

theorem start (h : 1 ≤ capacity) : Carries capacity (start capacity) [] [] where
  room := Nat.max_eq_left h
  arrived := rfl
  records := rfl
  told := rfl
  bounded := Nat.zero_le _
  kept _ := rfl
  gone _ := rfl
  ended h := by cases h

theorem arrive (h : Carries capacity t taken lost) (entries : List Octets) :
    Carries capacity (t.step (.arrive entries)) taken lost where
  room := h.room
  arrived := by
    show t.arrived ++ entries = taken ++ (t.forwarder.ring ++ entries)
    rw [h.arrived, List.append_assoc]
  records := h.records
  told := h.told
  bounded := h.bounded
  kept := h.kept
  gone := h.gone
  ended := h.ended

/-- **An entry is taken**: it becomes the record in the reader's hands, or is told as discarded. -/
theorem take (h : Carries capacity t taken lost) (hended : t.forwarder.ended = false) (hholding : t.forwarder.holding = none)
    {entry : Octets} {rest : List Octets} (hring : t.forwarder.ring = entry :: rest) :
    Carries capacity (t.step .forward) (taken ++ [entry]) lost := by
  have hrecords := h.records
  rw [hholding, Option.toList_none, List.append_nil] at hrecords
  have harrived : t.arrived = taken ++ [entry] ++ rest := by rw [h.arrived, hring, List.append_assoc, List.singleton_append]
  by_cases hlong : 97 ≤ entry.length
  · have hread : Record.ofOctets? entry = some (Record.layout.decode (entry.take 97)) := by
      rw [Record.ofOctets?_eq, if_pos hlong]
    have hstep : t.forwarder.step =
        ({ t.forwarder with ring := rest, holding := some (Record.layout.decode (entry.take 97)) }, []) := by
      simp only [Forwarder.step, hended, Bool.false_eq_true, if_false, hholding, Forwarder.take, hring, hread]
    simp only [ForwarderRun.step, hstep]
    refine ⟨h.room, harrived, ?_, ?_, h.bounded, h.kept, h.gone, fun he => absurd (hended.symm.trans he) (by decide)⟩
    · rw [decoded_append, ← hrecords]
      simp [decoded, images, hlong]
    · show t.notices ++ [] = _
      rw [discards_append, h.told]
      simp [discards, hlong]
  · have hread : Record.ofOctets? entry = none := by rw [Record.ofOctets?_eq, if_neg hlong]
    have hstep : t.forwarder.step = ({ t.forwarder with ring := rest }, [.entryDiscarded entry.length]) := by
      simp only [Forwarder.step, hended, Bool.false_eq_true, if_false, hholding, Forwarder.take, hring, hread]
    simp only [ForwarderRun.step, hstep]
    refine ⟨h.room, harrived, ?_, ?_, h.bounded, h.kept, h.gone, h.ended⟩
    · rw [decoded_append, ← hrecords]
      simp [decoded, images, hlong, hholding]
    · show t.notices ++ [_] = _
      rw [discards_append, h.told]
      simp [discards, Nat.lt_of_not_le hlong]

/-- **The record in the reader's hands** goes into the channel as soon as there is room, or is lost when nobody receives. -/
theorem put (h : Carries capacity t taken lost) (hended : t.forwarder.ended = false) {r : Record}
    (hholding : t.forwarder.holding = some r) : ∃ lost', Carries capacity (t.step .forward) taken lost' := by
  have hrecords := h.records
  rw [hholding, Option.toList_some] at hrecords
  have hstep : t.forwarder.step = (t.forwarder.put r, []) := by
    simp only [Forwarder.step, hended, Bool.false_eq_true, if_false, hholding]
  have hnotices : t.notices ++ t.forwarder.step.2 = discards taken := by rw [hstep, List.append_nil, h.told]
  cases hdeserted : t.forwarder.deserted with
  | true =>
    refine ⟨lost ++ [r], ?_⟩
    simp only [ForwarderRun.step, hstep, Forwarder.put, hdeserted, if_true, List.append_nil]
    refine ⟨h.room, h.arrived, ?_, h.told, h.bounded, fun hd => (by cases hd), fun _ => h.gone hdeserted, fun _ => rfl⟩
    simpa only [List.append_assoc, Option.toList_none, List.append_nil] using hrecords
  | false =>
    obtain rfl := h.kept hdeserted
    refine ⟨[], ?_⟩
    by_cases hroom : t.forwarder.channel.length < t.forwarder.room
    · simp only [ForwarderRun.step, hstep, Forwarder.put, hdeserted, Bool.false_eq_true, if_false, hroom, if_true,
        List.append_nil]
      refine ⟨h.room, h.arrived, ?_, h.told, ?_, fun _ => rfl, fun hd => (by cases hd), fun he => ?_⟩
      · simpa only [List.append_assoc, Option.toList_none, List.append_nil, List.nil_append] using hrecords
      · rw [List.length_append, List.length_singleton, ← h.room]
        exact hroom
      · exact absurd (hended.symm.trans he) (by decide)
    · simp only [ForwarderRun.step, hstep, Forwarder.put, hdeserted, Bool.false_eq_true, if_false, hroom, List.append_nil]
      exact h

theorem forward (h : Carries capacity t taken lost) : ∃ taken' lost', Carries capacity (t.step .forward) taken' lost' := by
  have hidle : t.forwarder.step = (t.forwarder, []) → Carries capacity (t.step .forward) taken lost := by
    intro hstep
    simp only [ForwarderRun.step, hstep, List.append_nil]
    exact h
  cases hended : t.forwarder.ended with
  | true => exact ⟨taken, lost, hidle (by simp only [Forwarder.step, hended, if_true])⟩
  | false =>
    cases hholding : t.forwarder.holding with
    | some r => exact ⟨taken, h.put hended hholding⟩
    | none =>
      cases hring : t.forwarder.ring with
      | nil =>
        refine ⟨taken, lost, hidle ?_⟩
        simp only [Forwarder.step, hended, Bool.false_eq_true, if_false, hholding, Forwarder.take, hring]
      | cons entry rest => exact ⟨taken ++ [entry], lost, h.take hended hholding hring⟩

theorem receive (h : Carries capacity t taken lost) : Carries capacity (t.step .receive) taken lost := by
  cases hchannel : t.forwarder.channel with
  | nil => simpa only [ForwarderRun.step, Forwarder.receive?, hchannel] using h
  | cons r rest =>
    have hbounded := h.bounded
    have hrecords := h.records
    rw [hchannel] at hbounded hrecords
    simp only [ForwarderRun.step, Forwarder.receive?, hchannel]
    refine ⟨h.room, h.arrived, ?_, h.told, Nat.le_of_succ_le hbounded, h.kept, fun hd => ?_, h.ended⟩
    · simpa only [List.append_assoc, List.cons_append, List.nil_append] using hrecords
    · rw [h.gone hd] at hchannel
      cases hchannel

theorem desert (h : Carries capacity t taken lost) : ∃ lost', Carries capacity (t.step .desert) taken lost' := by
  refine ⟨t.forwarder.channel ++ lost, h.room, h.arrived, ?_, h.told, Nat.zero_le _, fun hd => ?_, fun _ => rfl, fun _ => rfl⟩
  · simpa only [ForwarderRun.step, Forwarder.desert, List.append_assoc, List.append_nil, List.nil_append] using h.records
  · cases hd

/-- **Every step carries on.** -/
theorem step (h : Carries capacity t taken lost) (c : Choice) : ∃ taken' lost', Carries capacity (t.step c) taken' lost' := by
  cases c with
  | arrive entries => exact ⟨taken, lost, h.arrive entries⟩
  | forward => exact h.forward
  | receive => exact ⟨taken, lost, h.receive⟩
  | desert => exact ⟨taken, h.desert⟩

/-- **A whole run carries on.** -/
theorem follow : ∀ (choices : List Choice) {t : ForwarderRun} {taken : List Octets} {lost : List Record},
    Carries capacity t taken lost → ∃ taken' lost', Carries capacity (t.follow choices) taken' lost'
  | [], _, taken, lost, h => ⟨taken, lost, h⟩
  | c :: rest, _, _, _, h => by
    obtain ⟨_, _, hstep⟩ := h.step c
    exact follow rest hstep

/-- What was received comes first among all that is long enough. -/
theorem received_prefix (h : Carries capacity t taken lost) : t.received <+: decoded t.arrived := by
  rw [h.arrived, decoded_append, ← h.records]
  simp only [List.append_assoc]
  exact List.prefix_append _ _

end Carries

theorem deserted_step (t : ForwarderRun) (c : Choice) :
    (t.step c).forwarder.deserted = true ↔ t.forwarder.deserted = true ∨ c = .desert := by
  cases c with
  | arrive entries => simp [step, Forwarder.arrive]
  | forward => simp [step, Forwarder.deserted_step]
  | receive =>
    simp only [step]
    cases hnext : t.forwarder.receive? with
    | none => simp
    | some next =>
      obtain ⟨r, f⟩ := next
      simp [Forwarder.deserted_of_receive? hnext]
  | desert => simp [step, Forwarder.desert]

/-- The receiver is gone just if it went away. -/
theorem deserted_follow : ∀ (choices : List Choice) (t : ForwarderRun),
    (t.follow choices).forwarder.deserted = true ↔ t.forwarder.deserted = true ∨ .desert ∈ choices
  | [], t => by simp [follow]
  | c :: rest, t => by
    have hrest := deserted_follow rest (t.step c)
    rw [deserted_step, or_assoc] at hrest
    rw [List.mem_cons, eq_comm (a := Choice.desert)]
    exact hrest

/-- The reader and the receiver take turns. -/
def rounds (n : Nat) : List Choice := (List.replicate n [Choice.forward, .receive]).flatten

theorem desert_notMem_rounds (n : Nat) : .desert ∉ rounds n := by
  intro h
  obtain ⟨l, hl, h⟩ := List.mem_flatten.1 h
  rw [List.eq_of_mem_replicate hl] at h
  simp at h

theorem follow_rounds_succ (n : Nat) (t : ForwarderRun) :
    t.follow (rounds (n + 1)) = ((t.step .forward).step .receive).follow (rounds n) := rfl

theorem forwarder_receive (t : ForwarderRun) :
    (t.step .receive).forwarder = (t.forwarder.receive?.map Prod.snd).getD t.forwarder := by
  simp only [step]
  split <;> rename_i hnext <;> rw [hnext] <;> rfl

theorem arrived_receive (t : ForwarderRun) : (t.step .receive).arrived = t.arrived := by
  simp only [step]
  split <;> rfl

theorem arrived_rounds : ∀ (n : Nat) (t : ForwarderRun), (t.follow (rounds n)).arrived = t.arrived
  | 0, _ => rfl
  | n + 1, t => by rw [follow_rounds_succ, arrived_rounds n, arrived_receive]; rfl

namespace Carries

variable {capacity : Nat} {t : ForwarderRun} {taken : List Octets} {lost : List Record}

/-- **Every round brings the records further**, as long as the receiver stays. -/
theorem stepsLeft_round (h : Carries capacity t taken lost) (hcapacity : 1 ≤ capacity)
    (hstays : t.forwarder.deserted = false) :
    ((t.step .forward).step .receive).forwarder.stepsLeft ≤ t.forwarder.stepsLeft - 1 := by
  have hgoes : t.forwarder.ended = false := Bool.eq_false_iff.2 fun he => by
    rw [h.ended he] at hstays
    cases hstays
  have hforward := Forwarder.stepsLeft_step hstays hgoes (h.room ▸ hcapacity)
  rw [forwarder_receive]
  cases hnext : (t.step .forward).forwarder.receive? with
  | none =>
    have hchannel : t.forwarder.step.1.channel = [] := by
      unfold Forwarder.receive? at hnext
      split at hnext
      · assumption
      · cases hnext
    show t.forwarder.step.1.stepsLeft ≤ _
    rcases hforward with hless | ⟨hsame, hwaits | hdone⟩
    · omega
    · exact absurd hchannel hwaits
    · omega
  | some next =>
    obtain ⟨r, f⟩ := next
    have hreceive : f.stepsLeft + 1 = t.forwarder.step.1.stepsLeft := Forwarder.stepsLeft_of_receive? hnext
    show f.stepsLeft ≤ _
    omega

theorem stepsLeft_rounds : ∀ (n : Nat) {t : ForwarderRun} {taken : List Octets} {lost : List Record},
    Carries capacity t taken lost → 1 ≤ capacity → t.forwarder.deserted = false → t.forwarder.stepsLeft ≤ n →
    (t.follow (rounds n)).forwarder.stepsLeft = 0
  | 0, _, _, _, _, _, _, hn => Nat.le_zero.1 hn
  | n + 1, t, _, _, h, hcapacity, hstays, hn => by
    have hround := h.stepsLeft_round hcapacity hstays
    obtain ⟨_, _, h'⟩ := h.follow [.forward, .receive]
    have hstays' : ((t.step .forward).step .receive).forwarder.deserted = false := Bool.eq_false_iff.2 fun hd => by
      have := (deserted_follow [.forward, .receive] t).1 hd
      simp [hstays] at this
    rw [follow_rounds_succ]
    exact stepsLeft_rounds n h' hcapacity hstays' (by omega)

end Carries

/-- **The reader hands on what is long enough, and nothing else.**  What is received is a prefix, in the order of the ring, of the
records that the entries long enough for one start with.  Every entry that was taken and is too short has been told as discarded
once; no more records wait than there is room for; and the reader ends only after its receiver went away.  As long as the
receiver stays, the reader goes on: when both take turns, all that has arrived is received or told. -/
theorem hands_on (capacity : Nat) (hcapacity : 1 ≤ capacity) (choices : List Choice) :
    let t := (start capacity).follow choices
    (t.received <+: decoded t.arrived ∧ (decoded t.arrived).map Record.toOctets = images t.arrived) ∧
    (∃ taken, t.arrived = taken ++ t.forwarder.ring ∧ t.notices = discards taken) ∧
    t.forwarder.channel.length ≤ capacity ∧
    (t.forwarder.ended = true → .desert ∈ choices) ∧
    (.desert ∉ choices →
      let t' := t.follow (rounds t.forwarder.stepsLeft)
      t'.forwarder.ended = false ∧ t'.arrived = t.arrived ∧ t'.received = decoded t.arrived ∧
        t'.notices = discards t.arrived) := by
  intro t
  obtain ⟨taken, lost, h⟩ := (Carries.start hcapacity).follow choices
  have hgone : t.forwarder.deserted = true → .desert ∈ choices := fun hd =>
    ((deserted_follow choices _).1 hd).resolve_left (by simp [start, Forwarder.ofRoom])
  refine ⟨⟨h.received_prefix, map_toOctets_decoded _⟩, ⟨taken, h.arrived, h.told⟩, h.bounded, fun he => hgone (h.ended he), fun hstay => ?_⟩
  intro t'
  have hstays : t.forwarder.deserted = false := Bool.eq_false_iff.2 (mt hgone hstay)
  obtain ⟨taken', lost', h'⟩ := h.follow (rounds t.forwarder.stepsLeft)
  have hstays' : t'.forwarder.deserted = false := Bool.eq_false_iff.2 fun hd => by
    have := (deserted_follow (rounds t.forwarder.stepsLeft) t).1 hd
    simp [hstays, desert_notMem_rounds] at this
  have harrived : t'.arrived = t.arrived := arrived_rounds _ t
  obtain ⟨hring, hholding, hchannel⟩ :=
    Forwarder.eq_of_stepsLeft_eq_zero (h.stepsLeft_rounds _ hcapacity hstays (Nat.le_refl _))
  have hrecords := h'.records
  have htaken := h'.arrived
  rw [hchannel, hholding, h'.kept hstays', List.append_nil, List.append_nil, Option.toList_none, List.append_nil] at hrecords
  rw [hring, List.append_nil] at htaken
  have htaken : t.arrived = taken' := harrived.symm.trans htaken
  refine ⟨Bool.eq_false_iff.2 fun he => ?_, harrived, htaken ▸ hrecords, htaken ▸ h'.told⟩
  rw [h'.ended he] at hstays'
  cases hstays'

/-- An entry that is too short and three records with an octet behind each come to a channel of one place; the receiver takes the
first record, and goes away when the second one waits. -/
theorem hands_on_deserted :
    let records := [4, 5, 6].map fun port => ({ id := { srcPort := port } } : Record)
    let entries := [List.replicate 96 1] ++ records.map fun r => r.toOctets ++ [0]
    let choices : List Choice :=
      [.arrive (entries.take 3), .forward, .forward, .forward, .forward, .forward, .receive, .forward, .desert,
        .arrive (entries.drop 3), .forward, .forward]
    let t := (start 1).follow choices
    1 ≤ 1 ∧ t.received <+: decoded entries ∧ decoded entries = records ∧ t.received = records.take 1 ∧
      t.notices.map Notice.text = ["discarding 96-byte ring buffer entry"] ∧ t.forwarder.ended = true ∧ .desert ∈ choices := by
  intro records entries choices t
  obtain ⟨⟨hreceives, -⟩, -, -, hended, -⟩ := hands_on 1 (Nat.le_refl 1) choices
  have harrived : t.arrived = entries := by decide +kernel
  have hdecoded : decoded entries = records := by decide +kernel
  have hreceived : t.received = records.take 1 := by decide +kernel
  have hnotices : t.notices.map Notice.text = ["discarding 96-byte ring buffer entry"] := by decide +kernel
  have hended' : t.forwarder.ended = true := by decide +kernel
  exact ⟨Nat.le_refl 1, harrived ▸ hreceives, hdecoded, hreceived, hnotices, hended', hended hended'⟩

end ForwarderRun
end Kernel
end FlowMeter
