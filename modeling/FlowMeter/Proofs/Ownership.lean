import FlowMeter.Export.Dedup
import Mathlib.Data.List.SplitBy
/-!
# Who owns a flow

The deduper keeps one owner for each flow and forgets it when it expires.  Here is the rule that this comes to, read off the
whole history: the reports of a flow fall into periods of activity, a period belongs to the interface of its first report
(`firstOfPeriod`), and what other interfaces report in it are duplicates (`answers`).  One step of the deduper is
`Remembers.see`, a run is `passEach_eq_answers`.
-/
namespace FlowMeter

/-- An element that is related to the last one joins the last run. -/
theorem splitBy_concat_of_rel {α : Type} {r : α → α → Bool} {l run : List α} {runs : List (List α)} {a x : α}
    (h : l.splitBy r = runs ++ [run]) (ha : l.getLast? = some a) (hr : r a x = true) :
    (l ++ [x]).splitBy r = runs ++ [run ++ [x]] := by
  obtain ⟨hflat, hnil, hchain, hbreak⟩ := List.splitBy_eq_iff.1 h
  rw [List.mem_append, List.mem_singleton, not_or] at hnil
  have hlast : run.getLast? = some a := by
    rw [hflat] at ha
    simpa [List.getLast?_append, Ne.symm hnil.2] using ha
  rw [List.isChain_append] at hbreak
  rw [List.splitBy_eq_iff]
  -- the run that grows is the last one, so all but its end is as it was
  refine ⟨by simp [hflat], by simp [hnil.1], fun m hm => ?_, List.isChain_append.2 ⟨hbreak.1, by simp, fun y hy z hz => ?_⟩⟩
  · rcases List.mem_append.1 hm with hm | hm
    · exact hchain m (List.mem_append_left _ hm)
    · obtain rfl := List.mem_singleton.1 hm
      refine List.isChain_append.2 ⟨hchain run (by simp), by simp, fun y hy z hz => ?_⟩
      obtain rfl : a = y := by simpa [hlast] using hy
      obtain rfl : x = z := by simpa using hz
      exact hr
  · obtain rfl : run ++ [x] = z := by simpa using hz
    obtain ⟨hy', hz', hb⟩ := hbreak.2.2 y hy run (by simp)
    exact ⟨hy', by simp, by rwa [List.head_append_of_ne_nil hz']⟩

namespace Table

variable {κ ν : Type} [DecidableEq κ]

theorem find_filter (keep : κ → ν → Bool) (k : κ) : ∀ l : List (κ × ν), (l.map Prod.fst).Nodup →
    find k (l.filter fun e => keep e.1 e.2) = (find k l).filter (keep k)
  | [], _ => rfl
  | e :: rest, hn => by
    rw [List.map_cons, List.nodup_cons] at hn
    by_cases he : e.1 = k
    · subst he
      have hnone : find e.1 rest = none := by
        cases hf : find e.1 rest with
        | none => rfl
        | some v => exact absurd (List.mem_map_of_mem (f := Prod.fst) (mem_of_find_eq_some hf)) hn.1
      have hrest := find_filter keep e.1 rest hn.2
      rw [hnone] at hrest
      cases hk : keep e.1 e.2 with
      | true => simp [find, hk, Option.filter]
      | false => simpa [find, hk, Option.filter] using hrest
    · have hrest := find_filter keep k rest hn.2
      cases hk : keep e.1 e.2 with
      | true => simpa [find, hk, he] using hrest
      | false => simpa [find, hk, he] using hrest

/-- **What passes the test stays.** -/
theorem get?_filter (t : Table κ ν) (keep : κ → ν → Bool) (k : κ) : (t.filter keep).get? k = (t.get? k).filter (keep k) :=
  find_filter keep k t.entries t.distinct

end Table

namespace Export

structure Seen where
  time : Instant
  id : Flow.Id
  deriving DecidableEq

def seenOf (k : Flow.Id) (history : List Seen) : List Seen := history.filter fun s => Dedup.key s.id = k

/-- One after the other, with no more than the expiry time between them. -/
def Near (expiry : Duration) (a b : Seen) : Prop := b.time.nanos - a.time.nanos ≤ expiry.toNanos

instance (expiry : Duration) (a b : Seen) : Decidable (Near expiry a b) := inferInstanceAs (Decidable (_ ≤ _))

/-- The periods in which a flow is active: one ends where the flow is not seen for longer than the expiry time. -/
def periods (expiry : Duration) (history : List Seen) (k : Flow.Id) : List (List Seen) :=
  (seenOf k history).splitBy fun a b => Near expiry a b

def firstOfPeriod (expiry : Duration) (history : List Seen) (k : Flow.Id) : Option Seen :=
  (periods expiry history k).getLast?.bind List.head?

/-- Another interface has begun the period. -/
def Repeats (expiry : Duration) (history : List Seen) (id : Flow.Id) : Prop :=
  ∃ s ∈ firstOfPeriod expiry history (Dedup.key id), s.id.interface ≠ id.interface

instance (expiry : Duration) (history : List Seen) (id : Flow.Id) : Decidable (Repeats expiry history id) :=
  inferInstanceAs (Decidable (∃ s ∈ _, _))

/-- A batch of reports, and when it comes. -/
abbrev Batch := Instant × List Report

def Batch.seen (b : Batch) : List Seen := b.2.map fun r => ⟨b.1, r.id⟩

/-- What is left of the reports that come at a time: all of them in their order, the duplicates marked or left out. -/
def answer (expiry : Duration) (mark : Bool) (now : Instant) : List Seen → List Report → List Report
  | _, [] => []
  | history, r :: rest =>
    let history := history ++ [⟨now, r.id⟩]
    (if Repeats expiry history r.id then if mark then [{ r with duplicate := true }] else [] else [r]) ++
      answer expiry mark now history rest

def answers (expiry : Duration) (mark : Bool) : List Seen → List Batch → List (List Report)
  | _, [] => []
  | history, b :: rest => answer expiry mark b.1 history b.2 :: answers expiry mark (history ++ b.seen) rest

/-- Who owns a flow at a time: whoever began the last period, unless the flow has not been seen for longer than the expiry
time. -/
def ownerOf (expiry : Duration) (history : List Seen) (now : Instant) (k : Flow.Id) : Option Owner :=
  match (seenOf k history).getLast?, firstOfPeriod expiry history k with
  | some last, some first =>
    if now.nanos - last.time.nanos ≤ expiry.toNanos then
      some { interface := first.id.interface, expires := ⟨last.time.nanos + expiry.toNanos⟩ }
    else none
  | _, _ => none

section History

variable (expiry : Duration) (history : List Seen) {k : Flow.Id} {s : Seen}

theorem seenOf_concat (h : Dedup.key s.id = k) : seenOf k (history ++ [s]) = seenOf k history ++ [s] := by
  simp [seenOf, h]

theorem seenOf_concat_of_ne (h : Dedup.key s.id ≠ k) : seenOf k (history ++ [s]) = seenOf k history := by
  simp [seenOf, h]

/-- **Something seen begins a new period just if nothing of its flow was seen within the expiry time.** -/
theorem firstOfPeriod_concat (h : Dedup.key s.id = k) :
    firstOfPeriod expiry (history ++ [s]) k =
      match (seenOf k history).getLast? with
      | some a => if Near expiry a s then firstOfPeriod expiry history k else some s
      | none => some s := by
  rw [firstOfPeriod, periods, seenOf_concat history h]
  have hsplit : (∀ a ∈ (seenOf k history).getLast?, ¬ Near expiry a s) →
      ((seenOf k history ++ [s]).splitBy fun a b => Near expiry a b).getLast?.bind List.head? = some s := by
    intro hfar
    rw [List.splitBy_append_cons [] (fun a ha => by simpa using hfar a ha)]
    simp [List.splitBy, List.splitBy.loop]
  cases hlast : (seenOf k history).getLast? with
  | none => exact hsplit (by simp [hlast])
  | some a =>
    by_cases hnear : Near expiry a s
    · simp only [hnear, if_true]
      have hne : (seenOf k history).splitBy (fun a b => decide (Near expiry a b)) ≠ [] := by
        intro h0
        rw [List.splitBy_eq_nil] at h0
        rw [h0] at hlast
        cases hlast
      obtain ⟨runs, run, hruns⟩ := (List.eq_nil_or_concat' _).resolve_left hne
      have hrun : run ≠ [] := fun h0 => List.nil_notMem_splitBy _ _ (by rw [hruns]; simp [h0])
      rw [splitBy_concat_of_rel hruns hlast (by simpa using hnear), firstOfPeriod, periods, hruns]
      simp [List.head?_append, List.head?_eq_some_head hrun]
    · simp only [hnear, if_false]
      refine hsplit fun b hb => ?_
      rw [hlast] at hb
      obtain rfl := Option.mem_some_iff.1 hb
      exact hnear

theorem firstOfPeriod_concat_of_ne (h : Dedup.key s.id ≠ k) :
    firstOfPeriod expiry (history ++ [s]) k = firstOfPeriod expiry history k := by
  rw [firstOfPeriod, periods, seenOf_concat_of_ne history h, firstOfPeriod, periods]

theorem exists_firstOfPeriod {a : Seen} (h : (seenOf k history).getLast? = some a) :
    ∃ first, firstOfPeriod expiry history k = some first := by
  have hne : periods expiry history k ≠ [] := by
    intro h0
    rw [periods, List.splitBy_eq_nil] at h0
    rw [h0] at h
    cases h
  have hrun : (periods expiry history k).getLast hne ≠ [] := List.ne_nil_of_mem_splitBy (List.getLast_mem hne)
  exact ⟨_, by rw [firstOfPeriod, List.getLast?_eq_some_getLast hne, Option.bind_some, List.head?_eq_some_head hrun]⟩

/-- **Something that is seen makes its flow's owner last, or gives it a first one.** -/
theorem ownerOf_concat (now : Instant) (id : Flow.Id) :
    ownerOf expiry (history ++ [⟨now, id⟩]) now (Dedup.key id) =
      some { interface := ((ownerOf expiry history now (Dedup.key id)).map Owner.interface).getD id.interface
             expires := ⟨now.nanos + expiry.toNanos⟩ } := by
  have hkey : Dedup.key (Seen.mk now id).id = Dedup.key id := rfl
  rw [ownerOf, seenOf_concat history hkey, List.getLast?_concat, firstOfPeriod_concat expiry history hkey, ownerOf]
  cases hlast : (seenOf (Dedup.key id) history).getLast? with
  | none => simp
  | some a =>
    obtain ⟨first, hfirst⟩ := exists_firstOfPeriod expiry history hlast
    by_cases hnear : now.nanos - a.time.nanos ≤ expiry.toNanos
    · simp [hfirst, Near, hnear]
    · simp [hfirst, Near, hnear]

/-- What has just been seen has an owner, who has begun its period. -/
theorem exists_ownerOf_concat (now : Instant) (id : Flow.Id) :
    ∃ first, firstOfPeriod expiry (history ++ [⟨now, id⟩]) (Dedup.key id) = some first ∧
      ownerOf expiry (history ++ [⟨now, id⟩]) now (Dedup.key id) =
        some { interface := first.id.interface, expires := ⟨now.nanos + expiry.toNanos⟩ } := by
  have hlast : (seenOf (Dedup.key id) (history ++ [⟨now, id⟩])).getLast? = some ⟨now, id⟩ := by
    rw [seenOf_concat history (s := ⟨now, id⟩) rfl, List.getLast?_concat]
  obtain ⟨first, hfirst⟩ := exists_firstOfPeriod expiry _ hlast
  exact ⟨first, hfirst, by simp [ownerOf, hlast, hfirst]⟩

theorem ownerOf_concat_of_ne (now : Instant) (h : Dedup.key s.id ≠ k) :
    ownerOf expiry (history ++ [s]) now k = ownerOf expiry history now k := by
  rw [ownerOf, seenOf_concat_of_ne history h, firstOfPeriod_concat_of_ne expiry history h, ownerOf]

/-- **As time passes, owners only expire.** -/
theorem ownerOf_later {now now' : Instant} (h : now ≤ now') :
    (ownerOf expiry history now k).filter (fun o => now' ≤ o.expires) = ownerOf expiry history now' k := by
  have h : now.nanos ≤ now'.nanos := h
  rw [ownerOf, ownerOf]
  cases (seenOf k history).getLast? with
  | none => rfl
  | some last =>
    cases firstOfPeriod expiry history k with
    | none => rfl
    | some first =>
      have hexpires : now' ≤ (⟨last.time.nanos + expiry.toNanos⟩ : Instant) ↔
          now'.nanos - last.time.nanos ≤ expiry.toNanos := by
        show now'.nanos ≤ last.time.nanos + expiry.toNanos ↔ _
        omega
      by_cases hnow' : now'.nanos - last.time.nanos ≤ expiry.toNanos
      · have hnow : now.nanos - last.time.nanos ≤ expiry.toNanos := by omega
        simp [hnow, hnow', hexpires, Option.filter]
      · by_cases hnow : now.nanos - last.time.nanos ≤ expiry.toNanos
        · simp [hnow, hnow', hexpires, Option.filter]
        · simp [hnow, hnow', Option.filter]

end History

namespace Dedup

/-- The deduper remembers just the owners that the history gives. -/
structure Remembers (expiry : Duration) (mark : Bool) (history : List Seen) (now : Instant) (d : Dedup) : Prop where
  expiry_eq : d.expiry = expiry
  mark_eq : d.mark = mark
  owners_eq : ∀ k, d.owners.get? k = ownerOf expiry history now k

variable {expiry : Duration} {mark : Bool} {history : List Seen} {now : Instant} {d : Dedup}

theorem eq_of_later {i i' : Instant} (h : i.later expiry = .ok i') : i' = ⟨i.nanos + expiry.toNanos⟩ := by
  rw [Instant.later] at h
  split at h
  · exact (Except.ok.inj h).symm
  · contradiction

theorem Remembers.sweep (h : Remembers expiry mark history now d) {now' : Instant} (hle : now ≤ now') :
    Remembers expiry mark history now' (d.sweep now') where
  expiry_eq := h.expiry_eq
  mark_eq := h.mark_eq
  owners_eq k := by
    rw [Dedup.sweep, Table.get?_filter, h.owners_eq k]
    exact ownerOf_later expiry history hle

/-- Whoever owns the period owns it for longer; where nobody does, a period begins. -/
def renewed (id : Flow.Id) (expires : Instant) : Option Owner → Owner
  | some o => { o with expires }
  | none => { interface := id.interface, expires }

/-- **A report is remembered, and is a duplicate just if another interface has begun the period.** -/
theorem Remembers.see (h : Remembers expiry mark history now d) (id : Flow.Id) {expires : Instant}
    (hfits : now.later expiry = .ok expires) :
    ∃ d', d.see now id = .ok d' ∧ Remembers expiry mark (history ++ [⟨now, id⟩]) now d' ∧
      d'.isDuplicate id = decide (Repeats expiry (history ++ [⟨now, id⟩]) id) := by
  have hsee : d.see now id = .ok { d with owners := d.owners.upsert (Dedup.key id) (renewed id expires) } := by
    rw [Dedup.see, h.expiry_eq, hfits]
    rfl
  have howners : ∀ k, (d.owners.upsert (Dedup.key id) (renewed id expires)).get? k =
      ownerOf expiry (history ++ [⟨now, id⟩]) now k := by
    intro k
    rw [Table.get?_upsert]
    split
    · rename_i hk
      subst hk
      rw [ownerOf_concat, h.owners_eq, eq_of_later hfits]
      cases ownerOf expiry history now (Dedup.key id) <;> rfl
    · rename_i hk
      rw [h.owners_eq, ownerOf_concat_of_ne expiry history now (Ne.symm hk)]
  refine ⟨_, hsee, ⟨h.expiry_eq, h.mark_eq, howners⟩, ?_⟩
  obtain ⟨first, hfirst, howner⟩ := exists_ownerOf_concat expiry history now id
  simp only [isDuplicate, howners, howner, Repeats, hfirst, Option.mem_some_iff, exists_eq_left', ne_eq]

-- time stands still within a batch, so one expiry time fits all of its reports
theorem Remembers.passAll : ∀ (reports : List Report) {history : List Seen} {d : Dedup},
    Remembers expiry mark history now d → (reports ≠ [] → ∃ expires, now.later expiry = .ok expires) →
    ∃ d', Dedup.passAll now d reports = .ok (d', answer expiry mark now history reports) ∧
      Remembers expiry mark (history ++ Batch.seen (now, reports)) now d'
  | [], history, d, h, _ => ⟨d, rfl, by rw [Batch.seen, List.map_nil, List.append_nil]; exact h⟩
  | r :: rest, history, d, h, hfits => by
    obtain ⟨expires, hfit⟩ := hfits (List.cons_ne_nil r rest)
    obtain ⟨d₁, hsee, h₁, hdup⟩ := h.see r.id hfit
    obtain ⟨d₂, hrest, h₂⟩ := Remembers.passAll rest h₁ fun _ => ⟨expires, hfit⟩
    refine ⟨d₂, ?_, ?_⟩
    · rw [Dedup.passAll, hsee]
      show (Dedup.passAll now d₁ rest >>= fun x => _) = _
      rw [hrest]
      show Except.ok (d₂, _) = Except.ok (d₂, _)
      rw [hdup, keep?, h₁.mark_eq, answer]
      by_cases hrepeats : Repeats expiry (history ++ [⟨now, r.id⟩]) r.id
      · cases mark <;> simp [hrepeats]
      · simp [hrepeats]
    · rw [List.append_assoc] at h₂
      exact h₂

theorem Remembers.pass (h : Remembers expiry mark history now d) (b : Batch) (hle : now ≤ b.1)
    (hfits : b.2 ≠ [] → ∃ expires, b.1.later expiry = .ok expires) :
    ∃ d', d.pass b.1 b.2 = .ok (d', answer expiry mark b.1 history b.2) ∧
      Remembers expiry mark (history ++ b.seen) b.1 d' :=
  Remembers.passAll b.2 (h.sweep hle) hfits

def passEach (d : Dedup) : List Batch → Except TimeFault (Dedup × List (List Report))
  | [] => return (d, [])
  | b :: rest => do
    let (d, kept) ← d.pass b.1 b.2
    let (d, others) ← d.passEach rest
    return (d, kept :: others)

theorem Remembers.passEach : ∀ (batches : List Batch) {history : List Seen} {now : Instant} {d : Dedup},
    Remembers expiry mark history now d → (∀ b ∈ batches, now ≤ b.1) → (batches.Pairwise fun a b => a.1 ≤ b.1) →
    (∀ b ∈ batches, b.2 ≠ [] → ∃ expires, b.1.later expiry = .ok expires) →
    ∃ d', d.passEach batches = .ok (d', answers expiry mark history batches) ∧
      Remembers expiry mark (history ++ batches.flatMap Batch.seen) ((batches.getLast?.map Prod.fst).getD now) d'
  | [], history, now, d, h, _, _, _ => ⟨d, rfl, by rw [List.flatMap_nil, List.append_nil]; exact h⟩
  | b :: rest, history, now, d, h, hle, horder, hfits => by
    rw [List.pairwise_cons] at horder
    obtain ⟨d₁, hpass, h₁⟩ := h.pass b (hle b List.mem_cons_self) (hfits b List.mem_cons_self)
    obtain ⟨d₂, hrest, h₂⟩ := Remembers.passEach rest h₁ horder.1 horder.2 fun c hc => hfits c (List.mem_cons_of_mem _ hc)
    refine ⟨d₂, ?_, ?_⟩
    · rw [Dedup.passEach, hpass]
      show (d₁.passEach rest >>= fun x => _) = _
      rw [hrest]
      rfl
    · rw [List.flatMap_cons, ← List.append_assoc, List.getLast?_cons]
      cases hlast : rest.getLast? <;> simpa [hlast] using h₂

/-- **The first interface to report a flow owns it for a period of activity.**  Whatever the batches, as long as time does not
go back and no expiry falls beyond the last instant there is, every batch is answered by its own reports in their order, of
which only those are marked or left out whose period another interface has begun, and afterwards the deduper holds just the
flows last seen no longer ago than the expiry time, each with the interface that has begun its period. -/
theorem passEach_eq_answers (expiry : Duration) (mark : Bool) (batches : List Batch)
    (horder : batches.Pairwise fun a b => a.1 ≤ b.1)
    (hfits : ∀ b ∈ batches, b.2 ≠ [] → ∃ expires, b.1.later expiry = .ok expires) :
    ∃ d, passEach { expiry, mark } batches = .ok (d, answers expiry mark [] batches) ∧
      ∀ k, d.owners.get? k =
        batches.getLast?.bind fun b => ownerOf expiry (batches.flatMap Batch.seen) b.1 k := by
  cases batches with
  | nil => exact ⟨_, rfl, fun _ => rfl⟩
  | cons b rest =>
    have hstart : Remembers expiry mark [] b.1 { expiry, mark } := ⟨rfl, rfl, fun _ => rfl⟩
    have hfirst : ∀ c ∈ b :: rest, b.1 ≤ c.1 := by
      intro c hc
      rcases List.mem_cons.1 hc with rfl | hc
      · exact Nat.le_refl _
      · exact (List.pairwise_cons.1 horder).1 c hc
    obtain ⟨d, hpass, hd⟩ := hstart.passEach (b :: rest) hfirst horder hfits
    refine ⟨d, hpass, fun k => ?_⟩
    rw [hd.owners_eq, List.getLast?_cons]
    rfl

/-- An interface that reports the flow of another one keeps it alive for that one, until a nanosecond more than the expiry
time passes without a report. -/
theorem passEach_eq_answers_idle :
    let report (interface : UInt32) : Report := { (default : Report) with id := { interface } }
    let batches : List Batch :=
      [(⟨1⟩, [report 2, report 3]), (⟨11⟩, [report 3]), (⟨11⟩, []), (⟨22⟩, [report 3])]
    ((batches.Pairwise fun a b => a.1 ≤ b.1) ∧
        ∀ b ∈ batches, b.2 ≠ [] → ∃ expires, b.1.later (.ofNanos 10) = .ok expires) ∧
      ∃ d, passEach { expiry := .ofNanos 10, mark := false } batches = .ok (d, [[report 2], [], [], [report 3]]) ∧
        d.owners.get? (key (report 2).id) = some { interface := 3, expires := ⟨32⟩ } := by
  intro report batches
  have horder : batches.Pairwise fun a b => a.1 ≤ b.1 := by decide
  have hfits : ∀ b ∈ batches, b.2 ≠ [] → ∃ expires, b.1.later (.ofNanos 10) = .ok expires := by
    have hall : ∀ b ∈ batches, (b.1.later (.ofNanos 10)).isOk = true := by decide +kernel
    intro b hb _
    have := hall b hb
    cases hlater : b.1.later (.ofNanos 10) with
    | ok expires => exact ⟨expires, rfl⟩
    | error e => simp [hlater, Except.isOk, Except.toBool] at this
  obtain ⟨d, hpass, howners⟩ := passEach_eq_answers (.ofNanos 10) false batches horder hfits
  refine ⟨⟨horder, hfits⟩, d, ?_, ?_⟩
  · rw [hpass]
    exact congrArg (fun kept => Except.ok (d, kept)) (by decide +kernel)
  · rw [howners]
    decide +kernel

end Dedup
end Export
end FlowMeter
