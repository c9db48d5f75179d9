import FlowMeter.Proofs.BatchRounds
/-!
# The order of a batch

The reports of one batch come in no particular order.  All that the order decides is who becomes the owner of a flow that has none,
and only if several interfaces show it (`Dedup.pass_perm`): of a flow that has an owner, or that one interface shows, the same
reports are duplicates in every order.
-/
namespace FlowMeter.Export.Dedup

/-- The owner of a flow, if it is not to be forgotten yet. -/
def live? (d : Dedup) (now : Instant) (k : Flow.Id) : Option Owner := (d.owners.get? k).filter fun o => now ≤ o.expires

section

variable {d : Dedup} {b : Batch} {k : Flow.Id}

theorem get?_heard (d : Dedup) (b : Batch) (k : Flow.Id) :
    (d.heard b).owners.get? k =
      match b.2.find? fun r => key r.id = k with
      | some r => some (renewed r.id ⟨b.1.nanos + d.expiry.toNanos⟩ (d.live? b.1 k))
      | none => d.live? b.1 k := by
  have hswept : (d.sweep b.1).owners.get? k = d.live? b.1 k := Table.get?_filter ..
  have hnoted := get?_noted ⟨b.1.nanos + d.expiry.toNanos⟩ k b.2 (d.sweep b.1).owners
  rw [hswept] at hnoted
  exact hnoted

/-- **What a batch makes of the owner of a flow.**  It is not shown, or it has an owner and keeps it, or some report of it comes
first. -/
theorem heard_cases (d : Dedup) (b : Batch) (k : Flow.Id) :
    ((∀ r ∈ b.2, key r.id ≠ k) ∧ (d.heard b).owners.get? k = d.live? b.1 k) ∨
      (∃ r ∈ b.2, key r.id = k) ∧
        ((∃ o, d.live? b.1 k = some o ∧
            (d.heard b).owners.get? k = some { o with expires := ⟨b.1.nanos + d.expiry.toNanos⟩ }) ∨
          d.live? b.1 k = none ∧ ∃ r ∈ b.2, key r.id = k ∧
            (d.heard b).owners.get? k = some { interface := r.id.interface, expires := ⟨b.1.nanos + d.expiry.toNanos⟩ }) := by
  rw [get?_heard]
  cases hfind : b.2.find? fun r => key r.id = k with
  | none =>
    rw [List.find?_eq_none] at hfind
    exact .inl ⟨fun r hr => by simpa using hfind r hr, rfl⟩
  | some r =>
    have hr : r ∈ b.2 := List.mem_of_find?_eq_some hfind
    have hkey : key r.id = k := by simpa using List.find?_some hfind
    refine .inr ⟨⟨r, hr, hkey⟩, ?_⟩
    cases d.live? b.1 k with
    | none => exact .inr ⟨rfl, r, hr, hkey, rfl⟩
    | some o => exact .inl ⟨o, rfl, rfl⟩

theorem isDuplicate_eq {o : Owner} {id : Flow.Id} (ho : d.owners.get? (key id) = some o) :
    d.isDuplicate id = decide (o.interface ≠ id.interface) := by
  unfold isDuplicate
  rw [ho]

/-- Of reports that arrive without a mark, those that are not duplicates come out without one. -/
theorem exists_unmarked_iff {reports : List Report} (hfresh : ∀ r ∈ reports, r.duplicate = false) (k : Flow.Id) :
    (∃ r ∈ d.judged reports, key r.id = k ∧ r.duplicate = false) ↔
      ∃ r ∈ reports, key r.id = k ∧ d.isDuplicate r.id = false := by
  unfold judged
  constructor
  · rintro ⟨s, hs, hkey, hunmarked⟩
    obtain ⟨r, hr, hkeep⟩ := List.mem_filterMap.1 hs
    unfold keep? at hkeep
    cases hdup : d.isDuplicate r.id with
    | true =>
      simp only [hdup, if_true] at hkeep
      split at hkeep
      · cases hkeep
        cases hunmarked
      · cases hkeep
    | false =>
      simp only [hdup, Bool.false_eq_true, if_false] at hkeep
      cases hkeep
      exact ⟨_, hr, hkey, hdup⟩
  · rintro ⟨r, hr, hkey, hdup⟩
    refine ⟨r, List.mem_filterMap.2 ⟨r, hr, ?_⟩, hkey, hfresh r hr⟩
    rw [hdup]
    rfl

/-- **Of a flow that a batch shows, a report comes out without a mark just if the flow had no owner or its owner reports it.** -/
theorem exists_unmarked_heard_iff (hfresh : ∀ r ∈ b.2, r.duplicate = false) (hk : ∃ r ∈ b.2, key r.id = k) :
    (∃ r ∈ (d.heard b).judged b.2, key r.id = k ∧ r.duplicate = false) ↔
      d.live? b.1 k = none ∨ ∃ o, d.live? b.1 k = some o ∧ ∃ r ∈ b.2, key r.id = k ∧ r.id.interface = o.interface := by
  rw [exists_unmarked_iff hfresh]
  rcases d.heard_cases b k with ⟨hnot, -⟩ | ⟨-, ⟨o, hlive, howner⟩ | ⟨hlive, r, hr, hkey, howner⟩⟩
  · obtain ⟨r, hr, hkey⟩ := hk
    exact absurd hkey (hnot r hr)
  · have hdup : ∀ r : Report, key r.id = k → ((d.heard b).isDuplicate r.id = false ↔ r.id.interface = o.interface) := by
      intro r hkey
      rw [isDuplicate_eq (hkey ▸ howner), decide_eq_false_iff_not, ne_eq, Classical.not_not]
      exact eq_comm
    rw [hlive]
    simp only [reduceCtorEq, false_or, Option.some.injEq, exists_eq_left']
    constructor
    · rintro ⟨r, hr, hkey, hnot⟩
      exact ⟨r, hr, hkey, (hdup r hkey).1 hnot⟩
    · rintro ⟨r, hr, hkey, hsame⟩
      exact ⟨r, hr, hkey, (hdup r hkey).2 hsame⟩
  · refine iff_of_true ⟨r, hr, hkey, ?_⟩ (.inl hlive)
    rw [isDuplicate_eq (hkey ▸ howner), decide_eq_false_iff_not]
    exact fun hne => hne rfl

/-- **In another order, a batch makes the same of the owner of a flow, or another report of the flow comes first.** -/
theorem heard_perm_cases (d : Dedup) (now : Instant) {reports others : List Report} (hperm : reports.Perm others) (k : Flow.Id) :
    (d.heard (now, others)).owners.get? k = (d.heard (now, reports)).owners.get? k ∨
      d.live? now k = none ∧ ∃ r ∈ reports, ∃ s ∈ reports, key r.id = k ∧ key s.id = k ∧ r.id.interface ≠ s.id.interface ∧
        ((d.heard (now, reports)).owners.get? k).map Owner.expires =
          ((d.heard (now, others)).owners.get? k).map Owner.expires := by
  rcases d.heard_cases (now, reports) k with ⟨hnot, howner⟩ | ⟨hshown, hcases⟩
  · rcases d.heard_cases (now, others) k with ⟨-, howner'⟩ | ⟨⟨s, hs, hkey⟩, -⟩
    · exact .inl (howner'.trans howner.symm)
    · exact absurd hkey (hnot s (hperm.mem_iff.2 hs))
  · rcases d.heard_cases (now, others) k with ⟨hnot', -⟩ | ⟨-, hcases'⟩
    · obtain ⟨r, hr, hkey⟩ := hshown
      exact absurd hkey (hnot' r (hperm.mem_iff.1 hr))
    · rcases hcases with ⟨o, hlive, howner⟩ | ⟨hlive, r, hr, hkey, howner⟩
      · rcases hcases' with ⟨o', hlive', howner'⟩ | ⟨hlive', -⟩
        · obtain rfl := Option.some.inj (hlive.symm.trans hlive')
          exact .inl (howner'.trans howner.symm)
        · cases hlive.symm.trans hlive'
      · rcases hcases' with ⟨o', hlive', -⟩ | ⟨-, s, hs, hkey', howner'⟩
        · cases hlive.symm.trans hlive'
        · by_cases hsame : r.id.interface = s.id.interface
          · rw [howner, howner', hsame]
            exact .inl rfl
          · refine .inr ⟨hlive, r, hr, s, hperm.mem_iff.2 hs, hkey, hkey', hsame, ?_⟩
            rw [howner, howner']
            rfl

/-- A flow with the same owner in both orders has the same left of its reports. -/
theorem judged_perm {d d' : Dedup} {keys : Flow.Id → Bool} (h : AgreeOn keys d d') {reports others : List Report}
    (hperm : reports.Perm others) :
    ((d.judged reports).filter fun r => keys (key r.id)).Perm ((d'.judged others).filter fun r => keys (key r.id)) := by
  rw [← h.judged reports, ← (AgreeOn.refl keys d').judged others]
  exact (hperm.filter _).filterMap _

end

/-- **All that the order of a batch decides is who becomes the owner of a flow that has none.**  In another order, the same flows have
owners afterwards, and for as long; another owner has only a flow that had none and that several interfaces show.  Of a flow with
the same owner, the same reports are dropped or marked.  And in every order, a flow of the batch has a report left without a mark
just if it had no owner, or its owner is among those that report it. -/
theorem pass_perm (d : Dedup) (now : Instant) (reports others : List Report) (hperm : reports.Perm others)
    (hfits : reports ≠ [] → ∃ expires, now.later d.expiry = .ok expires) (hfresh : ∀ r ∈ reports, r.duplicate = false) :
    ∃ d₁ kept₁ d₂ kept₂, d.pass now reports = .ok (d₁, kept₁) ∧ d.pass now others = .ok (d₂, kept₂) ∧
      ∀ k, (d₁.owners.get? k).map Owner.expires = (d₂.owners.get? k).map Owner.expires ∧
        (d₁.owners.get? k ≠ d₂.owners.get? k → d.live? now k = none ∧
          ∃ r ∈ reports, ∃ s ∈ reports, key r.id = k ∧ key s.id = k ∧ r.id.interface ≠ s.id.interface) ∧
        (d₁.owners.get? k = d₂.owners.get? k →
          (kept₁.filter fun r => key r.id = k).Perm (kept₂.filter fun r => key r.id = k)) ∧
        ((∃ r ∈ reports, key r.id = k) → ∀ kept ∈ [kept₁, kept₂],
          ((∃ r ∈ kept, key r.id = k ∧ r.duplicate = false) ↔
            d.live? now k = none ∨ ∃ o, d.live? now k = some o ∧ ∃ r ∈ reports, key r.id = k ∧ r.id.interface = o.interface)) := by
  have hfits' : others ≠ [] → d.InTime now := fun hne => hfits fun hnil => hne (by rw [hnil] at hperm; exact hperm.nil_eq.symm)
  refine ⟨d.heard (now, reports), _, d.heard (now, others), _, pass_eq (b := (now, reports)) (or_iff_not_imp_left.2 hfits),
    pass_eq (b := (now, others)) (or_iff_not_imp_left.2 hfits'), fun k => ⟨?_, fun hne => ?_, fun hsame => ?_, fun hk => ?_⟩⟩
  · rcases d.heard_perm_cases now hperm k with hsame | ⟨-, r, -, s, -, -, -, -, hexpires⟩
    · rw [hsame]
    · exact hexpires
  · rcases d.heard_perm_cases now hperm k with hsame | ⟨hlive, r, hr, s, hs, hkey, hkey', hother, -⟩
    · exact absurd hsame.symm hne
    · exact ⟨hlive, r, hr, s, hs, hkey, hkey', hother⟩
  · have hagree : AgreeOn (· = k) (d.heard (now, reports)) (d.heard (now, others)) :=
      ⟨rfl, rfl, fun k' hk' => by rw [of_decide_eq_true hk', hsame]⟩
    exact judged_perm hagree hperm
  · have hk' : ∃ r ∈ others, key r.id = k := by
      obtain ⟨r, hr, hkey⟩ := hk
      exact ⟨r, hperm.mem_iff.1 hr, hkey⟩
    have hfirst := exists_unmarked_heard_iff (d := d) (b := (now, reports)) hfresh hk
    have hsecond := exists_unmarked_heard_iff (d := d) (b := (now, others)) (fun r hr => hfresh r (hperm.mem_iff.2 hr)) hk'
    simp only [hperm.mem_iff] at hfirst ⊢
    simp only [List.forall_mem_cons]
    exact ⟨hfirst, hsecond, fun _ h => by cases h⟩

/-- A flow that has an owner and one that has none, each shown by other interfaces, in two orders. -/
theorem pass_perm_new_flow :
    let report (port : UInt16) (interface : UInt32) : Report := { (default : Report) with id := { srcPort := port, interface } }
    let d := ({ expiry := .ofNanos 10, mark := true } : Dedup).run [(⟨5⟩, [report 1 2])]
    let reports := [report 1 3, report 7 4, report 7 5]
    let others := [report 7 5, report 1 3, report 7 4]
    (reports.Perm others ∧ (reports ≠ [] → ∃ expires, (⟨15⟩ : Instant).later d.expiry = .ok expires) ∧
        ∀ r ∈ reports, r.duplicate = false) ∧
      ∃ d₁ kept₁ d₂ kept₂, d.pass ⟨15⟩ reports = .ok (d₁, kept₁) ∧ d.pass ⟨15⟩ others = .ok (d₂, kept₂) ∧
        kept₁.map Report.duplicate = [true, false, true] ∧ kept₂.map Report.duplicate = [false, true, true] ∧
        d₁.owners.get? (key (report 7 4).id) ≠ d₂.owners.get? (key (report 7 4).id) ∧
        d.live? ⟨15⟩ (key (report 7 4).id) = none ∧
        (kept₁.filter fun r => key r.id = key (report 1 3).id).Perm (kept₂.filter fun r => key r.id = key (report 1 3).id) := by
  intro report d reports others
  have hperm : reports.Perm others := by decide +kernel
  have hfits : reports ≠ [] → ∃ expires, (⟨15⟩ : Instant).later d.expiry = .ok expires := fun _ => ⟨⟨25⟩, by decide +kernel⟩
  have hfresh : ∀ r ∈ reports, r.duplicate = false := by decide +kernel
  obtain ⟨d₁, kept₁, d₂, kept₂, hpass, hpass', hall⟩ := pass_perm d ⟨15⟩ reports others hperm hfits hfresh
  obtain ⟨-, hdiffer, -, -⟩ := hall (key (report 7 4).id)
  obtain ⟨-, -, hsame, -⟩ := hall (key (report 1 3).id)
  let seen (out : Dedup × List Report) :=
    (out.2.map Report.duplicate, out.1.owners.get? (key (report 7 4).id), out.1.owners.get? (key (report 1 3).id))
  have hseen : (d.pass ⟨15⟩ reports).map seen = .ok ([true, false, true], some ⟨4, ⟨25⟩⟩, some ⟨2, ⟨25⟩⟩) := by decide +kernel
  have hseen' : (d.pass ⟨15⟩ others).map seen = .ok ([false, true, true], some ⟨5, ⟨25⟩⟩, some ⟨2, ⟨25⟩⟩) := by decide +kernel
  rw [hpass] at hseen
  rw [hpass'] at hseen'
  obtain ⟨hmarks, howners⟩ := Prod.mk.inj (Except.ok.inj hseen)
  obtain ⟨hmarks', howners'⟩ := Prod.mk.inj (Except.ok.inj hseen')
  obtain ⟨hnew, hold⟩ := Prod.mk.inj howners
  obtain ⟨hnew', hold'⟩ := Prod.mk.inj howners'
  have hne : d₁.owners.get? (key (report 7 4).id) ≠ d₂.owners.get? (key (report 7 4).id) := by
    rw [hnew, hnew']
    decide
  exact ⟨⟨hperm, hfits, hfresh⟩, d₁, kept₁, d₂, kept₂, hpass, hpass', hmarks, hmarks', hne, (hdiffer hne).1,
    hsame (hold.trans hold'.symm)⟩

end FlowMeter.Export.Dedup
