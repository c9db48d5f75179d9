import FlowMeter.Proofs.WorkerBooks
/-!
# A worker while the shards are emptied

Before it is asked, a worker is quiet; then the request waits in its inbox behind the packets that came before, until it is
answered; and a worker whose answer was taken is done, with nothing left in it.  No step of the worker leads out of these
(`Steady`).
-/
namespace FlowMeter.Pool.Worker

/-- The worker has not been asked, and all of its answers have been taken. -/
structure Quiet (w : Worker) : Prop where
  inbox : .evict ∉ w.inbox
  replies : w.replies = []

/-- Nothing is left in the worker but its answers. -/
structure Emptied (w : Worker) : Prop where
  condition : w.condition = .working
  inbox : w.inbox = []
  shard : w.meter.shard.snapshot = []

/-- The worker has been asked. -/
inductive Asked (w : Worker) : Prop
  /-- The packets before the request are still to be handled. -/
  | pending (before : List Message) (inbox : w.inbox = before ++ [.evict]) (packets : .evict ∉ before)
      (replies : w.replies = [])
  | answered (answer : Flow.Snapshot) (emptied : w.Emptied) (replies : w.replies = [answer])

/-- The worker's answer has been taken. -/
structure Done (w : Worker) : Prop where
  emptied : w.Emptied
  replies : w.replies = []

theorem Done.quiet {w : Worker} (h : w.Done) : w.Quiet := ⟨by simp [h.emptied.inbox], h.replies⟩

theorem Quiet.ask {w : Worker} (h : w.Quiet) : Asked { w with inbox := w.inbox ++ [.evict] } :=
  .pending w.inbox rfl h.inbox h.replies

theorem Quiet.accept {w : Worker} (h : w.Quiet) (p : Packet) (fate : Fate) :
    Quiet { w with inbox := w.inbox ++ [.packet p fate] } :=
  ⟨by simp [h.inbox], h.replies⟩

/-- Something that a worker does at any stage: it keeps the books, and the worker stays at its stage. -/
structure Steady (act : Worker → Shared → Worker × Shared) (news : Worker → Shared → List Outcome) : Prop where
  books {s : MeterSettings} {draws : List UInt32} {boot : WallTime} {w : Worker} {l : Agent.Ledger} {sh : Shared} :
    WorkerBooks s draws boot w l → Datable boot sh.clock.now →
      Flow.AllDatable boot (sh.queue.records.map Flow.Record.entry) →
        BookedStep s draws boot w (act w sh).1 sh (act w sh).2 l (l.learn (news w sh))
  quiet {w : Worker} (sh : Shared) : w.Quiet → (act w sh).1.Quiet
  asked {w : Worker} (sh : Shared) : w.Asked → (∀ p, .packet p .dies ∉ w.inbox) → (act w sh).1.Asked
  emptied {w : Worker} (sh : Shared) : w.Emptied → act w sh = (w, sh)

theorem replies_meet (w : Worker) (sh : Shared) (p : Packet) (fate : Fate) : (w.meet sh p fate).1.replies = w.replies := by
  cases fate <;> rfl

theorem inbox_meet (w : Worker) (sh : Shared) (p : Packet) {fate : Fate} (h : fate ≠ .dies) :
    (w.meet sh p fate).1.inbox = w.inbox := by
  cases fate with
  | proceeds => rfl
  | stalls => rfl
  | dies => exact absurd rfl h

theorem inbox_meet_suffix (w : Worker) (sh : Shared) (p : Packet) (fate : Fate) : (w.meet sh p fate).1.inbox <:+ w.inbox := by
  cases fate with
  | proceeds => exact List.suffix_rfl
  | stalls => exact List.suffix_rfl
  | dies => exact List.nil_suffix

/-- A worker that has nothing to do, or cannot do it. -/
def Resting (w : Worker) : Prop := w.condition = .working → w.inbox = []

theorem Emptied.resting {w : Worker} (h : w.Emptied) : w.Resting := fun _ => h.inbox

theorem Resting.of_stopped {w : Worker} (h : w.condition = .stopped) : w.Resting := fun hc => by
  rw [h] at hc
  cases hc

theorem Resting.work {w : Worker} (h : w.Resting) (sh : Shared) : w.work sh = (w, sh) := by
  rcases w.work_cases sh with ⟨p, fate, rest, hc, hi, -⟩ | ⟨rest, hc, hi, -, -⟩ | ⟨hwork, -⟩
  · rw [h hc] at hi
    cases hi
  · rw [h hc] at hi
    cases hi
  · exact hwork

theorem quiet_work {w : Worker} (sh : Shared) (h : w.Quiet) : (w.work sh).1.Quiet := by
  rcases w.work_cases sh with ⟨p, fate, rest, hc, hi, hwork⟩ | ⟨rest, hc, hi, hwork, -⟩ | ⟨hwork, -⟩
  · have hrest : .evict ∉ rest := fun hmem => h.inbox (hi ▸ List.mem_cons_of_mem _ hmem)
    rw [hwork]
    refine ⟨?_, (replies_meet ..).trans h.replies⟩
    cases fate with
    | proceeds => exact hrest
    | stalls => exact hrest
    | dies => exact List.not_mem_nil
  · exact absurd (hi ▸ List.mem_cons_self) h.inbox
  · rw [hwork]
    exact h

theorem asked_work {w : Worker} (sh : Shared) (h : w.Asked) (hfates : ∀ p, .packet p .dies ∉ w.inbox) :
    (w.work sh).1.Asked := by
  cases h with
  | answered answer emptied replies =>
    rw [emptied.resting.work]
    exact .answered answer emptied replies
  | pending before inbox packets replies =>
    rcases w.work_cases sh with ⟨p, fate, rest, hc, hi, hwork⟩ | ⟨rest, hc, hi, hwork, -⟩ | ⟨hwork, -⟩
    · have hfate : fate ≠ .dies := by
        rintro rfl
        exact hfates p (hi ▸ List.mem_cons_self)
      rw [hwork]
      cases before with
      | nil =>
        rw [hi] at inbox
        cases inbox
      | cons m before =>
        rw [hi, List.cons_append] at inbox
        refine .pending before ?_ (fun hmem => packets (List.mem_cons_of_mem _ hmem)) ((replies_meet ..).trans replies)
        rw [inbox_meet _ sh p hfate]
        exact (List.cons.inj inbox).2
    · rw [hwork]
      cases before with
      | nil =>
        rw [hi, List.nil_append] at inbox
        refine .answered w.meter.shard.snapshot ⟨hc, (List.cons.inj inbox).2, rfl⟩ ?_
        show w.replies ++ _ = _
        rw [replies, List.nil_append]
      | cons m before =>
        rw [hi, List.cons_append] at inbox
        exact absurd ((List.cons.inj inbox).1 ▸ List.mem_cons_self) packets
    · rw [hwork]
      exact .pending before inbox packets replies

theorem steady_work : Steady work outcomesOfWork where
  books h hnow hq := h.work hnow hq
  quiet := quiet_work
  asked := asked_work
  emptied sh h := h.resting.work sh

theorem resume_cases (w : Worker) (sh : Shared) :
    (∃ sighting, w.condition = .held sighting ∧ (w.resume sh).1 = { w with condition := .working }) ∨
      w.resume sh = (w, sh) := by
  rw [resume]
  split
  · rename_i sighting hc
    exact .inl ⟨sighting, hc, rfl⟩
  · exact .inr rfl

theorem resume_of_alive {w : Worker} (h : w.condition ≠ .stopped) (sh : Shared) :
    (w.resume sh).1 = { w with condition := .working } := by
  obtain ⟨meter, inbox, condition, replies⟩ := w
  cases condition with
  | working => rfl
  | held sighting => rfl
  | stopped => exact absurd rfl h

/-- **A worker that goes on handles a message more.** -/
theorem inbox_work_resume {w : Worker} (halive : w.condition ≠ .stopped) (hfates : ∀ p, .packet p .dies ∉ w.inbox)
    (sh sh' : Shared) : ((w.resume sh).1.work sh').1.inbox = w.inbox.tail := by
  rw [resume_of_alive halive]
  cases hi : w.inbox with
  | nil => simp only [work, List.tail_nil]
  | cons m rest =>
    cases m with
    | packet p fate =>
      have hfate : fate ≠ .dies := by
        rintro rfl
        exact hfates p (hi ▸ List.mem_cons_self)
      simp only [work]
      exact inbox_meet _ _ p hfate
    | evict =>
      simp only [work]
      rfl

theorem inbox_work_suffix (w : Worker) (sh : Shared) : (w.work sh).1.inbox <:+ w.inbox := by
  rcases w.work_cases sh with ⟨p, fate, rest, -, hi, hwork⟩ | ⟨rest, -, hi, hwork, -⟩ | ⟨hwork, -⟩
  · rw [hwork, hi]
    exact (inbox_meet_suffix ..).trans (List.suffix_cons ..)
  · rw [hwork, hi]
    exact List.suffix_cons ..
  · simp only [hwork, List.suffix_refl]

theorem length_inbox_work {w : Worker} (hc : w.condition = .working) (sh : Shared) :
    (w.work sh).1.inbox.length ≤ w.inbox.length - 1 := by
  rw [work, hc]
  cases hi : w.inbox with
  | nil => simp only [hi, List.length_nil, Nat.zero_sub, Nat.le_refl]
  | cons m rest =>
    cases m with
    | packet p fate =>
      cases fate with
      | proceeds => exact Nat.le_refl _
      | stalls => exact Nat.le_refl _
      | dies => exact Nat.zero_le _
    | evict => exact Nat.le_refl _

/-- A worker that goes on has a message less, or has died. -/
theorem length_inbox_work_resume {w : Worker} (halive : w.condition ≠ .stopped) (sh sh' : Shared) :
    ((w.resume sh).1.work sh').1.inbox.length ≤ w.inbox.length - 1 := by
  rw [resume_of_alive halive]
  exact length_inbox_work rfl sh'

theorem steady_resume : Steady resume outcomesOfResume where
  books h _ hq := h.resume hq
  quiet {w} sh h := by
    rcases w.resume_cases sh with ⟨_, -, hw⟩ | hw <;> rw [hw]
    exacts [⟨h.inbox, h.replies⟩, h]
  asked {w} sh h _ := by
    rcases w.resume_cases sh with ⟨_, hc, hw⟩ | hw <;> rw [hw]
    · cases h with
      | pending before inbox packets replies => exact .pending before inbox packets replies
      | answered answer emptied replies =>
        rw [emptied.condition] at hc
        cases hc
    · exact h
  emptied {w} sh h := by
    rcases w.resume_cases sh with ⟨_, hc, -⟩ | hw
    · rw [h.condition] at hc
      cases hc
    · exact hw

end FlowMeter.Pool.Worker
