import FlowMeter.Proofs.ShardContents
import FlowMeter.Proofs.WorkerStages
/-!
# What a worker holds

Of the packets that a worker has accepted since it was last asked, those that it has handled are in its shard, or in an answer
that waits, and the others wait in its inbox (`Worker.Holds`).  All that a worker does keeps that, so its next answer shows what is
owed for all of them (`Worker.Holds.give`).
-/
namespace FlowMeter.Pool

open FlowMeter.Flow (kept observed owed volumes)

namespace Worker

/-- A worker at work that holds these packets, in its shard, in an answer that waits or in its inbox. -/
structure Holds (room : Nat) (packets : List Packet) (w : Worker) : Prop where
  sampling : w.meter.settings.sampling = 0
  capacity : w.meter.shard.capacity = room
  alive : w.condition ≠ .stopped
  fates : ∀ p, .packet p .dies ∉ w.inbox
  shown : ∃ handled, w.replies.headD w.meter.shard.snapshot = kept room (observed handled) ∧
    handled.map Prod.fst ++ w.inbox.filterMap Message.packet? = packets

/-- The worker does not come to a stand. -/
def Calm (w : Worker) : Prop := ∀ p, .packet p .stalls ∉ w.inbox

/-- The worker comes to the end of its inbox without a pause. -/
structure Swift (w : Worker) : Prop where
  condition : w.condition = .working
  calm : w.Calm
  fates : ∀ p, .packet p .dies ∉ w.inbox

variable {room : Nat} {packets : List Packet} {w : Worker}

theorem replies_of_inbox (h : w.Quiet ∨ w.Asked) (hi : w.inbox ≠ []) : w.replies = [] := by
  rcases h with h | h
  · exact h.replies
  · cases h with
    | pending _ _ _ replies => exact replies
    | answered _ emptied _ => exact absurd emptied.inbox hi

theorem Calm.append (h : w.Calm) {m : Message} (hm : ∀ p, m ≠ .packet p .stalls) : Calm { w with inbox := w.inbox ++ [m] } :=
  fun p => List.not_mem_append (h p) fun hp => hm p (List.mem_singleton.1 hp).symm

theorem Calm.work (h : w.Calm) (sh : Shared) : (w.work sh).1.Calm := fun p hp => h p ((w.inbox_work_suffix sh).subset hp)

namespace Holds

/-- **A worker that handles a message holds what it held.** -/
theorem work (h : w.Holds room packets) (hstage : w.Quiet ∨ w.Asked) (sh : Shared) : (w.work sh).1.Holds room packets := by
  have hfates : ∀ p, .packet p .dies ∉ (w.work sh).1.inbox := fun p hp => h.fates p ((w.inbox_work_suffix sh).subset hp)
  obtain ⟨handled, hshown, hwaiting⟩ := h.shown
  rcases w.work_cases sh with ⟨p, fate, rest, hc, hi, hwork⟩ | ⟨rest, hc, hi, hwork, -⟩ | ⟨hwork, -⟩
  · have hreplies := replies_of_inbox hstage (by simp [hi])
    rw [hreplies, List.headD_nil, ← h.capacity] at hshown
    obtain ⟨hsettings, hcapacity, htake⟩ := Flow.kept_take h.sampling hshown sh.clock p
    rw [h.capacity] at htake hcapacity
    rw [hwork] at hfates ⊢
    have hpackets : (handled ++ [(p, sh.clock.now)]).map Prod.fst ++ rest.filterMap Message.packet? = packets := by
      rw [List.map_append, List.append_assoc]
      rw [hi] at hwaiting
      exact hwaiting
    have hheld : w.replies.headD (w.meter.take sh.clock none p).1.shard.snapshot =
        kept room (observed (handled ++ [(p, sh.clock.now)])) := by
      rw [hreplies]
      exact htake
    cases fate with
    | proceeds => exact ⟨hsettings ▸ h.sampling, hcapacity, by simp [meet, hc], hfates, _, hheld, hpackets⟩
    | stalls => exact ⟨hsettings ▸ h.sampling, hcapacity, by simp [meet], hfates, _, hheld, hpackets⟩
    | dies => exact absurd (hi ▸ List.mem_cons_self) (h.fates p)
  · have hreplies := replies_of_inbox hstage (by simp [hi])
    rw [hwork] at hfates ⊢
    refine ⟨h.sampling, h.capacity, h.alive, hfates, handled, ?_, ?_⟩
    · rw [hreplies] at hshown
      simp only [surrender, hreplies, List.nil_append]
      exact hshown
    · rw [hi] at hwaiting
      exact hwaiting
  · rw [hwork]
    exact h

theorem resume (h : w.Holds room packets) (sh : Shared) : (w.resume sh).1.Holds room packets := by
  rcases w.resume_cases sh with ⟨_, -, hw⟩ | hw <;> rw [hw]
  exacts [⟨h.sampling, h.capacity, by simp, h.fates, h.shown⟩, h]

theorem accept (h : w.Holds room packets) (p : Packet) {fate : Fate} (hfate : fate ≠ .dies) :
    Holds room (packets ++ [p]) { w with inbox := w.inbox ++ [.packet p fate] } := by
  obtain ⟨handled, hshown, rfl⟩ := h.shown
  refine ⟨h.sampling, h.capacity, h.alive, fun q => List.not_mem_append (h.fates q) ?_, handled, hshown, ?_⟩
  · simp [Ne.symm hfate]
  · rw [List.filterMap_append, List.append_assoc]
    rfl

theorem ask (h : w.Holds room packets) : Holds room packets { w with inbox := w.inbox ++ [.evict] } := by
  obtain ⟨handled, hshown, rfl⟩ := h.shown
  refine ⟨h.sampling, h.capacity, h.alive, fun q => List.not_mem_append (h.fates q) (by simp), handled, hshown, ?_⟩
  rw [List.filterMap_append]
  exact congrArg _ (List.append_nil _)

/-- **The answer of a worker is what is owed for the packets that it holds**, and nothing is left when it is taken. -/
theorem give (h : w.Holds room packets) {answer : Flow.Snapshot} (hemptied : w.Emptied) (hreplies : w.replies = [answer]) :
    volumes answer = owed room packets ∧ Holds room [] { w with replies := [] } := by
  obtain ⟨handled, hshown, hpackets⟩ := h.shown
  rw [hreplies, List.headD_cons] at hshown
  rw [hemptied.inbox, List.filterMap_nil, List.append_nil] at hpackets
  have hnone : kept room (observed []) = [] := by simp [kept, observed, Flow.firstFlows]
  refine ⟨by rw [hshown, Flow.volumes_kept, hpackets], h.sampling, h.capacity, h.alive, h.fates, [], ?_, ?_⟩
  · rw [hnone]
    exact hemptied.shard
  · show [] ++ w.inbox.filterMap _ = _
    rw [hemptied.inbox]
    rfl

end Holds

theorem Resting.finish (h : w.Resting) (sh : Shared) : w.finish sh = (w, sh) := by
  rw [Worker.finish]
  generalize w.inbox.length = n
  induction n with
  | zero => rfl
  | succ n ih =>
    simp only [Nat.repeat]
    rw [ih]
    exact h.work sh

/-- What every step keeps is kept to the end. -/
theorem finish_induction {P : Worker → Prop} (hstep : ∀ w sh, P w → P (w.work sh).1) (h : P w) (sh : Shared) :
    P (w.finish sh).1 := by
  rw [finish]
  generalize w.inbox.length = n
  induction n with
  | zero => exact h
  | succ n ih => exact hstep _ _ ih

/-- **A worker that is left to itself comes to rest.** -/
theorem resting_finish (w : Worker) (sh : Shared) : (w.finish sh).1.Resting := by
  -- as long as it is not at rest, each step has taken a message
  have hsteps : ∀ n : Nat, (n.repeat (fun r => r.1.work r.2) (w, sh)).1.Resting ∨
      (n.repeat (fun r => r.1.work r.2) (w, sh)).1.inbox.length + n ≤ w.inbox.length := by
    intro n
    induction n with
    | zero => exact .inr (Nat.le_refl _)
    | succ n ih =>
      simp only [Nat.repeat]
      generalize n.repeat (fun r => r.1.work r.2) (w, sh) = r at ih
      by_cases hrest : r.1.Resting
      · exact .inl (by rw [hrest.work]; exact hrest)
      · obtain ⟨hc, hi⟩ := Classical.not_imp.1 hrest
        have hlength := length_inbox_work hc r.2
        have hpos := List.length_pos_iff.2 hi
        have hle := ih.resolve_left hrest
        exact .inr (by omega)
  rcases hsteps w.inbox.length with h | h
  · exact h
  · have hle : (w.finish sh).1.inbox.length + w.inbox.length ≤ w.inbox.length := h
    exact fun _ => List.eq_nil_of_length_eq_zero (by omega)

theorem Swift.work (h : w.Swift) (sh : Shared) : (w.work sh).1.Swift := by
  refine ⟨?_, h.calm.work sh, fun p hp => h.fates p ((w.inbox_work_suffix sh).subset hp)⟩
  rcases w.work_cases sh with ⟨p, fate, rest, hc, hi, hwork⟩ | ⟨rest, hc, -, hwork, -⟩ | ⟨hwork, -⟩
  · rw [hwork]
    cases fate with
    | proceeds => exact hc
    | stalls => exact absurd (hi ▸ List.mem_cons_self) (h.calm p)
    | dies => exact absurd (hi ▸ List.mem_cons_self) (h.fates p)
  · rw [hwork]
    exact hc
  · rw [hwork]
    exact h.condition

theorem Swift.finish (h : w.Swift) (sh : Shared) : (w.finish sh).1.Swift :=
  finish_induction (P := Swift) (fun _ sh hw => hw.work sh) h sh

theorem Swift.inbox_finish (h : w.Swift) (sh : Shared) : (w.finish sh).1.inbox = [] := w.resting_finish sh (h.finish sh).condition

end Worker
end FlowMeter.Pool
