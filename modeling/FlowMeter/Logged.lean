import FlowMeter.Notice
/-!
# Notices on the way to a result

A computation that gives notices and then succeeds or fails; what was told before a failure stays told.  Main lemmas:
`Logged.andThen_assoc`, and `Logged.andThen_eq_ok_iff` for runs that succeed.
-/
namespace FlowMeter

structure Logged (ε α : Type) where
  notices : List Notice
  outcome : Except ε α

namespace Logged

variable {ε ε' α β : Type}

def succeed (a : α) : Logged ε α where
  notices := []
  outcome := .ok a

def fail (e : ε) : Logged ε α where
  notices := []
  outcome := .error e

def tell (notices : List Notice) : Logged ε Unit where
  notices
  outcome := .ok ()

/-- A result that nothing is told about. -/
def ofExcept (r : Except ε α) : Logged ε α where
  notices := []
  outcome := r

/-- One computation after another, unless the first fails. -/
def andThen (a : Logged ε α) (f : α → Logged ε β) : Logged ε β :=
  match a.outcome with
  | .ok x => { notices := a.notices ++ (f x).notices, outcome := (f x).outcome }
  | .error e => { notices := a.notices, outcome := .error e }

def mapError (f : ε → ε') (a : Logged ε α) : Logged ε' α where
  notices := a.notices
  outcome := a.outcome.mapError f

instance : Monad (Logged ε) where
  pure := succeed
  bind := andThen

theorem succeed_andThen (a : α) (f : α → Logged ε β) : (succeed a).andThen f = f a := rfl

theorem andThen_succeed (a : Logged ε α) : a.andThen succeed = a := by
  obtain ⟨notices, _ | _⟩ := a <;> simp [andThen, succeed]

/-- **How three computations are grouped does not matter.** -/
theorem andThen_assoc {γ : Type} (a : Logged ε α) (f : α → Logged ε β) (g : β → Logged ε γ) :
    (a.andThen f).andThen g = a.andThen fun x => (f x).andThen g := by
  obtain ⟨notices, e | x⟩ := a
  · rfl
  · simp only [andThen]
    obtain ⟨notices', e' | y⟩ := f x <;> simp

instance : LawfulMonad (Logged ε) :=
  LawfulMonad.mk' _ (fun a => andThen_succeed a) (fun _ _ => rfl) (fun a f g => andThen_assoc a f g)

/-- After a success, the rest goes on with its result. -/
theorem ok_bind (notices : List Notice) (x : α) (f : α → Logged ε β) :
    (Logged.mk notices (.ok x) >>= f) = ⟨notices ++ (f x).notices, (f x).outcome⟩ := rfl

theorem mapError_ok (f : ε → ε') (notices : List Notice) (x : α) :
    (Logged.mk notices (.ok x : Except ε α)).mapError f = ⟨notices, .ok x⟩ := rfl

/-- A succession succeeds when both of its parts do. -/
theorem andThen_eq_ok_iff {a : Logged ε α} {f : α → Logged ε β} {y : β} :
    (a.andThen f).outcome = .ok y ↔ ∃ x, a.outcome = .ok x ∧ (f x).outcome = .ok y := by
  obtain ⟨notices, e | x⟩ := a <;> simp [andThen]

/-- A succession fails when its first part does, or else its second. -/
theorem andThen_eq_error_iff {a : Logged ε α} {f : α → Logged ε β} {e : ε} :
    (a.andThen f).outcome = .error e ↔ a.outcome = .error e ∨ ∃ x, a.outcome = .ok x ∧ (f x).outcome = .error e := by
  obtain ⟨notices, e' | x⟩ := a <;> simp [andThen]

/-- What was told of a succession that succeeds was told of its first part and then of its second. -/
theorem eq_of_andThen_eq_ok {a : Logged ε α} {f : α → Logged ε β} {notices : List Notice} {y : β}
    (h : a.andThen f = ⟨notices, .ok y⟩) :
    ∃ first x second, a = ⟨first, .ok x⟩ ∧ f x = ⟨second, .ok y⟩ ∧ notices = first ++ second := by
  obtain ⟨first, e | x⟩ := a
  · cases h
  · have h' : Logged.mk (first ++ (f x).notices) (f x).outcome = ⟨notices, .ok y⟩ := h
    rw [Logged.mk.injEq] at h'
    refine ⟨first, x, (f x).notices, rfl, ?_, h'.1.symm⟩
    rw [← h'.2]

/-- A succession fails when one of its parts does, and the second has been told of only if the first did not. -/
theorem eq_of_andThen_eq_error {a : Logged ε α} {f : α → Logged ε β} {notices : List Notice} {e : ε}
    (h : a.andThen f = ⟨notices, .error e⟩) :
    a = ⟨notices, .error e⟩ ∨
      ∃ first x second, a = ⟨first, .ok x⟩ ∧ f x = ⟨second, .error e⟩ ∧ notices = first ++ second := by
  obtain ⟨first, e' | x⟩ := a
  · cases h
    exact .inl rfl
  · have h' : Logged.mk (first ++ (f x).notices) (f x).outcome = ⟨notices, .error e⟩ := h
    rw [Logged.mk.injEq] at h'
    refine .inr ⟨first, x, (f x).notices, rfl, ?_, h'.1.symm⟩
    rw [← h'.2]

theorem eq_of_ofExcept_eq_ok {r : Except ε α} {notices : List Notice} {x : α} (h : ofExcept r = ⟨notices, .ok x⟩) :
    notices = [] ∧ r = .ok x := by
  unfold ofExcept at h
  rw [Logged.mk.injEq] at h
  exact ⟨h.1.symm, h.2⟩

theorem eq_of_ofExcept_eq_error {r : Except ε α} {notices : List Notice} {e : ε} (h : ofExcept r = ⟨notices, .error e⟩) :
    notices = [] ∧ r = .error e := by
  unfold ofExcept at h
  rw [Logged.mk.injEq] at h
  exact ⟨h.1.symm, h.2⟩

theorem eq_of_mapError_eq_ok {f : ε → ε'} {a : Logged ε α} {notices : List Notice} {x : α}
    (h : a.mapError f = ⟨notices, .ok x⟩) : a = ⟨notices, .ok x⟩ := by
  obtain ⟨notices', e | x'⟩ := a <;> cases h
  rfl

end Logged
end FlowMeter
