import Chip8Vm.State

/-!
# Replies

What a call on the machine gives back: a result or a refusal, the state afterwards (also after
a refusal), and the lines printed meanwhile.
-/

namespace Chip8Vm

structure Reply (ε α : Type) where
  result : Except ε α
  state : State
  printed : List String

namespace Reply

variable {ε ε' α β : Type}

/-- A result without printed lines. -/
def ok (a : α) (s : State) : Reply ε α := ⟨.ok a, s, []⟩

/-- A refusal that leaves the state as it is given. -/
def refuse (e : ε) (s : State) : Reply ε α := ⟨.error e, s, []⟩

/-- The same reply under other names for refusals and results. -/
def relabel (f : ε → ε') (g : α → β) (r : Reply ε α) : Reply ε' β :=
  ⟨match r.result with
    | .ok a => .ok (g a)
    | .error e => .error (f e), r.state, r.printed⟩

/-- The same reply after some printed lines. -/
def after (lines : List String) (r : Reply ε α) : Reply ε α :=
  { r with printed := lines ++ r.printed }

/-- The same reply with lines printed after a result, and none after a refusal. -/
def note (lines : α → List String) (r : Reply ε α) : Reply ε α :=
  match r.result with
  | .ok a => { r with printed := r.printed ++ lines a }
  | .error _ => r

theorem state_relabel (f : ε → ε') (g : α → β) (r : Reply ε α) :
    (r.relabel f g).state = r.state := rfl

theorem error_of_relabel {f : ε → ε'} {g : α → β} {r : Reply ε α} {e' : ε'}
    (h : (r.relabel f g).result = .error e') : ∃ e, r.result = .error e ∧ f e = e' := by
  unfold relabel at h
  cases hr : r.result with
  | ok a => simp [hr] at h
  | error e => exact ⟨e, rfl, by simpa [hr] using h⟩

theorem result_relabel_error (f : ε → ε') (g : α → β) {r : Reply ε α} {e : ε}
    (h : r.result = .error e) : (r.relabel f g).result = .error (f e) := by
  simp [relabel, h]

theorem state_after (lines : List String) (r : Reply ε α) : (r.after lines).state = r.state := rfl

theorem result_after (lines : List String) (r : Reply ε α) :
    (r.after lines).result = r.result := rfl

theorem state_note (lines : α → List String) (r : Reply ε α) : (r.note lines).state = r.state := by
  unfold note; split <;> rfl

theorem result_note (lines : α → List String) (r : Reply ε α) :
    (r.note lines).result = r.result := by
  unfold note; split <;> rfl

end Reply

end Chip8Vm
