import Chip8Vm.Proofs.Concern
import Chip8Vm.Proofs.Simulation

/-!
# Switching on again

A machine that is reset is a new machine with the same index mode, except for its place in the
random source. A new machine that is given the rest of the random source, `Surroundings.later`,
cannot be told from it: the two only count the random bytes from different places (`Ahead`), and the
one instruction that draws a byte finds the same one (`Ahead.execute`). `replies_of_reset` says so
for every machine, whatever it has gone through, and every history after the reset.
-/

namespace Chip8Vm

/-- The same surroundings with a random source from which `n` bytes have been drawn already. -/
def Surroundings.later (env : Surroundings) (n : Nat) : Surroundings :=
  { env with random := fun k => env.random (n + k) }

namespace State

variable {i : Instruction} {s t : State} {n : Nat}

/-- The first machine is the second one with `n` more random bytes drawn. -/
def Ahead (n : Nat) (s t : State) : Prop := s = { t with drawn := n + t.drawn }

/-- Only drawing a random byte depends on the random source. -/
theorem execute_random_congr (random random' : Nat → Nat) (h : i.op ≠ .random) (s : State) :
    s.execute random i = s.execute random' i := by
  unfold execute
  cases hop : i.op with
  | random => exact absurd hop h
  | _ => rfl

namespace Ahead

variable (h : s.Ahead n t)

include h

/-- An instruction draws the same byte from either place. -/
theorem execute (random : Nat → Nat) (i : Instruction) :
    (s.execute random i).state.Ahead n (t.execute (fun k => random (n + k)) i).state := by
  obtain rfl := h
  by_cases hcell : Cell.drawn ∈ i.op.cells
  · unfold State.execute
    cases hop : i.op with
    | random => rfl
    | _ => simp [hop, Op.cells] at hcell
  · have hkeeps : ∀ c ∈ i.op.cells, Edit.Keeps { drawn := (n + ·) } c := by
      intro c hc
      cases c with
      | drawn => exact absurd hc hcell
      | _ => rfl
    have hop : i.op ≠ .random := fun hop => hcell (by simp [hop, Op.cells])
    have hedit := execute_edit (fun k => random (n + k)) hkeeps t
    rw [Ahead, execute_random_congr random (fun k => random (n + k)) hop]
    exact congrArg Reply.state hedit

/-- The report does not show how many random bytes have been drawn. -/
theorem report : s.report = t.report := by
  obtain rfl := h
  rfl

end Ahead

theorem simulation_ahead (random : Nat → Nat) (n : Nat) :
    Simulation random (fun k => random (n + k)) (Ahead n) fun u v => u.report = v.report where
  alike := by
    rintro _ t rfl
    exact ⟨t.index, t.stack, t.keyRegister, t.drawn, rfl, fun _ => rfl⟩
  reports h := h.report
  blind := by
    rintro _ t rfl memory registers pc keys delay sound dirty waiting -
    rfl
  execute h _ := h.execute random _
  reset := by
    rintro _ t rfl
    rfl

/-- **A machine that is switched on again is a new one**, except that its random source goes on from
the place it has got to: every call has the same outcome, prints the same and leaves the same state,
in which only the count of random bytes goes on from that place, too. -/
theorem replies_of_reset (env : Surroundings) (s : State) (history : List Operation) :
    List.Forall₂ (Reply.Matches (Ahead s.drawn) Eq) (s.reset.replies env history)
      ((fresh s.advanceIndex).replies (env.later s.drawn) history) := by
  have hahead : s.reset.Ahead s.drawn (fresh s.advanceIndex) := rfl
  have hreplies := (simulation_ahead env.random s.drawn).replies history hahead
  exact hreplies.imp fun r r' h => ⟨h.result.eq fun u v huv => huv, h.state, h.printed⟩

end State

end Chip8Vm
