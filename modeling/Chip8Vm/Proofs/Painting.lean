import Chip8Vm.Keypad
import Chip8Vm.Proofs.Step

/-!
# What paints

Two of the instructions paint: one clears the display and one draws on it. `Painted` says what any
other way from one state to another has to leave alone, namely the display and the mark that it
has changed, and that the two which paint set that mark. A step paints if the instruction it
executed does (`painted_step`), and nothing that the host does by the keypad or the timers paints.
-/

namespace Chip8Vm

/-- The operations that change the display. -/
def Op.paints : Op → Bool
  | .clearDisplay => true
  | .draw => true
  | _ => false

/-- Whether one of some instructions changes the display. -/
def Instruction.anyPaints (l : List Instruction) : Bool := l.any (·.op.paints)

theorem Instruction.anyPaints_iff {l : List Instruction} :
    anyPaints l = true ↔ ∃ i ∈ l, i.op = .clearDisplay ∨ i.op = .draw := by
  have hpaints (op : Op) : op.paints = true ↔ op = .clearDisplay ∨ op = .draw := by
    cases op <;> simp [Op.paints]
  simp only [anyPaints, List.any_eq_true, hpaints]

/-- Some instructions lead from one state to another, and the second is marked as changed if the
first was or one of them paints. If none of them does, the display is the same. -/
structure Painted (l : List Instruction) (s s' : State) : Prop where
  dirty : s'.dirty = (s.dirty || Instruction.anyPaints l)
  display : Instruction.anyPaints l = false → s'.display = s.display

namespace Painted

variable {l l' : List Instruction} {s s' s'' : State}

/-- What leaves the display and its mark alone. -/
theorem of_eq (hdirty : s'.dirty = s.dirty) (hdisplay : s'.display = s.display) :
    Painted [] s s' where
  dirty := by rw [hdirty, Instruction.anyPaints, List.any_nil, Bool.or_false]
  display _ := hdisplay

theorem trans (h : Painted l s s') (h' : Painted l' s' s'') : Painted (l ++ l') s s'' where
  dirty := by
    rw [h'.dirty, h.dirty, Bool.or_assoc]
    simp only [Instruction.anyPaints, List.any_append]
  display hpaint := by
    simp only [Instruction.anyPaints, List.any_append, Bool.or_eq_false_iff] at hpaint
    exact (h'.display hpaint.2).trans (h.display hpaint.1)

/-- An instruction that does not paint leaves the display and its mark alone. -/
theorem of_not_paints {i : Instruction} (hi : i.op.paints = false) (hdirty : s'.dirty = s.dirty)
    (hdisplay : s'.display = s.display) : Painted [i] s s' where
  dirty := by simp [Instruction.anyPaints, hi, hdirty]
  display _ := hdisplay

/-- An instruction that paints only has to set the mark. -/
theorem of_paints {i : Instruction} (hi : i.op.paints = true) (hdirty : s'.dirty = true) :
    Painted [i] s s' where
  dirty := by simp [Instruction.anyPaints, hi, hdirty]
  display hpaint := by simp [Instruction.anyPaints, hi] at hpaint

end Painted

namespace State

variable {s : State}

/-- Executing an instruction paints if it is one of the two. -/
theorem painted_execute (random : Nat → Nat) (i : Instruction) (s : State) :
    Painted [i] s (s.execute random i).state := by
  unfold execute
  cases hop : i.op with
  | clearDisplay => exact .of_paints (by rw [hop]; rfl) rfl
  | draw => exact .of_paints (by rw [hop]; rfl) rfl
  | ret =>
    cases hret : s.return? with
    | none => exact .of_not_paints (by rw [hop]; rfl) rfl rfl
    | some s' =>
      obtain ⟨-, rfl⟩ := eq_of_return? hret
      exact .of_not_paints (by rw [hop]; rfl) rfl rfl
  | call =>
    cases hcall : s.call? i.nnn with
    | none => exact .of_not_paints (by rw [hop]; rfl) rfl rfl
    | some s' =>
      obtain ⟨-, rfl⟩ := eq_of_call? hcall
      exact .of_not_paints (by rw [hop]; rfl) rfl rfl
  | skipEqualByte | skipUnequalByte | skipEqual | skipUnequal | skipPressed | skipReleased =>
    have hskip (condition : Bool) : Painted [i] s (s.skipIf condition) := by
      rw [skipIf_eq]
      exact .of_not_paints (by rw [hop]; rfl) rfl rfl
    exact hskip _
  | storeRegisters =>
    show Painted [i] s (s.storeRegisters i.x)
    rw [storeRegisters, advancePast_eq]
    exact .of_not_paints (by rw [hop]; rfl) rfl rfl
  | loadRegisters =>
    show Painted [i] s (s.loadRegisters i.x)
    rw [loadRegisters, advancePast_eq]
    exact .of_not_paints (by rw [hop]; rfl) rfl rfl
  | _ => exact .of_not_paints (by rw [hop]; rfl) rfl rfl

/-- **A step paints if the instruction it has executed does.** -/
theorem painted_step (random : Nat → Nat) (tracing : Bool) (s : State) :
    Painted (s.step random tracing).executed s (s.step random tracing).state := by
  have hr := step_reply random tracing s
  generalize s.step random tracing = r at hr ⊢
  cases hr with
  | wait hw => exact .of_eq rfl rfl
  | outside hw hf => exact .of_eq rfl rfl
  | unknown hw hf hd => exact .of_eq rfl rfl
  | stack hw hf hd hk => exact .of_eq rfl rfl
  | @execute w i hw hf hd hk =>
    -- moving on to the next instruction first does not show
    have hexec := painted_execute random i { s with pc := s.pc + 2 }
    exact ⟨hexec.dirty, hexec.display⟩

theorem painted_setKey (k : Int) (held : Bool) (s : State) :
    Painted [] s (s.setKey k held).state := by
  obtain ⟨keys, hstate⟩ := state_setKey k held s
  rw [hstate]
  exact .of_eq rfl rfl

theorem painted_deliverKey (k : Int) (s : State) : Painted [] s (s.deliverKey k).state := by
  obtain ⟨registers, waiting, hstate⟩ := state_deliverKey k s
  rw [hstate]
  exact .of_eq rfl rfl

end State

end Chip8Vm
