import Chip8Vm.Proofs.Painting

/-!
# What an instruction may change

Each operation writes to a few cells of the machine, which `Op.changes`, `Op.stores` and
`Op.movesIndex` list: registers, bytes of memory, and whether the address register moves.
`Footprint` says that one state comes from another by an operation that has left everything else
alone, and `step_footprint` that every step which executes an instruction does so. Addresses wrap
round, and the flag counts as changed also where it is an operand.
-/

namespace Chip8Vm

namespace Op

/-- The registers that an operation with first operand `x` may change. -/
def changes (x : Reg) : Op → List Reg
  | .setByte | .addByte | .copy | .or | .and | .xor | .random | .readDelay => [x]
  | .add | .subtract | .shiftRight | .subtractFrom | .shiftLeft => [x, .flag]
  | .draw => [.flag]
  | .loadRegisters => (List.finRange 16).filter (· ≤ x)
  | _ => []

/-- How many bytes from the address register on an operation may change. -/
def stores (x : Reg) : Op → Nat
  | .storeDecimal => 3
  | .storeRegisters => x.val + 1
  | _ => 0

/-- Whether an operation may change the address register, by the mode for blocks. -/
def movesIndex (advance : Bool) : Op → Bool
  | .setIndex | .addIndex | .pointGlyph => true
  | .storeRegisters | .loadRegisters => advance
  | _ => false

end Op

/-- An operation with first operand `x` leads from `s` to `t`, and what it does not write to is
the same in both. The program counter, which every instruction moves, is left open. -/
structure Footprint (op : Op) (x : Reg) (s t : State) : Prop where
  memory : ∀ a, (∀ k < op.stores x, (s.index + k) % 4096 ≠ a % 4096) →
    t.memory.byte a = s.memory.byte a := by intros; rfl
  registers : ∀ r, r ∉ op.changes x → t.reg r = s.reg r := by intros; rfl
  index : op.movesIndex s.advanceIndex = false → t.index = s.index := by intros; rfl
  /-- Only a call writes on the stack, and only on the first entry that is not in use. -/
  stack : ∀ k : Fin 16, ¬(op = .call ∧ k.val = s.sp) → t.stack.get k = s.stack.get k :=
    by intros; rfl
  /-- A call takes one more entry into use, and a return one less. -/
  sp : t.sp + (if op = .ret then 1 else 0) = s.sp + (if op = .call then 1 else 0) := by rfl
  display : op.paints = false → t.display = s.display := by intros; rfl
  dirty : op.paints = false → t.dirty = s.dirty := by intros; rfl
  delay : op ≠ .setDelay → t.delay = s.delay := by intros; rfl
  sound : op ≠ .setSound → t.sound = s.sound := by intros; rfl
  waiting : op ≠ .awaitKey → t.waiting = s.waiting := by intros; rfl
  keyRegister : op ≠ .awaitKey → t.keyRegister = s.keyRegister := by intros; rfl
  drawn : t.drawn = s.drawn + (if op = .random then 1 else 0) := by rfl
  keys : t.keys = s.keys := by rfl
  advanceIndex : t.advanceIndex = s.advanceIndex := by rfl

namespace State

variable {random : Nat → Nat} {tracing : Bool} {i : Instruction} {s : State}

theorem reg_setReg_of_ne {x r : Reg} (h : r ≠ x) (v : Nat) (s : State) :
    (s.setReg x v).reg r = s.reg r := by
  rw [reg_setReg, if_neg h.symm]

theorem reg_setFlagged_of_ne {x r : Reg} (hx : r ≠ x) (hflag : r ≠ .flag) (v : Nat) (flag : Bool)
    (s : State) : (s.setFlagged x v flag).reg r = s.reg r := by
  rw [setFlagged, reg_setReg_of_ne hflag, reg_setReg_of_ne hx]

/-- What an instruction changes that the stack does not refuse. -/
theorem footprint_execute (random : Nat → Nat) (h : s.stackFault? i = none) :
    Footprint i.op i.x s (s.execute random i).state := by
  unfold stackFault? at h
  unfold execute
  cases hop : i.op with
  | system | jump | jumpOffset => exact {}
  | skipEqualByte | skipUnequalByte | skipEqual | skipUnequal | skipPressed | skipReleased =>
    simp only [skipIf_eq]
    exact {}
  | ret =>
    cases hret : s.return? with
    | none => simp [hop, hret] at h
    | some s' =>
      obtain ⟨hsp, rfl⟩ := eq_of_return? hret
      exact { sp := Nat.sub_add_cancel hsp.1 }
  | call =>
    cases hcall : s.call? i.nnn with
    | none => simp [hop, hcall] at h
    | some s' =>
      obtain ⟨hsp, rfl⟩ := eq_of_call? hcall
      refine { stack := fun k hk => ?_ }
      have hne : s.sp ≠ k.val := fun heq => hk ⟨rfl, heq.symm⟩
      exact Vector.getElem_set_ne hsp k.isLt hne
  | setByte | addByte | copy | or | and | xor | readDelay | random =>
    exact { registers := fun r hr => reg_setReg_of_ne (mt List.mem_singleton.2 hr) _ s }
  | add | subtract | shiftRight | subtractFrom | shiftLeft =>
    refine { registers := fun r hr => ?_ }
    simp only [Op.changes, List.mem_cons, List.not_mem_nil, or_false, not_or] at hr
    exact reg_setFlagged_of_ne hr.1 hr.2 _ _ s
  | clearDisplay =>
    exact {
      display := fun hpaints => Bool.noConfusion hpaints
      dirty := fun hpaints => Bool.noConfusion hpaints }
  | draw =>
    exact {
      registers := fun r hr => reg_setReg_of_ne (mt List.mem_singleton.2 hr) _ s
      display := fun hpaints => Bool.noConfusion hpaints
      dirty := fun hpaints => Bool.noConfusion hpaints }
  | setIndex | addIndex | pointGlyph => exact { index := fun hmoves => Bool.noConfusion hmoves }
  | awaitKey =>
    exact { waiting := fun hne => absurd rfl hne, keyRegister := fun hne => absurd rfl hne }
  | setDelay => exact { delay := fun hne => absurd rfl hne }
  | setSound => exact { sound := fun hne => absurd rfl hne }
  | storeDecimal => exact { memory := fun a ha => Memory.byte_write_of_ne _ _ _ ha }
  | storeRegisters =>
    simp only [Reply.ok, storeRegisters, advancePast_eq]
    refine { memory := fun a ha => ?_, index := fun hmode => ?_ }
    · have hlen : (s.registers.toList.take (i.x.val + 1)).length = i.x.val + 1 := by
        rw [List.length_take, Vector.length_toList]
        omega
      exact Memory.byte_write_of_ne _ _ _ (by rwa [hlen])
    · have hkept : s.advanceIndex = false := hmode
      simp only [hkept, Bool.false_eq_true, if_false]
  | loadRegisters =>
    simp only [Reply.ok, loadRegisters, advancePast_eq]
    refine { registers := fun r hr => ?_, index := fun hmode => ?_ }
    · have habove : ¬r ≤ i.x := by simpa [Op.changes] using hr
      simp only [reg, Fin.getElem_fin, Vector.getElem_ofFn, habove, if_false]
    · have hkept : s.advanceIndex = false := hmode
      simp only [hkept, Bool.false_eq_true, if_false]

/-- **A step writes only where its instruction may.** -/
theorem step_footprint (h : (s.step random tracing).result = .ok (some i)) :
    Footprint i.op i.x s (s.step random tracing).state := by
  obtain ⟨w, -, -, -, hk, hstate⟩ := executes_of_result h
  have hexec := footprint_execute random hk
  rw [hstate]
  -- what the move to the next instruction changes is left open
  exact { hexec with }

/-- Two registers stored from the last byte of memory on change that byte and the first one. -/
theorem step_footprint_wrapping :
    let program := (fresh false).memory.write Memory.programStart [0xF1, 0x55]
    let s := { fresh false with memory := program, index := 0xFFF }
    (s.step id false).result = .ok (some ⟨.storeRegisters, 0xF155⟩) ∧
      ∀ a, 0 < a → a < 0xFFF → (s.step id false).state.memory.byte a = s.memory.byte a := by
  intro program s
  have hexecuted : (s.step id false).executed = [⟨.storeRegisters, 0xF155⟩] := by decide +kernel
  have hresult := Reply.result_of_executed hexecuted
  refine ⟨hresult, fun a hpos hlast => (step_footprint hresult).memory a fun k hk => ?_⟩
  have hcount : Op.stores (Instruction.x ⟨.storeRegisters, 0xF155⟩) .storeRegisters = 2 := by decide
  have hindex : s.index = 0xFFF := rfl
  rw [hcount] at hk
  omega

end State

end Chip8Vm
