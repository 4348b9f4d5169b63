import Chip8Vm.Proofs.Invariant
import Chip8Vm.Proofs.Step

/-!
# Well-formed states

The cells of a state are numbers without a bound of their own. `State.Sound` says which bounds
they keep: bytes in memory, registers and timers, a word in the address register, a stack whose
entries in use are addresses behind a call, and pixels that are dark or lit. How many cells there
are, and that a key goes to one of sixteen registers, is part of their types. That a type fixes the
length of memory keeps no program from it: one that is accepted takes the place of as many bytes as
it has (`State.toList_load`).

The program counter has bounds of its own, and `State.WellFormed` adds them. It may run past the
end of memory, since it is only looked at when a word is fetched: a last word at `0xFFE` puts
`0x1000` on the stack, and a skip that stands there leads to `0x1002`. `wellFormed_after` says that
no history of a new machine leads out of these bounds.
-/

namespace Chip8Vm

/-! ## Bytes and pixels -/

namespace Memory

/-- Every cell holds a byte. -/
def Bytes (m : Memory) : Prop := ∀ a, m.byte a < 256

theorem bytes_zero : Bytes (Vector.replicate 4096 0) := by
  intro a
  simp [byte]

theorem Bytes.put {m : Memory} (h : m.Bytes) (a : Nat) {v : Nat} (hv : v < 256) :
    (m.put a v).Bytes := by
  intro c
  rw [byte_put]
  split
  · exact hv
  · exact h c

theorem Bytes.write {m : Memory} (h : m.Bytes) (a : Nat) {bs : List Nat}
    (hbs : ∀ b ∈ bs, b < 256) : (m.write a bs).Bytes := by
  induction bs generalizing m a with
  | nil => exact h
  | cons b bs ih =>
    have hb : b < 256 := hbs b (List.mem_cons_self ..)
    exact ih (h.put a hb) (a + 1) fun b' hb' => hbs b' (List.mem_cons_of_mem _ hb')

end Memory

/-- Every byte of the font is one. -/
theorem Font.lt_of_mem_bytes : ∀ b ∈ Font.bytes, b < 256 := by decide

namespace Frame

variable {h w : Nat}

/-- Every pixel is dark or lit. -/
def Binary (f : Frame h w) : Prop := ∀ r c, f.pixel r c ≤ 1

theorem binary_blank (h w : Nat) : (blank h w).Binary := by
  intro r c
  rw [pixel_blank]
  exact Nat.zero_le 1

theorem Binary.toggle {f : Frame h w} (hf : f.Binary) (r : Fin h) (c : Fin w) :
    (f.toggle r c).Binary := by
  intro r' c'
  have hpixel := hf r' c'
  rw [pixel_toggle]
  split
  · rcases Nat.le_one_iff_eq_zero_or_eq_one.1 hpixel with h0 | h1
    · rw [h0]
      decide
    · rw [h1]
      decide
  · exact hpixel

end Frame

namespace Sprite

/-- Toggling spots keeps pixels dark or lit. -/
theorem binary_foldl_strike (l : List Spot) {d : Drawing} (hd : d.display.Binary) :
    (l.foldl Drawing.strike d).display.Binary := by
  induction l generalizing d with
  | nil => exact hd
  | cons p l ih => exact ih (hd.toggle p.1 p.2)

end Sprite

namespace State

/-! ## Bounds -/

/-- The bounds of all cells but the program counter. -/
structure Sound (s : State) : Prop where
  memory : s.memory.Bytes
  registers : ∀ x, s.reg x < 256
  index : s.index < 0x10000
  sp : s.sp ≤ 16
  stack : ∀ k : Fin 16, s.stack[k] ≤ 0x1000
  /-- An entry in use is behind a call, and so not at the start of memory. -/
  returns : ∀ k : Fin 16, k.val < s.sp → 2 ≤ s.stack[k]
  display : s.display.Binary
  delay : s.delay < 256
  sound : s.sound < 256

/-- The bounds of all cells. -/
structure WellFormed (s : State) : Prop extends Sound s where
  pc_nonneg : 0 ≤ s.pc
  pc_le : s.pc ≤ 0x1002

theorem sound_fresh (advanceIndex : Bool) : (fresh advanceIndex).Sound where
  memory := Memory.bytes_zero.write _ Font.lt_of_mem_bytes
  registers x := by simp [fresh, reg]
  index := Nat.zero_lt_succ _
  sp := Nat.zero_le _
  stack k := by simp [fresh]
  returns k hk := absurd hk (Nat.not_lt_zero _)
  display := Frame.binary_blank 32 64
  delay := Nat.zero_lt_succ _
  sound := Nat.zero_lt_succ _

theorem wellFormed_fresh (advanceIndex : Bool) : (fresh advanceIndex).WellFormed where
  toSound := sound_fresh advanceIndex
  pc_nonneg := Int.natCast_nonneg _
  pc_le := by
    show (512 : Int) ≤ 0x1002
    decide

namespace Sound

variable {s : State} (h : s.Sound)

include h

/-- The program counter may be put anywhere. -/
theorem jump (target : Int) : (s.jump target).Sound := { h with }

theorem skipIf (condition : Bool) : (s.skipIf condition).Sound := by
  rw [skipIf_eq]
  exact { h with }

theorem setReg (x : Reg) {v : Nat} (hv : v < 256) : (s.setReg x v).Sound := by
  refine { h with registers := fun y => ?_ }
  rw [reg_setReg]
  split
  · exact hv
  · exact h.registers y

theorem setFlag (flag : Bool) : (s.setReg Reg.flag flag.toNat).Sound :=
  h.setReg Reg.flag (Nat.lt_of_le_of_lt (Bool.toNat_le flag) (by decide))

theorem setFlagged (x : Reg) {v : Nat} (hv : v < 256) (flag : Bool) :
    (s.setFlagged x v flag).Sound :=
  (h.setReg x hv).setFlag flag

theorem setIndex {a : Nat} (ha : a < 0x10000) : (s.setIndex a).Sound := { h with index := ha }

theorem advancePast (x : Reg) : (s.advancePast x).Sound := by
  unfold State.advancePast
  split
  · exact { h with index := Nat.mod_lt _ (by decide) }
  · exact h

theorem clearDisplay : s.clearDisplay.Sound := { h with display := Frame.binary_blank 32 64 }

theorem drawSprite (x y : Reg) (n : Nat) : (s.drawSprite x y n).Sound :=
  { h.setFlag _ with display := Sprite.binary_foldl_strike _ h.display }

theorem drawRandom (random : Nat → Nat) (x : Reg) {kk : Nat} (hkk : kk < 256) :
    (s.drawRandom random x kk).Sound :=
  { h.setReg x (Nat.lt_of_le_of_lt Nat.and_le_right hkk) with }

theorem storeDecimal (x : Reg) : (s.storeDecimal x).Sound := by
  have hv := h.registers x
  refine { h with memory := h.memory.write _ ?_ }
  simp only [List.mem_cons, List.not_mem_nil, or_false]
  rintro b (rfl | rfl | rfl) <;> omega

theorem storeRegisters (x : Reg) : (s.storeRegisters x).Sound := by
  have hblock : ∀ b ∈ s.registers.toList.take (x.val + 1), b < 256 := by
    intro b hb
    obtain ⟨k, hk, rfl⟩ := List.mem_iff_getElem.1 (List.mem_of_mem_take hb)
    exact h.registers ⟨k, by simpa using hk⟩
  apply Sound.advancePast
  exact { h with memory := h.memory.write _ hblock }

theorem loadRegisters (x : Reg) : (s.loadRegisters x).Sound := by
  apply Sound.advancePast
  refine { h with registers := fun y => ?_ }
  simp only [reg, Fin.getElem_fin, Vector.getElem_ofFn]
  split
  · exact h.memory _
  · exact h.registers y

/-- A call puts an address on the stack that is behind it. -/
theorem call? (hlow : 2 ≤ s.pc) (hhigh : s.pc ≤ 0x1000) {target : Nat} {s' : State}
    (hs : s.call? target = some s') : s'.Sound := by
  obtain ⟨hsp, rfl⟩ := eq_of_call? hs
  refine { h with sp := hsp, stack := fun k => ?_, returns := fun k hk => ?_ }
  · simp only [Fin.getElem_fin, Vector.getElem_set]
    split
    · omega
    · exact h.stack k
  · simp only [Fin.getElem_fin, Vector.getElem_set]
    -- an entry below the new one was in use before
    split
    · omega
    · exact h.returns k (by change k.val < s.sp + 1 at hk; omega)

theorem return? {s' : State} (hs : s.return? = some s') : s'.Sound := by
  obtain ⟨hsp, rfl⟩ := eq_of_return? hs
  exact { h with
    sp := Nat.le_trans (Nat.sub_le ..) h.sp
    returns := fun k hk => h.returns k (Nat.lt_of_lt_of_le hk (Nat.sub_le ..)) }

/-! ## Instructions -/

/-- An instruction keeps the bounds, on a state that has moved on from a word of memory. -/
theorem execute (hlow : 2 ≤ s.pc) (hhigh : s.pc ≤ 0x1000) (random : Nat → Nat) (i : Instruction) :
    (s.execute random i).state.Sound := by
  have hx := h.registers i.x
  have hy := h.registers i.y
  unfold State.execute
  cases i.op with
  | clearDisplay => exact h.clearDisplay
  | ret =>
    cases hr : s.return? with
    | none => exact h
    | some s' => exact h.return? hr
  | system => exact h
  | jump => exact h.jump _
  | call =>
    cases hc : s.call? i.nnn with
    | none => exact h
    | some s' => exact h.call? hlow hhigh hc
  | skipEqualByte => exact h.skipIf _
  | skipUnequalByte => exact h.skipIf _
  | skipEqual => exact h.skipIf _
  | setByte => exact h.setReg i.x i.kk_lt
  | addByte => exact h.setReg i.x (Nat.mod_lt _ (by decide))
  | copy => exact h.setReg i.x hy
  | or => exact h.setReg i.x (Nat.or_lt_two_pow (n := 8) hx hy)
  | and => exact h.setReg i.x (Nat.lt_of_le_of_lt Nat.and_le_left hx)
  | xor => exact h.setReg i.x (Nat.xor_lt_two_pow (n := 8) hx hy)
  | add => exact h.setFlagged i.x (Nat.mod_lt _ (by decide)) _
  | subtract => exact h.setFlagged i.x (Nat.mod_lt _ (by decide)) _
  | shiftRight => exact h.setFlagged i.x (Nat.lt_of_le_of_lt (Nat.div_le_self ..) hx) _
  | subtractFrom => exact h.setFlagged i.x (Nat.mod_lt _ (by decide)) _
  | shiftLeft => exact h.setFlagged i.x (Nat.mod_lt _ (by decide)) _
  | skipUnequal => exact h.skipIf _
  | setIndex => exact h.setIndex (Nat.lt_trans i.nnn_lt (by decide))
  | jumpOffset => exact h.jump _
  | random => exact h.drawRandom random i.x i.kk_lt
  | draw => exact h.drawSprite i.x i.y i.n
  | skipPressed => exact h.skipIf _
  | skipReleased => exact h.skipIf _
  | readDelay => exact h.setReg i.x h.delay
  | awaitKey => exact { h with }
  | setDelay => exact { h with delay := hx }
  | setSound => exact { h with sound := hx }
  | addIndex => exact h.setIndex (Nat.mod_lt _ (by decide))
  | pointGlyph =>
    -- five bytes a glyph, for every value a register can have
    have hglyph : Font.start + s.reg i.x * Font.glyphHeight < 0x10000 := by
      simp only [Font.start, Font.glyphHeight]
      omega
    exact h.setIndex hglyph
  | storeDecimal => exact h.storeDecimal i.x
  | storeRegisters => exact h.storeRegisters i.x
  | loadRegisters => exact h.loadRegisters i.x

/-- The program counter ends on an address of the instruction, on one that was on the stack, or at
most one skip further than it stood. -/
theorem pc_execute (hlow : 2 ≤ s.pc) (hhigh : s.pc ≤ 0x1000) (random : Nat → Nat)
    (i : Instruction) :
    0 ≤ (s.execute random i).state.pc ∧ (s.execute random i).state.pc ≤ 0x1002 := by
  have hstay : 0 ≤ s.pc ∧ s.pc ≤ 0x1002 := ⟨by omega, by omega⟩
  have hskip : ∀ condition, 0 ≤ (s.skipIf condition).pc ∧ (s.skipIf condition).pc ≤ 0x1002 := by
    intro condition
    rw [skipIf_eq]
    dsimp only
    split <;> omega
  have htarget : ∀ target : Nat, target ≤ 0x1002 →
      0 ≤ (target : Int) ∧ (target : Int) ≤ 0x1002 := by
    intro target htarget
    exact ⟨Int.natCast_nonneg target, by omega⟩
  have hadvance : ∀ (s' : State), s'.pc = s.pc →
      0 ≤ (s'.advancePast i.x).pc ∧ (s'.advancePast i.x).pc ≤ 0x1002 := by
    intro s' hpc
    rw [advancePast_eq]
    dsimp only
    rwa [hpc]
  have hnnn := i.nnn_lt
  unfold State.execute
  cases i.op with
  | ret =>
    cases hr : s.return? with
    | none => exact hstay
    | some s' =>
      obtain ⟨hsp, rfl⟩ := eq_of_return? hr
      have hentry := h.stack ⟨s.sp - 1, by omega⟩
      simp only [Fin.getElem_fin] at hentry
      exact htarget _ (Nat.le_trans hentry (by decide))
  | jump => exact htarget _ (by omega)
  | call =>
    cases hc : s.call? i.nnn with
    | none => exact hstay
    | some s' =>
      obtain ⟨hsp, rfl⟩ := eq_of_call? hc
      exact htarget _ (by omega)
  | jumpOffset => exact htarget _ (by omega)
  | skipEqualByte => exact hskip _
  | skipUnequalByte => exact hskip _
  | skipEqual => exact hskip _
  | skipUnequal => exact hskip _
  | skipPressed => exact hskip _
  | skipReleased => exact hskip _
  | storeRegisters => exact hadvance _ rfl
  | loadRegisters => exact hadvance _ rfl
  | _ => exact hstay

/-! ## Calls on the machine -/

/-- Moving on from a word of memory keeps the bounds, and leads between 2 and `0x1000`. -/
theorem moveOn {w : Nat} (hf : s.fetch? = some w) :
    { s with pc := s.pc + 2 }.Sound ∧ 2 ≤ s.pc + 2 ∧ s.pc + 2 ≤ 0x1000 := by
  obtain ⟨hpc, -⟩ := fetch?_eq_some_iff.1 hf
  exact ⟨{ h with }, by omega, by omega⟩

/-- The bounds but those of the program counter do not depend on where it stands. -/
theorem step (random : Nat → Nat) (tracing : Bool) : (s.step random tracing).state.Sound := by
  have hr := step_reply random tracing s
  generalize s.step random tracing = r at hr ⊢
  cases hr with
  | execute hw hf hd hk =>
    obtain ⟨hmoved, hlow, hhigh⟩ := h.moveOn hf
    exact hmoved.execute hlow hhigh random _
  | _ => exact h

theorem load (program : Bytes) : (s.load program).state.Sound := by
  unfold State.load
  split
  · refine { h with memory := h.memory.write _ fun b hb => ?_ }
    obtain ⟨c, -, rfl⟩ := List.mem_map.1 hb
    exact c.toNat_lt
  · exact h

theorem setKey (k : Int) (held : Bool) : (s.setKey k held).state.Sound := by
  obtain ⟨keys, hstate⟩ := state_setKey k held s
  rw [hstate]
  exact { h with }

theorem deliverKey (k : Int) : (s.deliverKey k).state.Sound := by
  unfold State.deliverKey
  split
  · cases key? k with
    | none => exact h
    | some k => exact { h.setReg s.keyRegister (Nat.lt_trans k.isLt (by decide)) with }
  · exact h

theorem tickTimers : s.tickTimers.Sound :=
  { h with
    delay := Nat.lt_of_le_of_lt (Nat.sub_le ..) h.delay
    sound := Nat.lt_of_le_of_lt (Nat.sub_le ..) h.sound }

end Sound

/-- The bounds but those of the program counter, which may have been put anywhere, outlast every
call. -/
theorem invariant_sound (env : Surroundings) : Invariant env Sound where
  step _ h := h.step env.random env.tracing
  load program _ h := h.load program
  setKey k held _ h := h.setKey k held
  deliverKey k _ h := h.deliverKey k
  tickTimers _ h := h.tickTimers
  clearDirty _ h := { h with }
  reset s _ := { sound_fresh s.advanceIndex with }

namespace WellFormed

variable {s : State} (h : s.WellFormed)

include h

theorem step (random : Nat → Nat) (tracing : Bool) : (s.step random tracing).state.WellFormed := by
  have hsound := h.toSound.step random tracing
  have hr := step_reply random tracing s
  generalize s.step random tracing = r at hr hsound ⊢
  cases hr with
  | execute hw hf hd hk =>
    obtain ⟨hmoved, hlow, hhigh⟩ := h.toSound.moveOn hf
    obtain ⟨hnonneg, hle⟩ := hmoved.pc_execute hlow hhigh random _
    exact ⟨hsound, hnonneg, hle⟩
  | _ => exact h

/-- What leaves the program counter where it is has only the other bounds to keep. -/
theorem of_pc_eq {s' : State} (hsound : s'.Sound) (hpc : s'.pc = s.pc) : s'.WellFormed where
  toSound := hsound
  pc_nonneg := by rw [hpc]; exact h.pc_nonneg
  pc_le := by rw [hpc]; exact h.pc_le

end WellFormed

theorem pc_load (program : Bytes) (s : State) : (s.load program).state.pc = s.pc := by
  obtain ⟨memory, hstate⟩ := state_load program s
  rw [hstate]

theorem pc_setKey (k : Int) (held : Bool) (s : State) : (s.setKey k held).state.pc = s.pc := by
  obtain ⟨keys, hstate⟩ := state_setKey k held s
  rw [hstate]

theorem pc_deliverKey (k : Int) (s : State) : (s.deliverKey k).state.pc = s.pc := by
  obtain ⟨registers, waiting, hstate⟩ := state_deliverKey k s
  rw [hstate]

/-- The bounds outlast every call. -/
theorem invariant_wellFormed (env : Surroundings) : Invariant env WellFormed := by
  have hsound := invariant_sound env
  exact {
    step := fun _ h => h.step env.random env.tracing
    load := fun program s h => h.of_pc_eq (hsound.load program s h.toSound) (pc_load program s)
    setKey := fun k held s h => h.of_pc_eq (hsound.setKey k held s h.toSound) (pc_setKey k held s)
    deliverKey := fun k s h => h.of_pc_eq (hsound.deliverKey k s h.toSound) (pc_deliverKey k s)
    tickTimers := fun s h => h.of_pc_eq (hsound.tickTimers s h.toSound) rfl
    clearDirty := fun s h => h.of_pc_eq (hsound.clearDirty s h.toSound) rfl
    reset := fun s _ => { wellFormed_fresh s.advanceIndex with } }

/-- **No history of a new machine leads out of the bounds**, whatever is loaded, pressed or drawn
at random, and however many of its calls are refused. -/
theorem wellFormed_after (env : Surroundings) (advanceIndex : Bool) (history : List Operation) :
    ((fresh advanceIndex).after env history).WellFormed :=
  (invariant_wellFormed env).after history (wellFormed_fresh advanceIndex)

end State

end Chip8Vm
