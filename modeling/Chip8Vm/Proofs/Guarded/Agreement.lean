import Chip8Vm.Proofs.Guarded.Machine
import Chip8Vm.Proofs.Step
import Chip8Vm.Proofs.WellFormed

/-!
# No guard refuses

On a sound state every access of the guarded machine is granted, and the guarded step is the step
of the machine (`step_eq_ok`). So no instruction reaches for a cell that is not there or stores a
number that does not fit, and drawing bit by bit, storing byte by byte and the word taken apart by
shifts come to what the operations on whole sprites, blocks and words say.
-/

namespace Chip8Vm.Guarded

/-! ## Accesses that are granted -/

@[simp] theorem ok_bind {α β : Type} (a : α) (f : α → Guarded β) :
    ((Except.ok a : Guarded α) >>= f) = f a := rfl

@[simp] theorem pure_eq_ok {α : Type} (a : α) : (pure a : Guarded α) = .ok a := rfl

/-- Every address that wraps round is one. -/
theorem load_mod (a : Nat) (s : State) :
    load (a % 4096 : Nat) s = .ok (s.memory.byte a) := by
  have ha : (0 : Int) ≤ (a % 4096 : Nat) ∧ ((a % 4096 : Nat) : Int) < 4096 := by omega
  simp only [load, ha, and_self, dif_pos, Int.toNat_natCast]
  rfl

theorem load_of_lt {a : Nat} (ha : a < 4096) (s : State) : load a s = .ok (s.memory.byte a) := by
  have h := load_mod a s
  rwa [Nat.mod_eq_of_lt ha] at h

theorem store_mod (a : Nat) {v : Nat} (hv : v < 256) (s : State) :
    store (a % 4096 : Nat) v s = .ok { s with memory := s.memory.put a v } := by
  have ha : (0 : Int) ≤ (a % 4096 : Nat) ∧ ((a % 4096 : Nat) : Int) < 4096 := by omega
  simp only [store, ha, and_self, dif_pos, Int.toNat_natCast, hv, if_pos]
  rfl

@[simp] theorem register_eq_ok (x : Reg) (s : State) : register x s = .ok (s.reg x) := by
  simp only [register, x.isLt, dif_pos]
  rfl

@[simp] theorem setRegister_eq_ok (x : Reg) (v : Nat) (s : State) :
    setRegister x v s = .ok (s.setReg x v) := by
  simp only [setRegister, x.isLt, dif_pos]
  rfl

/-- The flag is the last register. -/
@[simp] theorem setRegister_flag (v : Nat) (s : State) :
    setRegister 15 v s = .ok (s.setReg Reg.flag v) := setRegister_eq_ok Reg.flag v s

@[simp] theorem register_first (s : State) : register 0 s = .ok (s.reg .first) :=
  register_eq_ok Reg.first s

/-- Every low nibble is a key. -/
@[simp] theorem key_and (n : Nat) (s : State) : key (n &&& 0xF) s = .ok s.keys[lowNibble n] := by
  have hn : n &&& 0xF = n % 16 := Nat.and_two_pow_sub_one_eq_mod n 4
  have hlt : n % 16 < 16 := Nat.mod_lt n (by decide)
  simp only [key, hn, hlt, dif_pos]
  rfl

/-- Every place that wraps round is one on the display. -/
theorem pixel_mod (r c : Nat) (s : State) :
    pixel (r % 32) (c % 64) s = .ok (s.display.pixel (Fin.ofNat 32 r) (Fin.ofNat 64 c)) := by
  have hr : r % 32 < 32 := Nat.mod_lt r (by decide)
  have hc : c % 64 < 64 := Nat.mod_lt c (by decide)
  simp only [pixel, hr, hc, and_self, dif_pos]
  rfl

theorem flip_mod {s : State} (hs : s.display.Binary) (r c : Nat) :
    flip (r % 32) (c % 64) s =
      .ok { s with display := s.display.toggle (Fin.ofNat 32 r) (Fin.ofNat 64 c) } := by
  have hr : r % 32 < 32 := Nat.mod_lt r (by decide)
  have hc : c % 64 < 64 := Nat.mod_lt c (by decide)
  have hlit : s.display.pixel ⟨r % 32, hr⟩ ⟨c % 64, hc⟩ ^^^ 1 < 256 :=
    Nat.xor_lt_two_pow (n := 8) (Nat.lt_of_le_of_lt (hs _ _) (by decide)) (by decide)
  simp only [flip, hr, hc, and_self, dif_pos, hlit, if_pos]
  rfl

/-! ## Blocks -/

theorem storeRegister_eq_ok {s : State} (x : Reg) (hv : s.reg x < 256) :
    storeRegister s x = .ok { s with memory := s.memory.put (s.index + x.val) (s.reg x) } := by
  rw [storeRegister, register_eq_ok, ok_bind, store_mod _ hv]

theorem loadRegister_eq_ok (s : State) (x : Reg) :
    loadRegister s x = .ok (s.setReg x (s.memory.byte (s.index + x.val))) := by
  rw [loadRegister, load_mod, ok_bind, setRegister_eq_ok]

/-- The last round of a loop comes after the others. -/
theorem foldlM_range_succ (f : State → Nat → Guarded State) (n : Nat) (s : State) :
    (List.range (n + 1)).foldlM f s = (List.range n).foldlM f s >>= fun s' => f s' n := by
  simp only [List.range_succ, List.foldlM_append, List.foldlM_cons, List.foldlM_nil, bind_pure]

/-- Storing the registers below `n` one by one stores them as a block. -/
theorem foldlM_storeRegister {s : State} (h : s.Sound) {n : Nat} (hn : n ≤ 16) :
    (List.range n).foldlM storeRegister s =
      .ok { s with memory := s.memory.write s.index (s.registers.toList.take n) } := by
  induction n with
  | zero => rfl
  | succ n ih =>
    have hlen : n < s.registers.toList.length := by
      rw [Vector.length_toList]
      omega
    have hlast := h.registers ⟨n, by omega⟩
    -- the last register goes behind the block of those before it
    rw [foldlM_range_succ, ih (by omega), ok_bind, List.take_succ_eq_append_getElem hlen,
      Memory.write_concat, List.length_take, Nat.min_eq_left (Nat.le_of_lt hlen)]
    exact storeRegister_eq_ok ⟨n, by omega⟩ hlast

/-- Loading the registers below `n` one by one loads them as a block. -/
theorem foldlM_loadRegister (s : State) {n : Nat} (hn : n ≤ 16) :
    (List.range n).foldlM loadRegister s =
      .ok { s with registers := Vector.ofFn fun r : Reg =>
        if r.val < n then s.memory.byte (s.index + r.val) else s.reg r } := by
  induction n with
  | zero =>
    have hsame : (Vector.ofFn fun r : Reg => s.reg r) = s.registers := by
      ext r hr
      simp [State.reg]
    simp [hsame]
  | succ n ih =>
    rw [foldlM_range_succ, ih (by omega), ok_bind, loadRegister_eq_ok _ ⟨n, by omega⟩]
    simp only [State.setReg, Except.ok.injEq, State.mk.injEq, true_and, and_true]
    ext r hr
    simp only [Vector.getElem_set, Vector.getElem_ofFn]
    -- the last register is read from memory now, the others were before
    by_cases hlast : n = r
    · subst hlast
      simp
    · have hless : r < n + 1 ↔ r < n := by omega
      simp only [hlast, hless, if_false]

/-! ## Sprites -/

/-- A state while a sprite is being drawn on it. -/
def canvas (s : State) (d : Sprite.Drawing) : State :=
  { s.setReg Reg.flag d.collision.toNat with display := d.display }

/-- A loop whose rounds draw on the display draws what its rounds draw. -/
theorem foldlM_canvas {s : State} {f : State → Nat → Guarded State}
    {g : Sprite.Drawing → Nat → Sprite.Drawing} {n : Nat}
    (hround : ∀ k < n, ∀ d : Sprite.Drawing, d.display.Binary →
      f (canvas s d) k = .ok (canvas s (g d k)) ∧ (g d k).display.Binary)
    {d : Sprite.Drawing} (hd : d.display.Binary) :
    (List.range n).foldlM f (canvas s d) = .ok (canvas s ((List.range n).foldl g d)) ∧
      ((List.range n).foldl g d).display.Binary := by
  induction n with
  | zero => exact ⟨rfl, hd⟩
  | succ n ih =>
    obtain ⟨hok, hbinary⟩ := ih fun k hk => hround k (by omega)
    obtain ⟨hlast, hbinary'⟩ := hround n (by omega) _ hbinary
    rw [foldlM_range_succ, hok, ok_bind, hlast, List.range_succ, List.foldl_append]
    exact ⟨rfl, hbinary'⟩

/-- Two ways to look at one bit of a sprite row. -/
theorem and_shiftRight_ne_zero_iff (sprite : Nat) {bit : Nat} (hbit : bit < 8) :
    sprite &&& (0x80 >>> bit) ≠ 0 ↔ Sprite.covers sprite bit = true := by
  have hpow : 0x80 >>> bit = 2 ^ (7 - bit) := by
    rw [Nat.shiftRight_eq_div_pow, show (0x80 : Nat) = 2 ^ 7 from rfl,
      Nat.pow_div (by omega) (by decide)]
  rw [hpow, Sprite.covers]
  constructor
  · intro hne
    obtain ⟨k, hk⟩ := Nat.exists_testBit_of_ne_zero hne
    rw [Nat.testBit_and, Nat.testBit_two_pow, Bool.and_eq_true, decide_eq_true_eq] at hk
    rw [hk.2]
    exact hk.1
  · intro hset hzero
    have hbit' : (sprite &&& 2 ^ (7 - bit)).testBit (7 - bit) = true := by
      rw [Nat.testBit_and, hset, Nat.testBit_two_pow_self, Bool.and_self]
    rw [hzero, Nat.zero_testBit] at hbit'
    cases hbit'

/-- A set bit toggles its spot, and the flag notes a lit pixel. -/
theorem strikeBit_canvas {s : State} {d : Sprite.Drawing} (hd : d.display.Binary)
    (top left sprite : Nat) {bit : Nat} (hbit : bit < 8) :
    strikeBit (top % 32) left sprite (canvas s d) bit =
      .ok (canvas s (if Sprite.covers sprite bit then
        d.strike (Fin.ofNat 32 top, Fin.ofNat 64 (left + bit)) else d)) := by
  unfold strikeBit
  by_cases hcovers : Sprite.covers sprite bit = true
  · rw [if_pos ((and_shiftRight_ne_zero_iff sprite hbit).2 hcovers), if_pos hcovers, pixel_mod,
      ok_bind]
    cases hlit : d.display.pixel (Fin.ofNat 32 top) (Fin.ofNat 64 (left + bit)) != 0 with
    | false =>
      have hdark : ¬(canvas s d).display.pixel (Fin.ofNat 32 top) (Fin.ofNat 64 (left + bit)) ≠ 0 :=
        fun hne => by simp only [bne_eq_false_iff_eq] at hlit; exact hne hlit
      rw [if_neg hdark, ok_bind, flip_mod hd]
      simp only [canvas, Sprite.Drawing.strike, hlit, Bool.or_false]
    | true =>
      have hset : (canvas s d).display.pixel (Fin.ofNat 32 top) (Fin.ofNat 64 (left + bit)) ≠ 0 :=
        bne_iff_ne.1 hlit
      rw [if_pos hset, setRegister_flag, ok_bind, flip_mod hd]
      simp only [canvas, Sprite.Drawing.strike, hlit, Bool.or_true, State.setReg,
        Vector.set_set, Bool.toNat_true]
  · rw [if_neg (mt (and_shiftRight_ne_zero_iff sprite hbit).1 hcovers), if_neg hcovers]

/-- A row draws its set bits from left to right; a row without any draws nothing. -/
theorem strikeRow_canvas {s : State} {d : Sprite.Drawing} (hd : d.display.Binary)
    (top left row : Nat) :
    strikeRow (top % 32) left (canvas s d) row =
      .ok (canvas s ((Sprite.rowSpots (top + row) left (s.memory.byte (s.index + row))).foldl
        Sprite.Drawing.strike d)) := by
  have hread : load (((canvas s d).index + row) % 4096 : Nat) (canvas s d) =
      .ok (s.memory.byte (s.index + row)) := load_mod (s.index + row) (canvas s d)
  rw [strikeRow, hread, ok_bind]
  generalize s.memory.byte (s.index + row) = sprite
  have hspots : (Sprite.rowSpots (top + row) left sprite).foldl Sprite.Drawing.strike d =
      (List.range 8).foldl (fun d bit => if Sprite.covers sprite bit then
        d.strike (Fin.ofNat 32 (top + row), Fin.ofNat 64 (left + bit)) else d) d := by
    rw [Sprite.rowSpots, List.foldl_map, List.foldl_filter]
  by_cases hzero : sprite = 0
  · have hnone : Sprite.rowSpots (top + row) left 0 = [] := by
      simp [Sprite.rowSpots, Sprite.covers]
    rw [if_pos hzero, hzero, hnone]
    rfl
  · rw [if_neg hzero, hspots, Nat.mod_add_mod]
    refine (foldlM_canvas (fun bit hbit d' hd' => ⟨?_, ?_⟩) hd).1
    · exact strikeBit_canvas hd' (top + row) left sprite hbit
    · split
      · exact hd'.toggle _ _
      · exact hd'

/-- A spot does not depend on how often its column has gone round. -/
theorem rowSpots_mod (top left sprite : Nat) :
    Sprite.rowSpots top (left % 64) sprite = Sprite.rowSpots top left sprite := by
  have hcolumn : ∀ bit, Fin.ofNat 64 (left % 64 + bit) = Fin.ofNat 64 (left + bit) := by
    intro bit
    simp [Fin.ofNat, Nat.mod_add_mod]
  simp only [Sprite.rowSpots, hcolumn]

/-- Drawing bit by bit draws the sprite. -/
theorem drawSprite_eq_ok {s : State} (h : s.Sound) (x y : Reg) (n : Nat) :
    drawSprite x y n s = .ok (s.drawSprite x y n) := by
  have hstart : s.setReg Reg.flag 0 = canvas s ⟨s.display, false⟩ := rfl
  -- each row needs a display without any other pixel values, and leaves one
  obtain ⟨hrows, -⟩ := foldlM_canvas (s := s) (n := n)
    (f := strikeRow (s.reg y % 32) (s.reg x % 64)) (fun row _ d hd =>
      ⟨strikeRow_canvas hd (s.reg y) (s.reg x % 64) row, Sprite.binary_foldl_strike _ hd⟩)
    (d := ⟨s.display, false⟩) h.display
  unfold drawSprite
  rw [register_eq_ok, ok_bind, register_eq_ok, ok_bind, setRegister_flag, ok_bind, hstart, hrows,
    ok_bind]
  simp only [rowSpots_mod, ← Sprite.draw_map_range]
  rfl

/-! ## Instructions without a breach -/

theorem and_0xFF (n : Nat) : n &&& 0xFF = n % 256 := Nat.and_two_pow_sub_one_eq_mod n 8

theorem combine_eq_ok (x y : Reg) (result : Nat → Nat → Nat) (s : State) :
    combine x y result s = .ok (s.setReg x (result (s.reg x) (s.reg y))) := by
  simp [combine]

theorem combineFlagged_eq_ok (x y : Reg) (result : Nat → Nat → Nat) (flag : Nat → Nat → Bool)
    (s : State) :
    combineFlagged x y result flag s =
      .ok (s.setFlagged x (result (s.reg x) (s.reg y)) (flag (s.reg x) (s.reg y))) := by
  simp only [combineFlagged, register_eq_ok, ok_bind, setRegister_eq_ok, setRegister_flag,
    State.setFlagged]
  cases flag (s.reg x) (s.reg y) <;> rfl

theorem skipCompared_eq_ok (x y : Reg) (condition : Nat → Nat → Bool) (s : State) :
    skipCompared x y condition s = .ok (s.skipIf (condition (s.reg x) (s.reg y))) := by
  simp [skipCompared]

theorem storeDecimal_eq_ok {s : State} (h : s.Sound) (x : Reg) :
    storeDecimal x s = .ok (s.storeDecimal x) := by
  have hv := h.registers x
  unfold storeDecimal
  rw [register_eq_ok, ok_bind, store_mod _ (by omega), ok_bind, store_mod _ (by omega), ok_bind,
    store_mod _ (by omega)]
  rfl

/-- On a state that has moved on from a word of memory no guard refuses what the stack does not. -/
theorem effect_eq_ok {s : State} (h : s.Sound) (hlow : 2 ≤ s.pc) (hhigh : s.pc ≤ 0x1000)
    (random : Nat → Nat) {i : Instruction} (hk : s.stackFault? i = none) :
    effect random i s = .ok (s.execute random i).state := by
  have hx := h.registers i.x
  have hy := h.registers i.y
  unfold State.stackFault? at hk
  unfold effect State.execute
  cases hop : i.op with
  | ret =>
    cases hr : s.return? with
    | none => simp [hop, hr] at hk
    | some s' =>
      obtain ⟨hsp, rfl⟩ := State.eq_of_return? hr
      have hentry : s.sp - 1 < 16 := by omega
      simp [entry, hentry, Reply.ok]
  | call =>
    cases hc : s.call? i.nnn with
    | none => simp [hop, hc] at hk
    | some s' =>
      obtain ⟨hsp, rfl⟩ := State.eq_of_call? hc
      -- what goes onto the stack is an address behind a word of memory
      have hword : 0 ≤ s.pc ∧ s.pc < 65536 := by omega
      simp [setEntry, hsp, hword, Reply.ok]
  | skipEqual => exact skipCompared_eq_ok i.x i.y _ s
  | skipUnequal => exact skipCompared_eq_ok i.x i.y _ s
  | addByte => simp [and_0xFF, State.addByte, Reply.ok]
  | copy => exact combine_eq_ok i.x i.y _ s
  | or => exact combine_eq_ok i.x i.y _ s
  | and => exact combine_eq_ok i.x i.y _ s
  | xor => exact combine_eq_ok i.x i.y _ s
  | add => simp [combineFlagged_eq_ok, and_0xFF, State.addRegister, Reply.ok]
  -- a difference is taken among the integers, or among the naturals 256 further up
  | subtract =>
    have hdifference : (((s.reg i.x : Int) - s.reg i.y) % 0x100).toNat =
        (s.reg i.x + 256 - s.reg i.y) % 256 := by omega
    simp only [combineFlagged_eq_ok, hdifference]
    rfl
  | subtractFrom =>
    have hdifference : (((s.reg i.y : Int) - s.reg i.x) % 0x100).toNat =
        (s.reg i.y + 256 - s.reg i.x) % 256 := by omega
    simp only [combineFlagged_eq_ok, hdifference]
    rfl
  | shiftRight =>
    simp only [combineFlagged_eq_ok, Nat.shiftRight_eq_div_pow, Nat.and_one_is_mod]
    rfl
  | shiftLeft =>
    simp only [combineFlagged_eq_ok, Nat.shiftLeft_eq, Nat.shiftRight_eq_div_pow, and_0xFF,
      Nat.and_one_is_mod]
    rfl
  | jumpOffset =>
    have hmask : (i.nnn + s.reg .first) &&& 0xFFF = (i.nnn + s.reg .first) % 4096 :=
      Nat.and_two_pow_sub_one_eq_mod _ 12
    simp [hmask, State.jump, Reply.ok]
  | addIndex =>
    have hmask : (s.index + s.reg i.x) &&& 0xFFFF = (s.index + s.reg i.x) % 65536 :=
      Nat.and_two_pow_sub_one_eq_mod _ 16
    simp [hmask, Reply.ok]
  | pointGlyph => simp [Font.start, Font.glyphHeight, Reply.ok]
  | draw => exact drawSprite_eq_ok h i.x i.y i.n
  | storeDecimal => exact storeDecimal_eq_ok h i.x
  | storeRegisters =>
    rw [foldlM_storeRegister h (show i.x.val + 1 ≤ 16 by omega)]
    rfl
  | loadRegisters =>
    rw [foldlM_loadRegister s (show i.x.val + 1 ≤ 16 by omega)]
    simp only [Nat.lt_succ_iff]
    rfl
  | _ => simp [Reply.ok, State.jump, State.drawRandom, State.keyHeld]

theorem execute_eq_ok {s : State} (h : s.Sound) (hlow : 2 ≤ s.pc) (hhigh : s.pc ≤ 0x1000)
    (random : Nat → Nat) (i : Instruction) :
    execute random i s = .ok (s.execute random i) := by
  have he := State.execute_eq random i s
  have hk := State.stackFault?_eq (i := i) h.sp
  have hfull : 16 ≤ s.sp ↔ s.sp = 16 := by
    have hsp := h.sp
    omega
  unfold execute
  simp only [hfull]
  -- the stack is looked at first, and refuses at both ends
  by_cases hcall : i.op = .call ∧ s.sp = 16
  · rw [if_pos hcall] at hk
    rw [if_neg (by simp [hcall.1]), if_pos hcall, he, hk]
    rfl
  rw [if_neg hcall] at hk
  by_cases hret : i.op = .ret ∧ s.sp = 0
  · rw [if_pos hret] at hk
    rw [if_pos hret, he, hk]
    rfl
  · rw [if_neg hret] at hk
    rw [if_neg hret, if_neg hcall, effect_eq_ok h hlow hhigh random hk, he, hk]
    rfl

/-- Putting two bytes side by side by shifts. -/
theorem shiftLeft_or_eq_word {m : Memory} (hm : m.Bytes) (a : Nat) :
    m.byte a <<< 8 ||| m.byte (a + 1) = m.word a := by
  rw [← Nat.shiftLeft_add_eq_or_of_lt (i := 8) (hm (a + 1)), Nat.shiftLeft_eq]
  rfl

/-- **No guard ever refuses**: on a sound state, wherever the program counter stands, the guarded
step is the step. -/
theorem step_eq_ok {s : State} (h : s.Sound) (random : Nat → Nat) (tracing : Bool) :
    step random tracing s = .ok (s.step random tracing) := by
  unfold step State.step
  by_cases hw : s.waiting = true
  · rw [if_pos hw, if_pos hw]
    rfl
  rw [if_neg hw, if_neg hw]
  by_cases hpc : s.pc < 0 ∨ 4096 ≤ s.pc + 1
  · rw [if_pos hpc, State.fetch?_eq_none_iff.2 hpc]
    rfl
  · have hin : 0 ≤ s.pc ∧ s.pc + 1 < 4096 := by omega
    obtain ⟨a, ha⟩ := Int.eq_ofNat_of_zero_le hin.1
    have hfetch : s.fetch? = some (s.memory.word a) :=
      State.fetch?_eq_some_iff.2 ⟨hin, by rw [ha, Int.toNat_natCast]⟩
    have hhigh : load s.pc s = .ok (s.memory.byte a) := by
      rw [ha]
      exact load_of_lt (by omega) s
    have hlow : load (s.pc + 1) s = .ok (s.memory.byte (a + 1)) := by
      rw [ha]
      exact load_of_lt (a := a + 1) (by omega) s
    rw [if_neg hpc, hhigh, ok_bind, hlow, ok_bind, shiftLeft_or_eq_word h.memory, hfetch]
    obtain ⟨hmoved, htwo, hend⟩ := h.moveOn hfetch
    dsimp only
    cases Instruction.decode (s.memory.word a) s.pc with
    | error f => rfl
    | ok i =>
      simp only [execute_eq_ok hmoved htwo hend, ok_bind]
      rfl

end Chip8Vm.Guarded
