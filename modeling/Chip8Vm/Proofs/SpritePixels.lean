import Chip8Vm.Proofs.Footprint
import Chip8Vm.Proofs.WellFormed
import Mathlib.Data.List.Nodup
import Mathlib.Data.Nat.Bitwise

/-!
# Pixel by pixel

Drawing toggles one spot after the other, so what becomes of a pixel depends only on how often the
sprite comes upon its spot: an even number of times changes nothing (`pixel_foldl_strike`). A sprite
that is no higher than the display comes upon each spot at most once (`nodup_spots`), though it may
wrap round both edges: its rows are on different rows of the display, and the eight bits of a row in
different columns. So each covered pixel is toggled once, and the flag, which is noted while pixels
are being toggled, says whether a pixel was put out that had been lit at the start.
`drawSprite_toggles_covered` says this of the instruction, for any registers: coordinates are read
before the flag is written.
-/

namespace Chip8Vm

/-- Toggling a number of times and then some more. -/
theorem mod_two_xor_mod_two (j k : Nat) : j % 2 ^^^ k % 2 = (j + k) % 2 := by
  rw [← Nat.xor_mod_two_eq]
  exact (Nat.xor_mod_two_pow (n := 1)).symm

namespace Sprite

/-! ## Spots -/

theorem mem_rowSpots {top left byte : Nat} {p : Spot} :
    p ∈ rowSpots top left byte ↔
      ∃ bit < 8, covers byte bit = true ∧ p.1.val = top % 32 ∧ p.2.val = (left + bit) % 64 := by
  simp only [rowSpots, List.mem_map, List.mem_filter, List.mem_range]
  constructor
  · rintro ⟨bit, ⟨hbit, hset⟩, rfl⟩
    exact ⟨bit, hbit, hset, rfl, rfl⟩
  · rintro ⟨bit, hbit, hset, hrow, hcolumn⟩
    exact ⟨bit, ⟨hbit, hset⟩, Prod.ext (Fin.ext hrow.symm) (Fin.ext hcolumn.symm)⟩

/-- Eight bits side by side are in different columns. -/
theorem nodup_rowSpots (top left byte : Nat) : (rowSpots top left byte).Nodup := by
  refine List.Nodup.map_on (fun bit hbit bit' hbit' hsame => ?_) (List.nodup_range.filter _)
  have hlt : bit < 8 := List.mem_range.1 (List.mem_filter.1 hbit).1
  have hlt' : bit' < 8 := List.mem_range.1 (List.mem_filter.1 hbit').1
  have hcolumn : (left + bit) % 64 = (left + bit') % 64 := congrArg (fun p => p.2.val) hsame
  omega

/-- A sprite that is no higher than the display comes upon no spot twice. -/
theorem nodup_spots (top left : Nat) (byte : Nat → Nat) {n : Nat} (hn : n ≤ 32) :
    (spots top left ((List.range n).map byte)).Nodup := by
  rw [spots_map_range, List.nodup_flatMap]
  refine ⟨fun row _ => nodup_rowSpots _ _ _, List.nodup_range.imp_of_mem ?_⟩
  intro row row' hrow hrow' hne p hp hp'
  obtain ⟨-, -, -, hplace, -⟩ := mem_rowSpots.1 hp
  obtain ⟨-, -, -, hplace', -⟩ := mem_rowSpots.1 hp'
  have hlt : row < n := List.mem_range.1 hrow
  have hlt' : row' < n := List.mem_range.1 hrow'
  omega

/-! ## Toggling spots -/

theorem pixel_strike_self (d : Drawing) (p : Spot) :
    (d.strike p).display.pixel p.1 p.2 = d.display.pixel p.1 p.2 ^^^ 1 := by
  rw [Drawing.strike, Frame.pixel_toggle, if_pos ⟨rfl, rfl⟩]

theorem pixel_strike_of_ne (d : Drawing) {p q : Spot} (hq : q ≠ p) :
    (d.strike q).display.pixel p.1 p.2 = d.display.pixel p.1 p.2 := by
  have hspot : ¬(q.1 = p.1 ∧ q.2 = p.2) := fun h => hq (Prod.ext h.1 h.2)
  rw [Drawing.strike, Frame.pixel_toggle, if_neg hspot]

/-- A pixel is toggled as often as its spot comes up. -/
theorem pixel_foldl_strike (l : List Spot) (d : Drawing) (p : Spot) :
    (l.foldl Drawing.strike d).display.pixel p.1 p.2 =
      d.display.pixel p.1 p.2 ^^^ l.count p % 2 := by
  induction l generalizing d with
  | nil => simp
  | cons q l ih =>
    rw [List.foldl_cons, ih]
    rcases eq_or_ne q p with rfl | hq
    · have honce : 1 ^^^ l.count q % 2 = (1 + l.count q) % 2 := mod_two_xor_mod_two 1 (l.count q)
      rw [pixel_strike_self, List.count_cons_self, Nat.xor_assoc, honce, Nat.add_comm]
    · rw [pixel_strike_of_ne d hq, List.count_cons_of_ne hq]

/-- Where no spot comes up twice, a collision is a spot that was lit at the start. -/
theorem collision_foldl_strike {l : List Spot} (hl : l.Nodup) (d : Drawing) :
    (l.foldl Drawing.strike d).collision = true ↔
      d.collision = true ∨ ∃ p ∈ l, d.display.pixel p.1 p.2 ≠ 0 := by
  induction l generalizing d with
  | nil => simp
  | cons q l ih =>
    obtain ⟨hq, hl'⟩ := List.nodup_cons.1 hl
    -- the spots that follow are other ones, so they are still as they were
    have hsame : ∀ p ∈ l, (d.strike q).display.pixel p.1 p.2 = d.display.pixel p.1 p.2 := by
      intro p hp
      exact pixel_strike_of_ne d (ne_of_mem_of_not_mem hp hq).symm
    have hlater : (∃ p ∈ l, (d.strike q).display.pixel p.1 p.2 ≠ 0) ↔
        ∃ p ∈ l, d.display.pixel p.1 p.2 ≠ 0 := by
      refine exists_congr fun p => and_congr_right fun hp => ?_
      rw [hsame p hp]
    rw [List.foldl_cons, ih hl', hlater, List.exists_mem_cons_iff, ← or_assoc]
    simp [Drawing.strike]

/-! ## Drawing a block of memory -/

/-- The spots that a block of memory covers as a sprite. -/
theorem mem_spots_read {m : Memory} {top left a n : Nat} {p : Spot} :
    p ∈ spots top left (m.read a n) ↔
      ∃ row < n, ∃ bit < 8, covers (m.byte (a + row)) bit = true ∧
        p.1.val = (top + row) % 32 ∧ p.2.val = (left + bit) % 64 := by
  rw [Memory.read, spots_map_range, List.mem_flatMap]
  simp only [List.mem_range, mem_rowSpots]

/-- A block that is no higher than the display covers no spot twice. -/
theorem nodup_spots_read (top left a : Nat) (m : Memory) {n : Nat} (hn : n ≤ 32) :
    (spots top left (m.read a n)).Nodup :=
  nodup_spots top left _ hn

theorem pixel_draw (top left : Nat) (bytes : List Nat) (d : Display) (p : Spot) :
    (draw top left bytes d).display.pixel p.1 p.2 =
      d.pixel p.1 p.2 ^^^ (spots top left bytes).count p % 2 :=
  pixel_foldl_strike _ _ p

/-- A covered pixel is toggled once, and the others are left alone. -/
theorem pixel_draw_of_nodup {top left : Nat} {bytes : List Nat}
    (hl : (spots top left bytes).Nodup) (d : Display) (p : Spot)
    [Decidable (p ∈ spots top left bytes)] :
    (draw top left bytes d).display.pixel p.1 p.2 =
      if p ∈ spots top left bytes then d.pixel p.1 p.2 ^^^ 1 else d.pixel p.1 p.2 := by
  rw [pixel_draw]
  split
  · next hp => rw [List.count_eq_one_of_mem hl hp]
  · next hp => rw [List.count_eq_zero_of_not_mem hp, Nat.zero_mod, Nat.xor_zero]

/-- The pixels that drawing puts out are the covered ones that were lit. -/
theorem put_out_iff {top left : Nat} {bytes : List Nat} (hl : (spots top left bytes).Nodup)
    {d : Display} (p : Spot) :
    (d.pixel p.1 p.2 = 1 ∧ (draw top left bytes d).display.pixel p.1 p.2 = 0) ↔
      d.pixel p.1 p.2 = 1 ∧ p ∈ spots top left bytes := by
  rw [pixel_draw_of_nodup hl]
  refine and_congr_right fun hlit => ?_
  rw [hlit]
  by_cases hp : p ∈ spots top left bytes
  · simp [hp]
  · simp [hp]

/-- Drawing notes a collision just when it puts out a pixel. -/
theorem collision_draw_iff {top left : Nat} {bytes : List Nat}
    (hl : (spots top left bytes).Nodup) {d : Display} (hd : d.Binary) :
    (draw top left bytes d).collision = true ↔
      ∃ p : Spot, d.pixel p.1 p.2 = 1 ∧ (draw top left bytes d).display.pixel p.1 p.2 = 0 := by
  simp only [put_out_iff hl]
  rw [draw, collision_foldl_strike hl]
  simp only [Bool.false_eq_true, false_or]
  refine exists_congr fun p => ?_
  have hpixel := hd p.1 p.2
  have hlit : d.pixel p.1 p.2 ≠ 0 ↔ d.pixel p.1 p.2 = 1 := by omega
  rw [hlit, and_comm]

end Sprite

namespace State

/-- Bit `bit` in row `row` of the sprite at the address register is set, and falls on a pixel if the
sprite is drawn at the column in `x` and the row in `y`. -/
def SpriteBit (s : State) (x y : Reg) (n : Nat) (r : Fin 32) (c : Fin 64) (row bit : Nat) : Prop :=
  row < n ∧ bit < 8 ∧ r.val = (s.reg y + row) % 32 ∧ c.val = (s.reg x + bit) % 64 ∧
    (s.memory.byte ((s.index + row) % 4096)).testBit (7 - bit) = true

variable {s : State} {x y : Reg} {n : Nat}

theorem mem_spots_iff {r : Fin 32} {c : Fin 64} :
    (r, c) ∈ Sprite.spots (s.reg y) (s.reg x) (s.memory.read s.index n) ↔
      ∃ row bit, s.SpriteBit x y n r c row bit := by
  rw [Sprite.mem_spots_read]
  constructor
  · rintro ⟨row, hrow, bit, hbit, hset, hr, hc⟩
    exact ⟨row, bit, hrow, hbit, hr, hc, by rwa [Memory.byte_mod]⟩
  · rintro ⟨row, bit, hrow, hbit, hr, hc, hset⟩
    exact ⟨row, hrow, bit, hbit, by rwa [Memory.byte_mod] at hset, hr, hc⟩

/-- The flag is the last register that drawing writes to. -/
theorem reg_flag_drawSprite (x y : Reg) (n : Nat) (s : State) :
    (s.drawSprite x y n).reg .flag =
      (Sprite.draw (s.reg y) (s.reg x) (s.memory.read s.index n) s.display).collision.toNat := by
  show (s.setReg .flag _).reg .flag = _
  rw [reg_setReg, if_pos rfl]

/-- **Drawing toggles just the pixels that a set bit of the sprite falls on**, each of which a single
bit falls on, and sets the flag if it puts out a pixel and clears it if not. The display counts as
changed from here on, and nothing else changes. -/
theorem drawSprite_toggles_covered (hs : s.display.Binary) (x y : Reg) (hn : n ≤ 32) :
    let t := s.drawSprite x y n
    (∀ r c, ∃ b : Bool, (b = true ↔ ∃ row bit, s.SpriteBit x y n r c row bit) ∧
      t.display.pixel r c = s.display.pixel r c ^^^ b.toNat) ∧
    (∀ r c row bit row' bit', s.SpriteBit x y n r c row bit → s.SpriteBit x y n r c row' bit' →
      row = row' ∧ bit = bit') ∧
    ((∃ r c, s.display.pixel r c = 1 ∧ t.display.pixel r c = 0) → t.reg .flag = 1) ∧
    ((¬∃ r c, s.display.pixel r c = 1 ∧ t.display.pixel r c = 0) → t.reg .flag = 0) ∧
    (∀ r, r ≠ .flag → t.reg r = s.reg r) ∧
    t = { s with registers := t.registers, display := t.display, dirty := true } := by
  intro t
  have hl := Sprite.nodup_spots_read (s.reg y) (s.reg x) s.index s.memory hn
  have hcollision := Sprite.collision_draw_iff hl hs
  have hputOut : (∃ r c, s.display.pixel r c = 1 ∧ t.display.pixel r c = 0) ↔
      (Sprite.draw (s.reg y) (s.reg x) (s.memory.read s.index n) s.display).collision = true :=
    (hcollision.trans Prod.exists).symm
  have hflag : t.reg .flag = _ := reg_flag_drawSprite x y n s
  refine ⟨fun r c => ?_, ?_, fun h => ?_, fun h => ?_, fun r hr => ?_, rfl⟩
  · refine ⟨decide ((r, c) ∈ Sprite.spots (s.reg y) (s.reg x) (s.memory.read s.index n)), ?_, ?_⟩
    · rw [decide_eq_true_eq, mem_spots_iff]
    · refine (Sprite.pixel_draw_of_nodup hl s.display (r, c)).trans ?_
      split
      · next hp => rw [decide_eq_true hp, Bool.toNat_true]
      · next hp => rw [decide_eq_false hp, Bool.toNat_false, Nat.xor_zero]
  · -- the place tells the row, and then the bit
    rintro r c row bit row' bit' ⟨hrow, hbit, hr, hc, -⟩ ⟨hrow', hbit', hr', hc', -⟩
    omega
  · rw [hflag, hputOut.1 h, Bool.toNat_true]
  · rw [hflag, Bool.eq_false_iff.2 (mt hputOut.2 h), Bool.toNat_false]
  · exact reg_setReg_of_ne hr _ s

/-- A sprite across the corner of the display and the end of memory, whose row is in the flag: one
pixel beyond the corner is put out, and the one beside it is lit. -/
theorem drawSprite_toggles_covered_corner :
    let lit := (fresh false).display.toggle 0 1
    let memory := ((fresh false).memory.put 0xFFF 0xC0).put 0 0x30
    let s := { ((fresh false).setReg 0 62).setReg .flag 31 with index := 0xFFF, display := lit, memory }
    let t := s.drawSprite 0 .flag 2
    s.SpriteBit 0 .flag 2 0 1 1 3 ∧ t.display.pixel 0 1 = 0 ∧ t.display.pixel 0 0 = 1 ∧
      t.display.pixel 31 63 = 1 ∧ t.reg .flag = 1 := by
  intro lit memory s t
  have hbinary : s.display.Binary := (Frame.binary_blank 32 64).toggle 0 1
  obtain ⟨-, -, hflag, -⟩ := drawSprite_toggles_covered hbinary 0 .flag (n := 2) (by decide)
  have hout : s.display.pixel 0 1 = 1 ∧ t.display.pixel 0 1 = 0 := by decide +kernel
  refine ⟨?_, hout.2, by decide +kernel, by decide +kernel, hflag ⟨0, 1, hout⟩⟩
  unfold SpriteBit
  decide +kernel

end State

end Chip8Vm
