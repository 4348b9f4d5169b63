import Chip8Vm.Proofs.SpritePixels
import Mathlib.Algebra.BigOperators.Group.Finset.Basic
import Mathlib.Algebra.BigOperators.Ring.Finset
import Mathlib.Data.Fintype.Prod

/-!
# Many sprites

A pixel is toggled once for each sprite that covers it, so all that matters of a list of sprites is
how often a spot comes up in the whole of it (`pixel_drawAll`): neither their order nor pairs of
sprites that are the same show in the end. `Draw` is one drawing of a sprite with what it needs put in
place, and its `Stamp` is what it is told apart by; the registers that its coordinates go through are
not.

How many pixels are lit follows by counting: drawing takes away the covered pixels that were lit and
adds the others that are covered (`card_lit_draw`), and a sprite covers as many spots as it has bits
that are set (`length_spots`), since it comes upon none of them twice. `drawAll_algebra` puts this
together.
-/

namespace Chip8Vm

/-! ## Counting pixels -/

namespace Sprite

/-- The spots of a display whose pixels are lit. -/
def lit (d : Display) : Finset Spot := Finset.univ.filter fun p => d.pixel p.1 p.2 = 1

/-- The spots whose pixels are lit in one display and dark in another. -/
def putOut (d e : Display) : Finset Spot :=
  Finset.univ.filter fun p => d.pixel p.1 p.2 = 1 ∧ e.pixel p.1 p.2 = 0

/-- How many of the eight bits of each byte are set, all in all. -/
def setBits (bytes : List Nat) : Nat := (bytes.map fun byte => (List.range 8).countP byte.testBit).sum

/-- A row covers as many spots as its byte has bits that are set, on whichever side it starts. -/
theorem length_rowSpots (top left byte : Nat) :
    (rowSpots top left byte).length = (List.range 8).countP byte.testBit := by
  have hreversed : ((List.range 8).map (7 - ·)).Perm (List.range 8) := by decide
  rw [rowSpots, List.length_map, ← List.countP_eq_length_filter, ← hreversed.countP_eq,
    List.countP_map]
  rfl

theorem length_spots (top left : Nat) (bytes : List Nat) :
    (spots top left bytes).length = setBits bytes := by
  induction bytes generalizing top with
  | nil => rfl
  | cons byte bytes ih =>
    rw [spots, List.length_append, length_rowSpots, ih]
    rfl

section Draw

variable {top left : Nat} {bytes : List Nat} (hl : (spots top left bytes).Nodup) {d : Display}

include hl

/-- What drawing puts out is lit and covered. -/
theorem putOut_draw :
    putOut d (draw top left bytes d).display = lit d ∩ (spots top left bytes).toFinset := by
  ext p
  simp only [putOut, lit, Finset.mem_filter_univ, Finset.mem_inter, List.mem_toFinset,
    put_out_iff hl p]

/-- What is lit after drawing was lit and not covered, or covered and not lit. -/
theorem lit_draw (hd : d.Binary) :
    lit (draw top left bytes d).display =
      lit d \ (spots top left bytes).toFinset ∪ (spots top left bytes).toFinset \ lit d := by
  ext p
  simp only [lit, Finset.mem_filter_univ, Finset.mem_union, Finset.mem_sdiff, List.mem_toFinset,
    pixel_draw_of_nodup hl]
  rcases Nat.le_one_iff_eq_zero_or_eq_one.1 (hd p.1 p.2) with hdark | hlit
  · by_cases hp : p ∈ spots top left bytes
    · simp [hdark, hp]
    · simp [hdark, hp]
  · by_cases hp : p ∈ spots top left bytes
    · simp [hlit, hp]
    · simp [hlit, hp]

/-- Each bit that is set lights a pixel or puts one out. -/
theorem card_lit_draw (hd : d.Binary) :
    (lit (draw top left bytes d).display).card +
        2 * (putOut d (draw top left bytes d).display).card =
      (lit d).card + setBits bytes := by
  have hdisjoint : Disjoint (lit d \ (spots top left bytes).toFinset)
      ((spots top left bytes).toFinset \ lit d) := disjoint_sdiff_sdiff
  have hlit := Finset.card_sdiff_add_card_inter (lit d) (spots top left bytes).toFinset
  have hcovered := Finset.card_sdiff_add_card_inter (spots top left bytes).toFinset (lit d)
  rw [Finset.inter_comm] at hcovered
  rw [lit_draw hl hd, putOut_draw hl, Finset.card_union_of_disjoint hdisjoint, ← length_spots,
    ← List.toFinset_card_of_nodup hl]
  omega

/-- The flag counts as one if any pixel is put out. -/
theorem collision_draw_toNat (hd : d.Binary) :
    (draw top left bytes d).collision.toNat =
      if 0 < (putOut d (draw top left bytes d).display).card then 1 else 0 := by
  have hany : 0 < (putOut d (draw top left bytes d).display).card ↔
      (draw top left bytes d).collision = true := by
    rw [collision_draw_iff hl hd, Finset.card_pos]
    simp only [putOut, Finset.Nonempty, Finset.mem_filter_univ]
  by_cases hcollision : (draw top left bytes d).collision = true
  · rw [if_pos (hany.2 hcollision), hcollision, Bool.toNat_true]
  · rw [if_neg (mt hany.1 hcollision), Bool.eq_false_iff.2 hcollision, Bool.toNat_false]

end Draw

end Sprite

/-! ## Lists of draws -/

/-- A sprite and its place: where its bytes are, the coordinates of its corner, and its height, for
which an instruction has four bits. -/
structure Stamp where
  index : Nat
  column : Nat
  row : Nat
  height : Fin 16
deriving DecidableEq

/-- The spots that a stamp covers, with a memory to take its bytes from. -/
def Stamp.spots (m : Memory) (a : Stamp) : List Sprite.Spot :=
  Sprite.spots a.row a.column (m.read a.index a.height)

/-- A draw of a stamp, with the registers that its coordinates are put into. One register can hold
both coordinates only if they are the same. -/
structure Draw where
  stamp : Stamp
  x : Reg
  y : Reg
  same : x = y → stamp.column = stamp.row

namespace State

variable {s : State}

/-- Puts a stamp in place and draws it. -/
def perform (s : State) (d : Draw) : State :=
  let placed := { s with index := d.stamp.index }
  ((placed.setReg d.x d.stamp.column).setReg d.y d.stamp.row).drawSprite d.x d.y d.stamp.height

/-- Performs draws one after the other. -/
def drawAll (s : State) (l : List Draw) : State := l.foldl perform s

/-- The coordinates are those of the stamp, also where they share a register. -/
theorem drawing_perform (s : State) (d : Draw) :
    let drawing := Sprite.draw d.stamp.row d.stamp.column
      (s.memory.read d.stamp.index d.stamp.height) s.display
    (s.perform d).display = drawing.display ∧ (s.perform d).reg .flag = drawing.collision.toNat := by
  let placed := { s with index := d.stamp.index }
  have hrow : ((placed.setReg d.x d.stamp.column).setReg d.y d.stamp.row).reg d.y = d.stamp.row := by
    rw [reg_setReg, if_pos rfl]
  have hcolumn :
      ((placed.setReg d.x d.stamp.column).setReg d.y d.stamp.row).reg d.x = d.stamp.column := by
    rw [reg_setReg, reg_setReg, if_pos rfl]
    split
    · next hshared => exact (d.same hshared.symm).symm
    · rfl
  intro drawing
  have hflag := reg_flag_drawSprite d.x d.y d.stamp.height
    ((placed.setReg d.x d.stamp.column).setReg d.y d.stamp.row)
  rw [hrow, hcolumn] at hflag
  refine ⟨?_, hflag⟩
  show (Sprite.draw (State.reg _ d.y) (State.reg _ d.x) _ _).display = drawing.display
  rw [hrow, hcolumn]
  rfl

theorem display_perform (s : State) (d : Draw) :
    (s.perform d).display = (Sprite.draw d.stamp.row d.stamp.column
      (s.memory.read d.stamp.index d.stamp.height) s.display).display := (drawing_perform s d).1

/-- Drawing neither writes to memory nor leaves other pixels than dark and lit ones. -/
theorem drawAll_keeps (hs : s.display.Binary) (l : List Draw) :
    (s.drawAll l).memory = s.memory ∧ (s.drawAll l).display.Binary := by
  induction l generalizing s with
  | nil => exact ⟨rfl, hs⟩
  | cons d l ih =>
    have hbinary : (s.perform d).display.Binary := by
      rw [display_perform]
      exact Sprite.binary_foldl_strike _ hs
    exact ih hbinary

/-- A pixel is toggled as often as its spot comes up in all the stamps. -/
theorem pixel_drawAll (l : List Draw) (p : Sprite.Spot) :
    (s.drawAll l).display.pixel p.1 p.2 =
      s.display.pixel p.1 p.2 ^^^ ((l.map Draw.stamp).flatMap (Stamp.spots s.memory)).count p % 2 := by
  induction l generalizing s with
  | nil => simp [drawAll]
  | cons d l ih =>
    have hfirst := Sprite.pixel_draw d.stamp.row d.stamp.column
      (s.memory.read d.stamp.index d.stamp.height) s.display p
    have hrest := ih (s := s.perform d)
    rw [display_perform, hfirst] at hrest
    rw [drawAll, List.foldl_cons, List.map_cons, List.flatMap_cons, List.count_append,
      ← mod_two_xor_mod_two, ← Nat.xor_assoc]
    exact hrest

/-- Draws of the same stamps come to the same, in whatever order. -/
theorem display_drawAll_perm {l l' : List Draw}
    (hperm : (l.map Draw.stamp).Perm (l'.map Draw.stamp)) :
    (s.drawAll l).display = (s.drawAll l').display := by
  refine Frame.ext_pixel fun r c => ?_
  have hcount := (hperm.flatMap_right (Stamp.spots s.memory)).count_eq (r, c)
  have hl := pixel_drawAll (s := s) l (r, c)
  have hl' := pixel_drawAll (s := s) l' (r, c)
  rw [hcount] at hl
  exact hl.trans hl'.symm

/-- Stamps that come in pairs cancel out. -/
theorem display_drawAll_even {l : List Draw}
    (heven : ∀ a ∈ l.map Draw.stamp, Even ((l.map Draw.stamp).count a)) :
    (s.drawAll l).display = s.display := by
  refine Frame.ext_pixel fun r c => ?_
  have hpairs : 2 ∣ ((l.map Draw.stamp).flatMap (Stamp.spots s.memory)).count (r, c) := by
    rw [List.count_flatMap, Finset.sum_list_map_count]
    refine Finset.dvd_sum fun a ha => ?_
    have hcount := (heven a (List.mem_toFinset.1 ha)).two_dvd
    exact Dvd.dvd.mul_right hcount _
  have hpixel := pixel_drawAll (s := s) l (r, c)
  rw [Nat.mod_eq_zero_of_dvd hpairs, Nat.xor_zero] at hpixel
  exact hpixel

/-- **Draws can be put in any order and cancel out in pairs**, and each of them lights a pixel or puts
one out for every bit of its sprite that is set; the flag says whether it has put out any. -/
theorem drawAll_algebra (hs : s.display.Binary) (l : List Draw) :
    (∀ l' : List Draw, (l'.map Draw.stamp).Perm (l.map Draw.stamp) →
      (s.drawAll l').display = (s.drawAll l).display) ∧
    ((∀ a ∈ l.map Draw.stamp, Even ((l.map Draw.stamp).count a)) →
      (s.drawAll l).display = s.display) ∧
    ∀ past d later, l = past ++ d :: later →
      let before := s.drawAll past
      let after := before.perform d
      let out := (Sprite.putOut before.display after.display).card
      (Sprite.lit after.display).card + 2 * out =
          (Sprite.lit before.display).card +
            Sprite.setBits (s.memory.read d.stamp.index d.stamp.height) ∧
        after.reg .flag = if 0 < out then 1 else 0 := by
  refine ⟨fun l' hperm => display_drawAll_perm hperm, display_drawAll_even, ?_⟩
  rintro past d later rfl before after out
  obtain ⟨hmemory, hbinary⟩ := drawAll_keeps hs past
  have hheight : d.stamp.height.val ≤ 32 := by omega
  have hnodup :=
    Sprite.nodup_spots_read d.stamp.row d.stamp.column d.stamp.index s.memory hheight
  obtain ⟨hdisplay, hflag⟩ := drawing_perform before d
  rw [show before.memory = s.memory from hmemory] at hdisplay hflag
  simp only [out, after, hdisplay, hflag]
  exact ⟨Sprite.card_lit_draw hnodup hbinary, Sprite.collision_draw_toNat hnodup hbinary⟩

/-- Two glyphs that overlap across the corner of the display, the second with one register for both
coordinates, are drawn once more through other registers: nothing of them is left, though the first
of them alone can be seen. -/
theorem drawAll_algebra_in_pairs :
    let s := fresh false
    let zero : Stamp := ⟨Font.start, 62, 30, 5⟩
    let one : Stamp := ⟨Font.start + 5, 63, 63, 5⟩
    let l : List Draw := [⟨zero, 0, 1, by decide⟩, ⟨one, 2, 2, fun _ => rfl⟩,
      ⟨zero, .flag, 3, by decide⟩, ⟨one, 4, .flag, by decide⟩]
    s.display.Binary ∧ (s.drawAll l).display = s.display ∧
      (s.drawAll (l.take 1)).display ≠ s.display := by
  intro s zero one l
  have hbinary : s.display.Binary := Frame.binary_blank 32 64
  obtain ⟨-, hpairs, -⟩ := drawAll_algebra hbinary l
  exact ⟨hbinary, hpairs (by decide), by decide +kernel⟩

end State

end Chip8Vm
