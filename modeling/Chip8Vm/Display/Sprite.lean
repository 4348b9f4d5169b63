import Chip8Vm.Display.Frame

/-!
# Sprites

A sprite is a list of bytes, one for each row, whose bits are pixels from left (highest bit)
to right. Its place is given by its top row and left column, and every pixel wraps round both
edges of the display. Drawing toggles the covered pixels one by one and notes whether one of
them was lit.
-/

namespace Chip8Vm.Sprite

/-- A place on the display: row and column. -/
abbrev Spot := Fin 32 × Fin 64

/-- Whether the bit that stands `bit` places from the left of a row is set. -/
def covers (byte bit : Nat) : Bool := byte.testBit (7 - bit)

/-- The spots that one row of a sprite covers, from left to right. -/
def rowSpots (top left byte : Nat) : List Spot :=
  ((List.range 8).filter (covers byte)).map fun bit => (Fin.ofNat 32 top, Fin.ofNat 64 (left + bit))

/-- The spots that a sprite covers, row by row. -/
def spots (top left : Nat) : List Nat → List Spot
  | [] => []
  | byte :: bytes => rowSpots top left byte ++ spots (top + 1) left bytes

/-- A display, and whether a lit pixel of it has been put out. -/
structure Drawing where
  display : Display
  collision : Bool
deriving DecidableEq

/-- Toggles one spot. -/
def Drawing.strike (d : Drawing) (p : Spot) : Drawing :=
  ⟨d.display.toggle p.1 p.2, d.collision || d.display.pixel p.1 p.2 != 0⟩

/-- Draws a sprite. -/
def draw (top left : Nat) (bytes : List Nat) (d : Display) : Drawing :=
  (spots top left bytes).foldl Drawing.strike ⟨d, false⟩

theorem spots_concat (top left : Nat) (bytes : List Nat) (byte : Nat) :
    spots top left (bytes ++ [byte]) =
      spots top left bytes ++ rowSpots (top + bytes.length) left byte := by
  induction bytes generalizing top with
  | nil => simp [spots]
  | cons b bytes ih =>
    rw [List.cons_append, spots, ih, spots, List.length_cons, Nat.add_assoc, Nat.add_comm 1,
      List.append_assoc]

/-- The rows of a sprite, one below the other. -/
theorem spots_map_range (top left : Nat) (byte : Nat → Nat) (n : Nat) :
    spots top left ((List.range n).map byte) =
      (List.range n).flatMap fun row => rowSpots (top + row) left (byte row) := by
  induction n with
  | zero => rfl
  | succ n ih =>
    rw [List.range_succ, List.map_append, List.map_singleton, spots_concat, ih, List.length_map,
      List.length_range, List.flatMap_append, List.flatMap_singleton]

/-- A sprite is drawn row by row. -/
theorem draw_map_range (top left : Nat) (byte : Nat → Nat) (n : Nat) (d : Display) :
    draw top left ((List.range n).map byte) d =
      (List.range n).foldl
        (fun d row => (rowSpots (top + row) left (byte row)).foldl Drawing.strike d)
        ⟨d, false⟩ := by
  rw [draw, spots_map_range, List.foldl_flatMap]

end Chip8Vm.Sprite
