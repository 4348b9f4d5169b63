/-!
# Frames

A frame is a grid of pixel values, top row first. The machine's display is a frame of 32 rows
and 64 columns whose pixels are 0 (dark) or 1 (lit); drawing only ever toggles single pixels.
-/

namespace Chip8Vm

/-- A grid of `h` rows and `w` columns. -/
abbrev Frame (h w : Nat) := Vector (Vector Nat w) h

/-- The display of the machine. -/
abbrev Display := Frame 32 64

namespace Frame

variable {h w : Nat}

/-- The frame whose pixels are all dark. -/
def blank (h w : Nat) : Frame h w := Vector.replicate h (Vector.replicate w 0)

/-- The frame with given rows; what the rows lack is dark. -/
def ofRows (h w : Nat) (rows : Array (Array Nat)) : Frame h w :=
  Vector.ofFn fun r =>
    let row := rows.getD r #[]
    Vector.ofFn fun c => row.getD c 0

/-- The pixel in row `r`, column `c`. -/
def pixel (f : Frame h w) (r : Fin h) (c : Fin w) : Nat := f[r][c]

/-- Lights a dark pixel and puts out a lit one. -/
def toggle (f : Frame h w) (r : Fin h) (c : Fin w) : Frame h w :=
  f.set r (f[r].set c (f.pixel r c ^^^ 1))

theorem pixel_toggle (f : Frame h w) (r r' : Fin h) (c c' : Fin w) :
    (f.toggle r c).pixel r' c' =
      if r = r' ∧ c = c' then f.pixel r' c' ^^^ 1 else f.pixel r' c' := by
  simp only [pixel, toggle, Fin.getElem_fin, Vector.getElem_set, Fin.ext_iff]
  by_cases hr : r.val = r'.val
  · by_cases hc : c.val = c'.val <;> simp [hr, hc]
  · simp [hr]

theorem pixel_blank (r : Fin h) (c : Fin w) : (blank h w).pixel r c = 0 := by
  simp [pixel, blank]

theorem ext_pixel {f g : Frame h w} (hfg : ∀ r c, f.pixel r c = g.pixel r c) : f = g := by
  refine Vector.ext fun r hr => Vector.ext fun c hc => ?_
  exact hfg ⟨r, hr⟩ ⟨c, hc⟩

end Frame

end Chip8Vm
