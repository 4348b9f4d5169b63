import Chip8Vm.Display.Frame

/-!
# Pictures

A frame becomes a picture by painting every pixel grey, opaque, and with the rows turned
round, since pictures have their bottom row first; then every row and every column is
repeated. Painting goes over a picture of the same size that was used before; `paint_eq_paint`
says that nothing of it remains, and `getElem_enlarge` gives every pixel of an enlarged
picture.
-/

namespace Chip8Vm

structure Pixel where
  red : Nat
  green : Nat
  blue : Nat
  alpha : Nat
deriving DecidableEq, Repr

/-- A grid of `h` rows and `w` columns of pixels, bottom row first. -/
abbrev Picture (h w : Nat) := Vector (Vector Pixel w) h

/-- The pixel with all four channels set to `v`. -/
def Pixel.uniform (v : Nat) : Pixel := ⟨v, v, v, v⟩

/-- Overwrites a pixel by the opaque grey of a pixel value, in arithmetic modulo 256. -/
def Pixel.tint (p : Pixel) (v : Nat) : Pixel :=
  let grey := v * 255 % 256
  { p with red := grey, green := grey, blue := grey, alpha := 255 }

namespace Picture

variable {h w : Nat}

/-- The picture of one pixel all over. -/
def uniform (h w : Nat) (p : Pixel) : Picture h w := Vector.replicate h (Vector.replicate w p)

/-- Paints a frame over a picture. -/
def paint (under : Picture h w) (f : Frame h w) : Picture h w :=
  Vector.zipWith (Vector.zipWith Pixel.tint) under f.reverse

/-- Repeats every row and every column `k` times. -/
def enlarge (k : Nat) (p : Picture h w) : Picture (h * k) (w * k) :=
  (p.map fun row => row.flatMap (Vector.replicate k)).flatMap (Vector.replicate k)

/-- The painted pixel: the rows are turned round, and what was there before does not show. -/
theorem getElem_paint (under : Picture h w) (f : Frame h w) (r c : Nat) (hr : r < h) (hc : c < w) :
    (under.paint f)[r][c] = Pixel.tint (.uniform 0) f[h - 1 - r][c] := by
  simp [paint, Pixel.tint]

theorem paint_eq_paint (under under' : Picture h w) (f : Frame h w) :
    under.paint f = under'.paint f := by
  refine Vector.ext fun r hr => Vector.ext fun c hc => ?_
  rw [getElem_paint, getElem_paint]

/-- Which of `n` lines, each repeated `k` times, a repeated line comes from. -/
def origin {n k : Nat} (i : Fin (n * k)) : Fin n :=
  ⟨i.val / k, Nat.div_lt_of_lt_mul (Nat.mul_comm n k ▸ i.isLt)⟩

/-- Every pixel of the enlarged picture is the one whose block it lies in. -/
theorem getElem_enlarge (k : Nat) (p : Picture h w) (r : Fin (h * k)) (c : Fin (w * k)) :
    (p.enlarge k)[r][c] = p[origin r][origin c] := by
  simp [enlarge, Vector.getElem_flatMap, origin]

/-- A pixel of a painted and enlarged frame: the rows are turned round, and it is opaque. -/
theorem getElem_enlarge_paint (k : Nat) (under : Picture h w) (f : Frame h w)
    (r : Fin (h * k)) (c : Fin (w * k)) :
    ((under.paint f).enlarge k)[r][c] =
      Pixel.tint (.uniform 0) (f.pixel (origin r).rev (origin c)) := by
  have hrow : h - 1 - (origin r).val = (origin r).rev.val := by
    rw [Fin.val_rev, Nat.sub_sub, Nat.add_comm 1]
  have hpaint := getElem_paint under f (origin r).val (origin c).val (origin r).isLt (origin c).isLt
  simp only [hrow] at hpaint
  rw [getElem_enlarge]
  exact hpaint

end Picture

end Chip8Vm
