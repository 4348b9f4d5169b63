import Chip8Vm.Display.Picture

/-!
# Runs

A list in which values come in long runs is written down as its runs: how many equal values
follow one another, and which value it is. `expand_ofList` says that the runs give the list
back. The runs of a picture are runs of rows, each row written as runs of pixels;
`runs_enlarge` says that repeating every row and every column only makes the runs longer, so a
picture need not be enlarged to write down the enlarged one.
-/

namespace Chip8Vm

namespace Runs

variable {α β : Type} [DecidableEq α] [DecidableEq β]

/-- Puts `n` equal values in front of a list of runs. -/
def push (n : Nat) (a : α) : List (Nat × α) → List (Nat × α)
  | [] => [(n, a)]
  | (m, b) :: rest => if a = b then (n + m, b) :: rest else (n, a) :: (m, b) :: rest

/-- The runs of a list, each as long as it can be. -/
def ofList (l : List α) : List (Nat × α) := l.foldr (push 1) []

/-- The list that has the given runs. -/
def expand (runs : List (Nat × α)) : List α :=
  runs.flatMap fun (n, a) => List.replicate n a

omit [DecidableEq α] in
theorem expand_cons (n : Nat) (a : α) (runs : List (Nat × α)) :
    expand ((n, a) :: runs) = List.replicate n a ++ expand runs := rfl

theorem expand_push (n : Nat) (a : α) (runs : List (Nat × α)) :
    expand (push n a runs) = List.replicate n a ++ expand runs := by
  rcases runs with _ | ⟨⟨m, b⟩, rest⟩
  · rfl
  · by_cases h : a = b
    · simp [push, h, expand_cons, ← List.replicate_append_replicate]
    · simp [push, h, expand_cons]

theorem expand_ofList (l : List α) : expand (ofList l) = l := by
  induction l with
  | nil => rfl
  | cons a l ih =>
    show expand (push 1 a (ofList l)) = a :: l
    rw [expand_push, ih]
    rfl

theorem push_push (n m : Nat) (a : α) (runs : List (Nat × α)) :
    push n a (push m a runs) = push (n + m) a runs := by
  rcases runs with _ | ⟨⟨k, b⟩, rest⟩
  · simp [push]
  · by_cases h : a = b <;> simp [push, h, Nat.add_assoc]

/-- Values in front of a list lengthen its first run or make a new one. -/
theorem ofList_replicate_append (k : Nat) (a : α) (l : List α) :
    ofList (List.replicate (k + 1) a ++ l) = push (k + 1) a (ofList l) := by
  induction k with
  | zero => rfl
  | succ k ih =>
    show push 1 a (ofList (List.replicate (k + 1) a ++ l)) = _
    rw [ih, push_push, Nat.add_comm 1]

/-- The runs of `n` equal values. -/
def single (n : Nat) (a : α) : List (Nat × α) := if n = 0 then [] else [(n, a)]

theorem ofList_replicate (n : Nat) (a : α) : ofList (List.replicate n a) = single n a := by
  rcases n with _ | k
  · rfl
  · rw [← List.append_nil (List.replicate (k + 1) a), ofList_replicate_append]
    rfl

/-- Makes every run `k` times as long. -/
def lengthen (k : Nat) (runs : List (Nat × α)) : List (Nat × α) :=
  runs.map fun (n, a) => (n * k, a)

theorem lengthen_push (k n : Nat) (a : α) (runs : List (Nat × α)) :
    lengthen k (push n a runs) = push (n * k) a (lengthen k runs) := by
  rcases runs with _ | ⟨⟨m, b⟩, rest⟩
  · rfl
  · by_cases h : a = b <;> simp [push, lengthen, h, Nat.add_mul]

/-- Repeating every value of a list makes its runs longer. -/
theorem ofList_flatMap_replicate (k : Nat) (l : List α) :
    ofList (l.flatMap (List.replicate (k + 1))) = lengthen (k + 1) (ofList l) := by
  induction l with
  | nil => rfl
  | cons a l ih =>
    show _ = lengthen (k + 1) (push 1 a (ofList l))
    rw [List.flatMap_cons, ofList_replicate_append, ih, lengthen_push, Nat.one_mul]

/-- A function that tells values apart keeps the lengths of runs. -/
theorem ofList_map (f : α → β) (hf : ∀ a b, f a = f b → a = b) (l : List α) :
    ofList (l.map f) = (ofList l).map fun (n, a) => (n, f a) := by
  induction l with
  | nil => rfl
  | cons a l ih =>
    show push 1 (f a) (ofList (l.map f)) = (push 1 a (ofList l)).map _
    rw [ih]
    rcases ofList l with _ | ⟨⟨m, b⟩, rest⟩
    · rfl
    · by_cases h : a = b
      · simp [push, h]
      · have hne : f a ≠ f b := fun e => h (hf a b e)
        simp [push, h, hne]

omit [DecidableEq α] in
theorem lengthen_inj (k : Nat) (runs runs' : List (Nat × α))
    (h : lengthen (k + 1) runs = lengthen (k + 1) runs') : runs = runs' := by
  refine List.map_inj_right ?_ |>.1 h
  rintro ⟨n, a⟩ ⟨m, b⟩ e
  simp only [Prod.mk.injEq] at e
  rw [Nat.eq_of_mul_eq_mul_right (Nat.succ_pos k) e.1, e.2]

end Runs

namespace Picture

variable {h w : Nat}

/-- The runs of equal rows of a picture, with the runs of equal pixels in these rows. -/
def runs (p : Picture h w) : List (Nat × List (Nat × Pixel)) :=
  Runs.ofList (p.toList.map fun row => Runs.ofList row.toList)

theorem runs_uniform (h w : Nat) (px : Pixel) :
    (uniform h w px).runs = Runs.single h (Runs.single w px) := by
  simp [runs, uniform, Runs.ofList_replicate]

theorem toList_flatMap_replicate {α : Type} {n : Nat} (k : Nat) (v : Vector α n) :
    (v.flatMap (Vector.replicate k)).toList = v.toList.flatMap (List.replicate k) := by
  show (v.toArray.flatMap fun a => (Vector.replicate k a).toArray).toList = _
  simp only [Array.toList_flatMap, Vector.toArray_replicate, Array.toList_replicate]
  rfl

theorem runs_enlarge (k : Nat) (p : Picture h w) :
    (p.enlarge (k + 1)).runs =
      Runs.lengthen (k + 1) (p.runs.map fun (n, row) => (n, Runs.lengthen (k + 1) row)) := by
  rw [runs, runs, enlarge, toList_flatMap_replicate, Vector.toList_map,
    ← Runs.ofList_map _ (Runs.lengthen_inj k), ← Runs.ofList_flatMap_replicate]
  simp [List.map_flatMap, List.flatMap_map, toList_flatMap_replicate,
    Runs.ofList_flatMap_replicate]

end Picture

end Chip8Vm
