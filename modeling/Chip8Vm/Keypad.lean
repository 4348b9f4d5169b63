import Chip8Vm.Reply
import Chip8Vm.Text.Numeral

/-!
# The keypad

Sixteen keys, numbered 0 to 15. Holding a key down and delivering a key to a waiting machine
are two different calls: a held key never ends a wait. A number that is no key is refused,
except that a delivery which nobody waits for is turned down before its number is looked at.
-/

namespace Chip8Vm

/-- A number that is no key, given to `setKey` or to `deliverKey`. -/
inductive KeyError
  | index (k : Int)
  | value (k : Int)
deriving DecidableEq, Repr

def KeyError.message : KeyError → String
  | .index k => "key index out of range: " ++ Numeral.decimal k
  | .value k => "key value out of range: " ++ Numeral.decimal k

/-- The key with a number. -/
def key? (k : Int) : Option (Fin 16) :=
  if h : 0 ≤ k ∧ k < 16 then some ⟨k.toNat, by omega⟩ else none

theorem key?_eq_none_iff {k : Int} : key? k = none ↔ k < 0 ∨ 16 ≤ k := by
  unfold key?
  split <;> simp <;> omega

theorem key?_natCast (k : Fin 16) : key? (k.val : Int) = some k := by
  have h : (0 : Int) ≤ k.val ∧ (k.val : Int) < 16 := by omega
  simp [key?, h]

namespace State

/-- Records that a key is held down or not. -/
def setKey (k : Int) (held : Bool) (s : State) : Reply KeyError Unit :=
  match key? k with
  | none => .refuse (.index k) s
  | some k => .ok () { s with keys := s.keys.set k held }

/-- Hands a key to the register that waits for it, and says whether one was waiting. -/
def deliverKey (k : Int) (s : State) : Reply KeyError Bool :=
  if s.waiting then
    match key? k with
    | none => .refuse (.value k) s
    | some k => .ok true { s.setReg s.keyRegister k.val with waiting := false }
  else .ok false s

/-- Nothing changes but which keys are held down. -/
theorem state_setKey (k : Int) (held : Bool) (s : State) :
    ∃ keys, (s.setKey k held).state = { s with keys } := by
  unfold setKey
  cases key? k with
  | none => exact ⟨s.keys, rfl⟩
  | some k' => exact ⟨_, rfl⟩

/-- Nothing changes but the register that waits and the wait. -/
theorem state_deliverKey (k : Int) (s : State) :
    ∃ registers waiting, (s.deliverKey k).state = { s with registers, waiting } := by
  unfold deliverKey
  split
  · cases key? k with
    | none => exact ⟨s.registers, s.waiting, rfl⟩
    | some k' => exact ⟨_, _, rfl⟩
  · exact ⟨s.registers, s.waiting, rfl⟩

theorem deliverKey_not_waiting {s : State} (k : Int) (h : s.waiting = false) :
    s.deliverKey k = .ok false s := by
  simp [deliverKey, h]

/-- A waiting machine takes a key into the register and goes on. -/
theorem deliverKey_key {s : State} (k : Fin 16) (h : s.waiting = true) :
    s.deliverKey k.val = .ok true { s.setReg s.keyRegister k.val with waiting := false } := by
  simp [deliverKey, h, key?_natCast]

/-- A waiting machine refuses what is no key. -/
theorem deliverKey_no_key {s : State} {k : Int} (h : s.waiting = true) (hk : k < 0 ∨ 16 ≤ k) :
    s.deliverKey k = .refuse (.value k) s := by
  simp [deliverKey, h, key?_eq_none_iff.2 hk]

end State

end Chip8Vm
