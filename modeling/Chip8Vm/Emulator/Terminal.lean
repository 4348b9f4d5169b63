import Chip8Vm.Emulator.Session

/-!
# Sessions in a terminal

A terminal can be the host of a session: events are read from lines such as `tick 10`, `press
Q` or `draw`, and the display is shown as lines of marks and blanks.
-/

namespace Chip8Vm

/-- The key with a name: `ESCAPE`, `F1`, or the character it types. -/
def HostKey.ofName (name : String) : HostKey :=
  match name.toList with
  | [c] => .char c
  | _ => if name = "ESCAPE" then .escape else if name = "F1" then .f1 else .other

/-- The event that a line names. -/
def Event.ofLine? (line : String) : Option Event :=
  match (line.splitOn " ").filter (· ≠ "") with
  | ["tick"] => some (.tick 1)
  | ["tick", times] => times.toNat?.map .tick
  | ["timer"] => some (.timer 1)
  | ["timer", times] => times.toNat?.map .timer
  | ["draw"] => some .draw
  | ["press", key] => some (.press (.ofName key))
  | ["release", key] => some (.release (.ofName key))
  | ["close"] => some .close
  | _ => none

/-- The display as lines of text, a mark for each lit pixel. -/
def Frame.lines {h w : Nat} (f : Frame h w) : List String :=
  f.toList.map fun row => String.ofList (row.toList.map fun p => if p = 0 then ' ' else '#')

/-- The lines that a turn shows: what it printed, then the display if it is shown anew. -/
def Turn.lines (t : Turn) : List String :=
  let isPicture : Request → Bool
    | .setPicture .. => true
    | _ => false
  t.printed ++ if t.requests.any isPicture then t.emulator.machine.display.lines else []

end Chip8Vm
