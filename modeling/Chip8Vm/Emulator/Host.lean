import Chip8Vm.Display.Picture

/-!
# The host

What the emulator and the host that shows its window have to say to each other. The emulator
asks for things by requests; the host tells it of events. Besides the sixteen keys of the
keypad the emulator knows two keys of its own: escape closes the window and `F1` turns tracing
on and off.
-/

namespace Chip8Vm

/-- The two clocks by which the host drives the emulator. -/
inductive Clock
  | cpu
  | timers
deriving DecidableEq, Repr

/-- How often a clock ticks in a second. -/
def Clock.rate : Clock → Nat
  | .cpu => 600
  | .timers => 60

/-- What is asked of the host. -/
inductive Request
  | openWindow (width height : Nat) (caption : String) (vsync : Bool)
  /-- A picture of the size of the window, of so many bytes, all of them zero or not. -/
  | createPicture (width height bytes : Nat) (blank : Bool)
  /-- A clock that ticks so many times in a second. -/
  | schedule (clock : Clock) (rate : Nat)
  | unschedule (clock : Clock)
  /-- New content for the picture, in rows of `pitch` bytes. -/
  | setPicture (pitch : Nat) (picture : Picture (32 * 10) (64 * 10))
  | clearWindow
  | showPicture (x y : Nat)
  /-- What a host does by itself when its window is asked to close. -/
  | defaultClose
  | closeWindow
deriving DecidableEq

/-- A key of the host's keyboard. -/
inductive HostKey
  | escape
  | f1
  /-- A key that is named by the character it types, letters in upper case. -/
  | char (c : Char)
  | other
deriving DecidableEq, Repr

/-- The block of sixteen keys, four rows from the top, and the keypad's numbers. -/
def HostKey.layout : List (Char × Fin 16) :=
  [ ('1', 0x1), ('2', 0x2), ('3', 0x3), ('4', 0xC),
    ('Q', 0x4), ('W', 0x5), ('E', 0x6), ('R', 0xD),
    ('A', 0x7), ('S', 0x8), ('D', 0x9), ('F', 0xE),
    ('Z', 0xA), ('X', 0x0), ('C', 0xB), ('V', 0xF) ]

/-- The key of the keypad that a host key stands for. -/
def HostKey.keypad? : HostKey → Option (Fin 16)
  | .char c => layout.lookup c
  | _ => none

/-- What the host tells the emulator. -/
inductive Event
  /-- The clock of the processor has ticked so many times. -/
  | tick (times : Nat)
  /-- The clock of the timers has ticked so many times. -/
  | timer (times : Nat)
  | draw
  | press (key : HostKey)
  | release (key : HostKey)
  | close
deriving DecidableEq, Repr

/-- Events, and how many times each of them happens in a row. -/
abbrev Script := List (Event × Nat)

/-- The events of a script, one by one. -/
def Script.events (script : Script) : List Event :=
  script.flatMap fun (event, times) => List.replicate times event

end Chip8Vm
