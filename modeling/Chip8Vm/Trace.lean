/-!
# Tracing

While tracing is on the machine tells what it does, in lines made of words with a space
between them.
-/

namespace Chip8Vm.Trace

/-- The lines that are printed for some words: one while tracing, none otherwise. -/
def log (tracing : Bool) (words : List String) : List String :=
  if tracing then [" ".intercalate words] else []

theorem log_false (words : List String) : log false words = [] := rfl

end Chip8Vm.Trace
