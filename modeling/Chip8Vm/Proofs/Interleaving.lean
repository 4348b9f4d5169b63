import Chip8Vm.Operation
import Chip8Vm.Proofs.Concern
import Chip8Vm.Proofs.Step

/-!
# Calls between steps

Between two steps the host counts the timers down, records that keys go up and down, and takes the
mark off the display, in the order in which its events happen to come. Each of these calls is an
edit of one or two cells (`HostCall.perform_operation`), so most instructions do not notice whether
it comes before them or after. `HostCall.Meets` names those that may notice: the ones about timers,
the two that look at the very key, and the two that paint. All others, and all the ways in which a
step executes nothing, change places with the call: `step_interleaves` says so of the state that
results and of the way in which the step ends.
-/

namespace Chip8Vm

/-- Two operations are concerned with the delay timer. -/
theorem Op.delay_mem_cells_iff {op : Op} :
    Cell.delay ∈ op.cells ↔ op = .readDelay ∨ op = .setDelay := by
  cases op <;> simp [cells]

theorem Op.sound_mem_cells_iff {op : Op} : Cell.sound ∈ op.cells ↔ op = .setSound := by
  cases op <;> simp [cells]

theorem Op.keys_mem_cells_iff {op : Op} :
    Cell.keys ∈ op.cells ↔ op = .skipPressed ∨ op = .skipReleased := by
  cases op <;> simp [cells]

theorem Op.dirty_mem_cells_iff {op : Op} :
    Cell.dirty ∈ op.cells ↔ op = .clearDisplay ∨ op = .draw := by
  cases op <;> simp [cells]

/-- The instruction at the program counter, if there is one. -/
def State.instruction? (s : State) : Option Instruction :=
  s.fetch?.bind fun w => Instruction.lookUp Instruction.table w

/-- A call that the host makes between two steps. -/
inductive HostCall
  | tickTimers
  | setKey (key : Fin 16) (held : Bool)
  | clearDirty
deriving DecidableEq

namespace HostCall

def operation : HostCall → Operation
  | tickTimers => .tickTimers
  | setKey key held => .setKey key.val held
  | clearDirty => .clearDirty

/-- What a call changes. -/
def edit : HostCall → Edit
  | tickTimers => { delay := (· - 1), sound := (· - 1) }
  | setKey ⟨key, hkey⟩ held => { keys := (·.set key held hkey) }
  | clearDirty => { dirty := fun _ => false }

/-- A call changes that and nothing else, and is never refused. -/
theorem perform_operation (env : Surroundings) (call : HostCall) (s : State) :
    call.operation.perform env s = .ok .done (call.edit.apply s) := by
  cases call with
  | tickTimers => rfl
  | setKey key held =>
    simp only [operation, Operation.perform, State.setKey, key?_natCast]
    rfl
  | clearDirty => rfl

theorem state_operation (env : Surroundings) (call : HostCall) (s : State) :
    (call.operation.perform env s).state = call.edit.apply s := by
  rw [perform_operation]
  rfl

/-- An instruction that is executed in a state looks at or writes to what a call changes. -/
def Meets (call : HostCall) (i : Instruction) (s : State) : Prop :=
  match call with
  | tickTimers => i.op = .readDelay ∨ i.op = .setDelay ∨ i.op = .setSound
  | setKey key _ => (i.op = .skipPressed ∨ i.op = .skipReleased) ∧ s.reg i.x % 16 = key.val
  | clearDirty => i.op = .clearDisplay ∨ i.op = .draw

/-- Two calls are about the same key. -/
def SameKey : HostCall → HostCall → Prop
  | setKey key _, setKey key' _ => key = key'
  | _, _ => False

end HostCall

namespace State

variable {random : Nat → Nat} {tracing : Bool} {call : HostCall} {i : Instruction} {s : State}

/-- Recording one key does not show in another. -/
theorem keyHeld_setKey {key : Fin 16} (held : Bool) {x : Reg} (h : s.reg x % 16 ≠ key.val) :
    ((HostCall.setKey key held).edit.apply s).keyHeld x = s.keyHeld x :=
  Vector.getElem_set_ne key.isLt (lowNibble (s.reg x)).isLt (Ne.symm h)

/-- Executing an instruction that does not meet a call does the same before the call as after. -/
theorem execute_hostCall (random : Nat → Nat) (h : ¬call.Meets i s) :
    (call.edit.apply s).execute random i =
      { s.execute random i with state := call.edit.apply (s.execute random i).state } := by
  cases call with
  | tickTimers =>
    refine execute_edit random (fun c hc => ?_) s
    cases c with
    | delay => exact absurd ((Op.delay_mem_cells_iff.1 hc).imp_right .inl) h
    | sound => exact absurd (.inr (.inr (Op.sound_mem_cells_iff.1 hc))) h
    | _ => rfl
  | setKey key held =>
    by_cases hskip : i.op = .skipPressed ∨ i.op = .skipReleased
    · -- the instruction looks at a key, but at another one
      have hkey : ((HostCall.setKey key held).edit.apply s).keyHeld i.x = s.keyHeld i.x :=
        keyHeld_setKey held fun hreg => h ⟨hskip, hreg⟩
      unfold execute
      rcases hskip with hop | hop
      · simp only [hop, hkey, skipIf_edit]
        rfl
      · simp only [hop, hkey, skipIf_edit]
        rfl
    · refine execute_edit random (fun c hc => ?_) s
      cases c with
      | keys => exact absurd (Op.keys_mem_cells_iff.1 hc) hskip
      | _ => rfl
  | clearDirty =>
    refine execute_edit random (fun c hc => ?_) s
    cases c with
    | dirty => exact absurd (Op.dirty_mem_cells_iff.1 hc) h
    | _ => rfl

/-- A call does not change what stands at the program counter, nor whether the stack refuses it. -/
theorem dispatch_hostCall (random : Nat → Nat) (tracing : Bool) (h : ¬call.Meets i s) :
    (call.edit.apply s).dispatch random tracing i =
      ⟨(s.dispatch random tracing i).result.mapError
          ({ · with report := (call.edit.apply s).report }),
        call.edit.apply (s.dispatch random tracing i).state,
        (s.dispatch random tracing i).printed⟩ := by
  have hstack : (call.edit.apply s).stackFault? i = s.stackFault? i := stackFault?_congr rfl
  have hmoved : ¬call.Meets i { s with pc := s.pc + 2 } := h
  rw [dispatch_eq, dispatch_eq, hstack]
  cases s.stackFault? i with
  | none =>
    -- moving on to the next instruction is no matter of the call
    have hexec := congrArg Reply.state (execute_hostCall random hmoved)
    exact congrArg (Reply.mk _ · _) hexec
  | some kind => rfl

/-- A step that does not meet a call comes to the same before the call as after, except that a fault
reports the state in which it occurs. -/
theorem step_hostCall (random : Nat → Nat) (tracing : Bool)
    (h : s.waiting = false → ∀ i, s.instruction? = some i → ¬call.Meets i s) :
    (call.edit.apply s).step random tracing =
      ⟨(s.step random tracing).result.mapError ({ · with report := (call.edit.apply s).report }),
        call.edit.apply (s.step random tracing).state,
        (s.step random tracing).printed⟩ := by
  have hwait : (call.edit.apply s).waiting = s.waiting := rfl
  have hfetch : (call.edit.apply s).fetch? = s.fetch? := rfl
  unfold step
  rw [hwait, hfetch]
  cases hw : s.waiting with
  | true => rfl
  | false =>
    cases hf : s.fetch? with
    | none => rfl
    | some w =>
      simp only [Instruction.decode, Instruction.decodeBy]
      cases hd : Instruction.lookUp Instruction.table w with
      | none => rfl
      | some i =>
        have hi : s.instruction? = some i := by
          rw [instruction?, hf]
          exact hd
        exact dispatch_hostCall random tracing (h hw i hi)

/-- Calls change places with one another, unless they are about the same key. -/
theorem edit_comm {call call' : HostCall} (h : ¬call.SameKey call') (s : State) :
    call.edit.apply (call'.edit.apply s) = call'.edit.apply (call.edit.apply s) := by
  cases call with
  | setKey key held =>
    cases call' with
    | setKey key' held' =>
      have hkeys : (s.keys.set key' held').set key held = (s.keys.set key held).set key' held' :=
        Vector.set_comm held' held fun heq => h (Fin.ext heq.symm)
      exact congrArg (fun keys => { s with keys }) hkeys
    | tickTimers | clearDirty => rfl
  | tickTimers | clearDirty => cases call' <;> rfl

/-- **A call of the host may come before a step or after it**, unless the machine executes an
instruction that meets the call: the same state results, the step gives the same instruction or
faults in the same way, and prints the same. Calls may also change places with one another, unless
they are about the same key. -/
theorem step_interleaves (env : Surroundings) (s : State) :
    (∀ call : HostCall,
      (s.waiting = false → ∀ i, s.instruction? = some i → ¬call.Meets i s) →
        let stepped := s.step env.random env.tracing
        let called := call.operation.perform env s
        let calledLast := call.operation.perform env stepped.state
        let steppedLast := called.state.step env.random env.tracing
        steppedLast.state = calledLast.state ∧
          steppedLast.result =
            stepped.result.mapError ({ · with report := called.state.report }) ∧
          steppedLast.printed = stepped.printed ∧ calledLast.result = called.result) ∧
    ∀ call call' : HostCall, ¬call.SameKey call' →
      (call.operation.perform env (call'.operation.perform env s).state).state =
        (call'.operation.perform env (call.operation.perform env s).state).state := by
  constructor
  · intro call h stepped called calledLast steppedLast
    have hcalled : called.state = call.edit.apply s := call.state_operation env s
    have hlast : calledLast.state = call.edit.apply stepped.state :=
      call.state_operation env stepped.state
    have hanswer : calledLast.result = called.result := by
      simp only [calledLast, called, HostCall.perform_operation, Reply.ok]
    have hstep : steppedLast = ⟨stepped.result.mapError ({ · with report := called.state.report }),
        calledLast.state, stepped.printed⟩ := by
      simp only [steppedLast, hlast, hcalled]
      exact step_hostCall env.random env.tracing h
    rw [hstep]
    exact ⟨rfl, rfl, rfl, hanswer⟩
  · intro call call' h
    simp only [HostCall.state_operation]
    exact edit_comm h s

/-- An instruction that skips if key 5 is held does not notice whether key 6 went down before it,
but does notice key 5. -/
theorem step_interleaves_other_key :
    let env : Surroundings := ⟨fun _ => 0, false, fun _ => .ok []⟩
    let s := ((fresh false).load [0xE3, 0x9E]).state.setReg 3 5
    let stepped := (s.step env.random env.tracing).state
    let early (k : Fin 16) := ((HostCall.setKey k true).operation.perform env s).state
    let late (k : Fin 16) := ((HostCall.setKey k true).operation.perform env stepped).state
    ((early 6).step env.random env.tracing).state = late 6 ∧ (late 6).pc = 0x202 ∧
      ((early 5).step env.random env.tracing).state.pc = 0x204 ∧ (late 5).pc = 0x202 := by
  intro env s stepped early late
  have hinstruction : s.instruction? = some ⟨.skipPressed, 0xE39E⟩ := by decide +kernel
  have hfree : ∀ i, s.instruction? = some i → ¬(HostCall.setKey 6 true).Meets i s := by
    intro i hi
    obtain rfl := Option.some.inj (hinstruction.symm.trans hi)
    exact fun hmeets => absurd hmeets.2 (by decide +kernel)
  have hcall := (step_interleaves env s).1 (.setKey 6 true) fun _ => hfree
  exact ⟨hcall.1, by decide +kernel, by decide +kernel, by decide +kernel⟩

end State

end Chip8Vm
