import Chip8Vm.Proofs.Concern
import Chip8Vm.Proofs.Footprint
import Chip8Vm.Proofs.Simulation

/-!
# Dead cells

An entry of the stack above those in use is dead, and so is the register that a key goes to while
none is awaited: whatever stands there is overwritten before it is looked at. `SameLive` relates
machines that differ in dead cells only. A call writes the very entry that it brings to life, a
return reads a live one and leaves it dead (`SameLive.call?`, `SameLive.return?`), and a wait for a
key sets the register when it begins; hence `replies_of_sameLive`, over histories of any length.
-/

namespace Chip8Vm.State

/-- The second machine is the first one but for dead cells: entries of the stack that are not in
use, and the register that a key goes to while no key is awaited. -/
def SameLive (s t : State) : Prop :=
  ∃ stack keyRegister, t = { s with stack, keyRegister } ∧
    (∀ k : Fin 16, k.val < s.sp → stack.get k = s.stack.get k) ∧
    (s.waiting = true → keyRegister = s.keyRegister)

namespace SameLive

variable {i : Instruction} {s t : State} (h : SameLive s t)

include h

/-- A return reads a live entry. -/
theorem return? {s' : State} (hs : s.return? = some s') :
    ∃ t', t.return? = some t' ∧ SameLive s' t' := by
  obtain ⟨stack, keyRegister, rfl, hstack, hregister⟩ := h
  obtain ⟨hsp, rfl⟩ := eq_of_return? hs
  have hlast : s.sp - 1 < 16 := Nat.lt_of_lt_of_le (Nat.sub_one_lt_of_lt hsp.1) hsp.2
  have hentry : stack[s.sp - 1] = s.stack[s.sp - 1] :=
    hstack ⟨s.sp - 1, hlast⟩ (Nat.sub_one_lt_of_lt hsp.1)
  refine ⟨_, dif_pos hsp, stack, keyRegister, ?_, fun k hk => ?_, hregister⟩
  · simp only [hentry]
  · exact hstack k (Nat.lt_of_lt_of_le hk (Nat.sub_le ..))

/-- A call writes the entry that it takes into use. -/
theorem call? {target : Nat} {s' : State} (hs : s.call? target = some s') :
    ∃ t', t.call? target = some t' ∧ SameLive s' t' := by
  obtain ⟨stack, keyRegister, rfl, hstack, hregister⟩ := h
  obtain ⟨hsp, rfl⟩ := eq_of_call? hs
  refine ⟨_, dif_pos hsp, stack.set s.sp s.pc.toNat, keyRegister, rfl, fun k hk => ?_, hregister⟩
  show (stack.set s.sp s.pc.toNat hsp)[k.val] = (s.stack.set s.sp s.pc.toNat hsp)[k.val]
  have hused : k.val < s.sp + 1 := hk
  by_cases hnew : s.sp = k.val
  · simp only [hnew, Vector.getElem_set_self]
  · rw [Vector.getElem_set_ne hsp k.isLt hnew, Vector.getElem_set_ne hsp k.isLt hnew]
    exact hstack k (by omega)

/-- An instruction that does not fail keeps the machines the same but for dead cells. -/
theorem execute (random : Nat → Nat) (hk : s.stackFault? i = none) :
    SameLive (s.execute random i).state (t.execute random i).state := by
  by_cases hcell : Cell.stack ∈ i.op.cells ∨ Cell.keyRegister ∈ i.op.cells
  · unfold State.execute
    cases hop : i.op with
    | ret =>
      cases hret : s.return? with
      | none => simp [stackFault?, hop, hret] at hk
      | some s' =>
        obtain ⟨t', ht, hlive⟩ := h.return? hret
        simp only [ht]
        exact hlive
    | call =>
      cases hcall : s.call? i.nnn with
      | none => simp [stackFault?, hop, hcall] at hk
      | some s' =>
        obtain ⟨t', ht, hlive⟩ := h.call? hcall
        simp only [ht]
        exact hlive
    | awaitKey =>
      obtain ⟨stack, keyRegister, rfl, hstack, -⟩ := h
      exact ⟨stack, i.x, rfl, hstack, fun _ => rfl⟩
    | _ => simp [hop, Op.cells] at hcell
  · obtain ⟨stack, keyRegister, rfl, hstack, hregister⟩ := h
    have hops : i.op ≠ .ret ∧ i.op ≠ .call ∧ i.op ≠ .awaitKey := by
      refine ⟨?_, ?_, ?_⟩ <;> exact fun hop => hcell (by simp [hop, Op.cells])
    obtain ⟨hret, hcall, hawait⟩ := hops
    -- the others neither look at what is dead nor bring it to life
    have hkeeps : ∀ c ∈ i.op.cells,
        Edit.Keeps { stack := fun _ => stack, keyRegister := fun _ => keyRegister } c := by
      intro c hc
      cases c with
      | stack => exact absurd (.inl hc) hcell
      | keyRegister => exact absurd (.inr hc) hcell
      | _ => rfl
    have hedit := execute_edit random hkeeps s
    have hfoot := footprint_execute random hk
    have hsp : (s.execute random i).state.sp = s.sp := by
      have hcount := hfoot.sp
      rwa [if_neg hret, if_neg hcall] at hcount
    refine ⟨stack, keyRegister, congrArg Reply.state hedit, fun k hused => ?_, fun hwait => ?_⟩
    · rw [hfoot.stack k fun hpush => hcall hpush.1]
      exact hstack k (hsp ▸ hused)
    · rw [hfoot.keyRegister hawait]
      exact hregister (hfoot.waiting hawait ▸ hwait)

/-- The last line of the report is the only one that shows the stack, and the register that a key
goes to is not shown. -/
theorem sameLinesBut : SameLinesBut 5 s t := by
  obtain ⟨stack, keyRegister, rfl, -, -⟩ := h
  intro j hj
  match j with
  | 0 | 1 | 2 | 3 | 4 | j + 6 => rfl
  | 5 => exact absurd rfl hj

end SameLive

theorem simulation_sameLive (random : Nat → Nat) :
    Simulation random random SameLive (SameLinesBut 5) where
  alike := by
    rintro s _ ⟨stack, keyRegister, rfl, -, hregister⟩
    exact ⟨s.index, stack, keyRegister, s.drawn, rfl, hregister⟩
  reports h := h.sameLinesBut
  blind := by
    rintro s _ ⟨stack, keyRegister, rfl, hstack, hregister⟩
    intro memory registers pc keys delay sound dirty waiting hwaiting
    exact ⟨stack, keyRegister, rfl, hstack, fun hwait => hregister (hwaiting hwait)⟩
  execute h hk := h.execute random hk
  reset := by
    rintro s _ ⟨stack, keyRegister, rfl, -, -⟩
    exact ⟨_, _, rfl, fun _ _ => rfl, fun _ => rfl⟩

/-- **Dead cells never show.** Machines that differ in dead cells only answer every call alike, with
the same faults and the same text printed, and differ in dead cells only afterwards, whichever cells
are dead by then; only the last line of a report, which lists the whole stack, may tell them
apart. -/
theorem replies_of_sameLive (env : Surroundings) {s t : State} (h : SameLive s t)
    (history : List Operation) :
    List.Forall₂ (Reply.Matches SameLive (SameOutcome (SameLinesBut 5)))
      (s.replies env history) (t.replies env history) :=
  (simulation_sameLive env.random).replies history h

/-- A call brings to life an entry of the stack that was not the same before. -/
theorem replies_of_sameLive_call :
    let env : Surroundings := ⟨fun _ => 0, false, fun _ => .ok []⟩
    let s := ((fresh false).load [0x22, 0x04]).state
    let t := { s with stack := Vector.replicate 16 7, keyRegister := 9 }
    SameLive s t ∧ s.stack.get 0 ≠ t.stack.get 0 ∧
      SameLive (s.after env [.step]) (t.after env [.step]) ∧ (s.after env [.step]).sp = 1 := by
  intro env s t
  have hnone (k : Fin 16) (hk : k.val < s.sp) : t.stack.get k = s.stack.get k :=
    absurd hk (Nat.not_lt_zero _)
  have hstart : SameLive s t := ⟨t.stack, t.keyRegister, rfl, hnone, Bool.noConfusion⟩
  have hreplies := replies_of_sameLive env hstart [.step]
  have hstep := (List.forall₂_cons.1 hreplies).1
  exact ⟨hstart, by decide, hstep.state, by decide +kernel⟩

end Chip8Vm.State
