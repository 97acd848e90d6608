import Microcontroller.Proofs.Operand.Update
import Microcontroller.Proofs.Operation.ShiftPlaces

namespace Microcontroller

open Dialogue

def Attempt.times (x : Attempt Unit) : Nat → Attempt Unit
  | 0 => pure ()
  | k + 1 => do
    x.times k
    x

theorem Attempt.run_seq {σ α β : Type} [Host σ] {x : Attempt α} {y : Attempt β} {value : α} {p q : Processor}
    {host after : σ} (h : (x.run p).run host = ((.ok value, q), after)) :
    ((x >>= fun _ => y).run p).run host = (y.run q).run after := by
  rw [Attempt.run_bind, Dialogue.run_bind, h]

namespace Operand

structure Shifted (operand : Operand) (shift : Shift) (places : Nat) (p : Processor) (m : Memory) (q : Processor)
    (after : Memory) : Prop where
  leaves : shift.Leaves places (operand.size.cut (operand.value p m)) (p.status.get .carry)
    (operand.size.cut (operand.value q after)) (q.status.get .carry)
  alters : operand.Alters p m q after
  codes : q.status.codes =
    { negative := (operand.size.cut (operand.value q after)).msb
      zero := decide ((operand.size.cut (operand.value q after)).toNat = 0)
      overflow := false
      carry := q.status.get .carry }
  masked : q.status.masked = p.status.masked

def Restores (operand : Operand) (x : Attempt Unit) (p : Processor) (m : Memory) : Prop :=
  ∃ q after, (x.run p).run m = ((.ok (), q), after) ∧ operand.value q after = operand.value p m

theorem run_applyShift (operand : Operand) (shift : Shift) (p : Processor) (m : Memory) :
    let applied := shift.apply operand.size (p.status.get .carry) (operand.value p m)
    let state := operand.updated applied.1 (fun s => (s.set .carry applied.2).withResult applied.1 operand.size) p m
    ((operand.applyShift shift).run p).run m = (((), state.1), state.2) := by
  intro applied state
  rw [applyShift, Routine.run_bind, Dialogue.run_bind, run_read_memory]
  simp only [Routine.run_bind, Routine.run_get, done_bind, Dialogue.run_bind, run_write, Routine.run_updateStatus,
    Routine.run_report, run_done]
  rfl

theorem Shifted.succ {operand : Operand} {shift : Shift} {places : Nat} {p q q' : Processor} {m after after' : Memory}
    (h : operand.Shifted shift places p m q after) (hlast : operand.Shifted shift 1 q after q' after') :
    operand.Shifted shift (places + 1) p m q' after' where
  leaves := h.leaves.succ hlast.leaves
  alters := h.alters.trans hlast.alters
  codes := hlast.codes
  masked := hlast.masked.trans h.masked

section Repeated

variable {operand : Operand} (h : operand.isImmediate = false)

include h

theorem shifted_applyShift (shift : Shift) (p : Processor) (m : Memory) :
    ∃ q after, ((operand.applyShift shift).run p).run m = (((), q), after) ∧ operand.Shifted shift 1 p m q after := by
  let applied := shift.apply operand.size (p.status.get .carry) (operand.value p m)
  let f (s : Status) := (s.set .carry applied.2).withResult applied.1 operand.size
  have hvalue := value_updated applied.1 f p m h
  have hstatus : (operand.updated applied.1 f p m).1.status = f p.status := operand.status_updated applied.1 f p m
  have hcarry : (f p.status).get .carry = applied.2 := by
    rw [Status.carry_withResult, Status.get_set, if_pos rfl]
  refine ⟨_, _, operand.run_applyShift shift p m, ?_⟩
  constructor
  case leaves =>
    rw [hvalue, hstatus, hcarry, Size.cut_truncate]
    exact Shift.apply_leaves operand.size (truncate_value h p m) shift _
  case alters => exact alters_updated _ f p m h
  case codes =>
    rw [hvalue, hstatus, hcarry, Size.cut_truncate, Status.codes_withResult, Size.isNegative_eq, Size.isZero_eq,
      Status.get_set, if_pos rfl]
  case masked =>
    rw [hstatus]
    exact (Status.masked_withResult _ _ _).trans (Status.masked_set _ _ _)

theorem shifted_times (index : Byte) {shift : Shift} {sub : Register} (hsub : sub ∈ shift.fields) (k : Nat) (p : Processor)
    (m : Memory) :
    ∃ q after, (((operand.shift index sub).times (k + 1)).run p).run m = ((.ok (), q), after) ∧
      operand.Shifted shift (k + 1) p m q after := by
  have hshift : operand.shift index sub = liftM (operand.applyShift shift) := by
    rw [Operand.shift, h, Shift.ofField?_eq_some hsub]
  have hone (p : Processor) (m : Memory) : ∃ q after,
      ((operand.shift index sub).run p).run m = ((.ok (), q), after) ∧ operand.Shifted shift 1 p m q after := by
    obtain ⟨q, after, hrun, hshifted⟩ := shifted_applyShift h shift p m
    refine ⟨q, after, ?_, hshifted⟩
    rw [hshift, Attempt.run_lift, Dialogue.run_bind, hrun]
    rfl
  induction k with
  | zero => exact hone p m
  | succ k ih =>
    obtain ⟨q, after, hrun, hshifted⟩ := ih
    obtain ⟨q', after', hrun', hshifted'⟩ := hone q after
    exact ⟨q', after', (Attempt.run_seq hrun).trans hrun', hshifted.succ hshifted'⟩

theorem restores_there_and_back (index : Byte) {there back : Shift} {sub other : Register} (hsub : sub ∈ there.fields)
    (hother : other ∈ back.fields) {k : Nat} (hk : 0 < k)
    (hback : ∀ {x y z : BitVec operand.size.bits} {carry out last : Bool},
      there.Leaves k x carry y out → back.Leaves k y out z last → z = x) (p : Processor) (m : Memory) :
    operand.Restores (do (operand.shift index sub).times k; (operand.shift index other).times k) p m := by
  obtain ⟨j, rfl⟩ := Nat.exists_eq_add_one_of_ne_zero hk.ne'
  obtain ⟨q, after, hrun, hshifted⟩ := shifted_times h index hsub j p m
  obtain ⟨q', after', hrun', hshifted'⟩ := shifted_times h index hother j q after
  exact ⟨q', after', (Attempt.run_seq hrun).trans hrun', value_eq_of_cut h (hback hshifted.leaves hshifted'.leaves)⟩

theorem restores_full_turn (index : Byte) {shift : Shift} {sub : Register} (hsub : sub ∈ shift.fields)
    (hturn : ∀ {x y : BitVec operand.size.bits} {carry out : Bool},
      shift.Leaves operand.size.bits x carry y out → y = x) (p : Processor) (m : Memory) :
    operand.Restores ((operand.shift index sub).times operand.size.bits) p m := by
  obtain ⟨j, hj⟩ := Nat.exists_eq_add_one_of_ne_zero operand.size.bits_pos.ne'
  obtain ⟨q, after, hrun, hshifted⟩ := shifted_times h index hsub j p m
  rw [← hj] at hrun hshifted
  exact ⟨q, after, hrun, value_eq_of_cut h (hturn hshifted.leaves)⟩

theorem repeated_shifts (index : Byte) (p : Processor) (m : Memory) :
    let x := operand.size.cut (operand.value p m)
    let shifts (sub : Register) (k : Nat) := (operand.shift index sub).times k
    (∀ shift : Shift, ∀ sub ∈ shift.fields, ∀ k > 0, ∃ q after,
      ((shifts sub k).run p).run m = ((.ok (), q), after) ∧
        let y := operand.size.cut (operand.value q after)
        shift.Leaves k x (p.status.get .carry) y (q.status.get .carry) ∧
          operand.Receives (operand.value q after) p m { q with status := p.status } after ∧
          q.status.codes =
            { negative := y.msb, zero := decide (y.toNat = 0), overflow := false, carry := q.status.get .carry } ∧
          q.status.masked = p.status.masked) ∧
    (∀ k > 0, operand.Restores (do shifts 4 k; shifts 5 k) p m ∧ operand.Restores (do shifts 5 k; shifts 4 k) p m) ∧
    operand.Restores (shifts 4 operand.size.bits) p m ∧ operand.Restores (shifts 5 operand.size.bits) p m ∧
    ∃ q after, ((shifts 6 (operand.size.bits + 1)).run p).run m = ((.ok (), q), after) ∧
      operand.value q after = operand.value p m ∧ q.status.get .carry = p.status.get .carry := by
  intro x shifts
  have hleft : (4 : Register) ∈ Shift.rotateLeft.fields := List.mem_singleton_self 4
  have hright : (5 : Register) ∈ Shift.rotateRight.fields := List.mem_singleton_self 5
  have hthrough : (6 : Register) ∈ Shift.rotateThroughCarry.fields := List.mem_singleton_self 6
  refine ⟨?_, ?_, ?_, ?_, ?_⟩
  · intro shift sub hsub k hk
    obtain ⟨j, rfl⟩ := Nat.exists_eq_add_one_of_ne_zero hk.ne'
    obtain ⟨q, after, hrun, hshifted⟩ := shifted_times h index hsub j p m
    exact ⟨q, after, hrun, hshifted.leaves, hshifted.alters.receives h, hshifted.codes, hshifted.masked⟩
  · intro k hk
    constructor
    · apply restores_there_and_back h index hleft hright hk
      rintro x y z carry out last ⟨rfl, -⟩ ⟨rfl, -⟩
      exact Rotation.rotateRight_rotateLeft x k
    · apply restores_there_and_back h index hright hleft hk
      rintro x y z carry out last ⟨rfl, -⟩ ⟨rfl, -⟩
      exact Rotation.rotateLeft_rotateRight x k
  · apply restores_full_turn h index hleft
    rintro x y carry out ⟨rfl, -⟩
    exact Rotation.rotateLeft_width x
  · apply restores_full_turn h index hright
    rintro x y carry out ⟨rfl, -⟩
    exact Rotation.rotateRight_width x
  · obtain ⟨q, after, hrun, hshifted⟩ := shifted_times h index hthrough operand.size.bits p m
    have hturn : BitVec.cons (q.status.get .carry) (operand.size.cut (operand.value q after)) =
        (BitVec.cons (p.status.get .carry) x).rotateLeft (operand.size.bits + 1) := hshifted.leaves
    rw [Rotation.rotateLeft_width] at hturn
    obtain ⟨hcarry, hvalue⟩ := Rotation.cons_inj hturn
    exact ⟨q, after, hrun, value_eq_of_cut h hvalue, hcarry⟩

end Repeated

theorem repeated_shifts_through_carry :
    let operand : Operand := ⟨.memory 0 0x0041, .byte, false⟩
    let p := Processor.new.updateStatus (·.set .carry true)
    let m := (Memory.filled 0).store 0x0040 #[0x12, 0xB4]
    operand.isImmediate = false ∧ (6 : Register) ∈ Shift.rotateThroughCarry.fields ∧
      (∃ q after, (((operand.shift 0x03 6).times 3).run p).run m = ((.ok (), q), after) ∧
        Shift.rotateThroughCarry.Leaves 3 (0xB4#8) true (operand.size.cut (operand.value q after)) (q.status.get .carry)) ∧
      ∃ q after, (((operand.shift 0x03 6).times 9).run p).run m = ((.ok (), q), after) ∧
        operand.value q after = 0xB4 ∧ q.status.get .carry = true := by
  intro operand p m
  have hsub : (6 : Register) ∈ Shift.rotateThroughCarry.fields := List.mem_singleton_self 6
  have hx : operand.size.cut (operand.value p m) = 0xB4#8 := rfl
  have hvalue : operand.value p m = 0xB4 := by decide
  have hcarry : p.status.get .carry = true := by decide
  obtain ⟨hshifts, -, -, -, hturn⟩ := @repeated_shifts operand rfl 0x03 p m
  obtain ⟨q, after, hrun, hleaves, -⟩ := hshifts .rotateThroughCarry 6 hsub 3 (by decide)
  rw [hx, hcarry] at hleaves
  rw [hvalue, hcarry] at hturn
  exact ⟨rfl, hsub, ⟨q, after, hrun, hleaves⟩, hturn⟩

end Operand

end Microcontroller
