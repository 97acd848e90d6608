import Microcontroller.Proofs.Instruction.ControlState
import Microcontroller.Proofs.Operation.Destinations

namespace Microcontroller

open Conduct Dialogue Grammar Processor

def Processor.page (p : Processor) (r : Register) : Byte :=
  if r = 3 then p.base
  else if r = 4 then p.extendedPage
  else if r = 5 then p.dataPage
  else if r = 7 then p.stackPage
  else 0

namespace ControlRegister

def field? : ControlRegister → Option Register
  | base => some 3
  | extendedPage => some 4
  | dataPage => some 5
  | stackPage => some 7
  | _ => none

theorem field?_of_ofIndex? {size : Size} {sub : Register} {register : ControlRegister}
    (h : ofIndex? size (BitVec.ofNat 8 sub.val) = some register) :
    register.field? = if 2 ≤ sub then some sub else none := by
  have hfield : ∀ size (sub : Register), (ofIndex? size (BitVec.ofNat 8 sub.val)).all
      (·.field? = if 2 ≤ sub then some sub else none) := by
    intro size
    cases size <;> decide
  have hsub := hfield size sub
  rw [h] at hsub
  exact of_decide_eq_true hsub

theorem page_write (register : ControlRegister) (data : Long) (p : Processor) {r : Register}
    (h : register.field? ≠ some r) : (register.write data p).page r = p.page r := by
  cases register <;> simp_all [field?, write, page, eq_comm]

end ControlRegister

namespace Conduct

def Guarding {β : Type} (r : Register) (view : Word → β) : Conduct := fun p _ q => view (q.reg r) = view (p.reg r)

def Paging (r : Register) : Conduct := fun p _ q => q.page r = p.page r

section Guarding

variable {β : Type} (r : Register) (view : Word → β)

instance : Accessing (Guarding r view) where
  refl _ := rfl
  trans h h' := h'.trans h
  read _ _ _ := rfl
  write _ _ _ := rfl
  report _ _ _ := rfl

instance : Controlling (Guarding r view) := ⟨fun h => by rw [Guarding, h]; rfl⟩

instance : Fetching (Guarding r view) := ⟨fun _ _ => rfl⟩

instance (d : Register) : Storing (Guarding r highByte) d .byte where
  store p value := by
    rw [Guarding, Processor.store, reg_setReg]
    split
    next h => rw [withLow, highByte_wordOf, h]
    next => rfl

variable {r}

theorem Guarding.setting {d : Register} (h : d ≠ r) : Setting (Guarding r view) d where
  set p value := by rw [Guarding, reg_setReg, if_neg h.symm]

theorem Guarding.allows {operand : Operand} {index : Byte} {sub : Register}
    (h : r ∉ destinations operand.place.registers operand.size index sub) : (Guarding r view).Allows operand index sub := by
  intro d hd
  have : Setting (Guarding r view) d := Guarding.setting view (ne_of_mem_of_not_mem hd h)
  split <;> infer_instance

theorem Guarding.allows_byte {operand : Operand} {index : Byte} {sub : Register} (hsize : operand.size = .byte)
    (hwhole : setsWhole index sub = false) : (Guarding r highByte).Allows operand index sub := by
  intro d _
  rw [hwhole, hsize]
  exact inferInstanceAs (Storing (Guarding r highByte) d .byte)

end Guarding

section Paging

variable (r : Register)

instance : Computing (Paging r) where
  refl _ := rfl
  trans h h' := h'.trans h
  compute h _ := by rw [Paging, h]; rfl

instance : Accessing (Paging r) where
  read _ _ _ := rfl
  write _ _ _ := rfl
  report _ _ _ := rfl

instance : Fetching (Paging r) := ⟨fun _ _ => rfl⟩

instance : Routine.holdInterrupts.Keeps (Paging r) := ⟨fun _ => rfl⟩

variable {r}

theorem Paging.writeControl {sub : Register} (h : r ≠ sub) (size : Size) (data : Long) :
    (Attempt.writeControl (BitVec.ofNat 8 sub.val) size data).Keeps (Paging r) where
  ensures p := by
    obtain ⟨register, hregister, -⟩ | ⟨hnone, -⟩ := Attempt.control_cases size sub
    · rw [Attempt.writeControl_of_some hregister]
      apply register.page_write
      rw [ControlRegister.field?_of_ofIndex? hregister]
      split
      · exact fun hr => h (Option.some.inj hr).symm
      · exact nofun
    · rw [Attempt.writeControl_of_none hnone]
      exact rfl

end Paging

end Conduct

namespace Operation

variable (operand : Operand) (index : Byte) (sub : Register)

theorem execute_pages {operation : Operation} {r : Register}
    (h : operation.loadsControl operand.isImmediate = true → r ≠ sub) :
    (operation.execute operand index sub).Keeps (Paging r) := by
  cases hloads : operation.loadsControl operand.isImmediate with
  | false => exact execute_computes (Paging r) index sub hloads
  | true =>
    have hwrite (size : Size) (data : Long) := Paging.writeControl (h hloads) size data
    cases operation
    case loadControl =>
      unfold execute Operand.loadControl
      infer_instance
    case setBit =>
      have himmediate : operand.isImmediate = true := hloads
      simp only [execute, Operand.setBit, himmediate, if_true, Operand.combineControl]
      infer_instance
    case clearBit =>
      have himmediate : operand.isImmediate = true := hloads
      simp only [execute, Operand.clearBit, himmediate, if_true, Operand.combineControl]
      infer_instance
    all_goals cases hloads

end Operation

theorem Operand.combineWhole_guards {combine : Word → Word → Word} {operand : Operand} {p : Processor}
    (hcombine : ∀ value byte : Word, highByte byte = 0 → highByte (combine value byte) = highByte value)
    (hbyte : ∀ data n, operand.place.number? operand.size p data = some n → n < 0x100) (sub r : Register) :
    ((operand.combineWhole combine sub).run p).Ensures fun calls after => Guarding r highByte p calls after.2 := by
  unfold combineWhole
  simp only [Routine.run_bind, ensures_bind]
  apply (operand.read_ensures p).mono
  rintro calls ⟨source, q⟩ ⟨hnumber, rfl⟩
  have hsource : highByte (source.setWidth 16) = 0 := by
    have hlt : source.toNat < 0x100 := hbyte _ _ hnumber
    apply BitVec.eq_of_toNat_eq
    rw [highByte, BitVec.extractLsb'_toNat, BitVec.toNat_setWidth, Nat.shiftRight_eq_div_pow]
    change _ = 0
    omega
  change highByte ((q.setReg sub _).reg r) = highByte (q.reg r)
  rw [reg_setReg]
  split
  next h => rw [hcombine _ _ hsource, h]
  next => rfl

theorem highByte_or {value byte : Word} (h : highByte byte = 0) : highByte (value ||| byte) = highByte value := by
  rw [highByte, BitVec.extractLsb'_or]
  change highByte value ||| highByte byte = _
  rw [h]
  exact BitVec.or_zero

theorem highByte_xor {value byte : Word} (h : highByte byte = 0) : highByte (value ^^^ byte) = highByte value := by
  rw [highByte, BitVec.extractLsb'_xor]
  change highByte value ^^^ highByte byte = _
  rw [h]
  exact BitVec.xor_zero

theorem Operation.execute_guards {operand : Operand} {p : Processor} (hsize : operand.size = .byte)
    (hbyte : ∀ data n, operand.place.number? operand.size p data = some n → n < 0x100) (sub r : Register)
    (n : Nat) (hn : n < 32) (hwidens : widens (BitVec.ofNat 8 n) sub = false) :
    (((Operation.ofSlot ⟨n, hn⟩).execute operand (BitVec.ofNat 8 n) sub).run p).Ensures fun calls after =>
      Guarding r highByte p calls after.2 := by
  have hconfined (hallows : (Guarding r highByte).Allows operand (BitVec.ofNat 8 n) sub) :=
    (execute_confined (Guarding r highByte) operand sub n hn hallows).ensures p
  by_cases hor : n = 0x08
  · subst hor
    exact (Attempt.ensures_lift _ p _).mpr (Operand.combineWhole_guards (fun _ _ => highByte_or) hbyte sub r)
  by_cases hxor : n = 0x0C
  · subst hxor
    exact (Attempt.ensures_lift _ p _).mpr (Operand.combineWhole_guards (fun _ _ => highByte_xor) hbyte sub r)
  by_cases hexchange : n = 0x12
  · subst hexchange
    refine hconfined (Guarding.allows highByte ?_)
    rw [hsize]
    exact List.not_mem_nil
  · have hwhole : ∀ n < 32, n ≠ 0x08 → n ≠ 0x0C → n ≠ 0x12 → ∀ sub, widens (BitVec.ofNat 8 n) sub = false →
        setsWhole (BitVec.ofNat 8 n) sub = false := by decide
    exact hconfined (Guarding.allows_byte hsize (hwhole n hn hor hxor hexchange sub hwidens))

end Microcontroller
