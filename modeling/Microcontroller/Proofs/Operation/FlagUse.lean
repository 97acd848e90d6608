import Microcontroller.Proofs.Instruction.Encoding
import Microcontroller.Proofs.Instruction.OperationTraps
import Microcontroller.Proofs.Operation.ExtendedArithmetic
import Microcontroller.Proofs.Operation.RegisterFrame

namespace Microcontroller

open Attempt Conduct Dialogue Grammar Processor

inductive Reported where
  | register (r : Register)
  | former (r : Register)
  | stored
  /-- A page register with the number of an immediate, by inclusive or with index 9 and by and otherwise. -/
  | combined (index : Byte) (r : Register) (number : Option Nat)
  deriving DecidableEq

inductive FlagUse where
  | kept
  | zero
  | codes
  /-- Negative and zero describe a value at the width, and overflow is cleared. -/
  | reported (source : Reported) (size : Size)
  | loaded
  deriving DecidableEq

def Reported.value? (source : Reported) (p : Processor) (stored : List Byte) (size : Size) (q : Processor) :
    Option Long :=
  match source with
  | register r => some (q.long r)
  | former r => some (p.long r)
  | .stored => (number? size stored).map (BitVec.ofNat 32)
  | combined index r number => number.map fun n =>
    let page := ControlRegister.pageValue (p.page r) size
    if index = 0x09 then page ||| BitVec.ofNat 32 n else page &&& BitVec.ofNat 32 n

def Reported.IsResult (source : Reported) (p : Processor) (stored : List Byte) (size : Size) (q : Processor) : Prop :=
  ∃ value, source.value? p stored size q = some value ∧ q.status = p.status.withResult value size

structure Status.Describes (s : Status) (value : Long) (size : Size) : Prop where
  negative : s.get .negative = (size.cut value).msb
  zero : s.get .zero = decide (size.cut value = 0)
  overflow : s.get .overflow = false

namespace FlagUse

def mask : FlagUse → Word
  | kept => 0
  | zero => 0x0004
  | reported _ _ => 0x000E
  | codes => 0x000F
  | loaded => 0xFFFF

structure Holds (use : FlagUse) (p : Processor) (stored : List Byte) (q : Processor) : Prop where
  frame : q.status.bits &&& ~~~use.mask = p.status.bits &&& ~~~use.mask
  reports : ∀ source size, use = reported source size →
    ∃ value, source.value? p stored size q = some value ∧ q.status.Describes value size

theorem Holds.congr {use : FlagUse} {p p' q : Processor} {stored : List Byte} (h : use.Holds p' stored q)
    (hstatus : p'.status = p.status) (hpage : p'.page = p.page)
    (hformer : ∀ r size, use = reported (.former r) size → p'.long r = p.long r) : use.Holds p stored q where
  frame := hstatus ▸ h.frame
  reports source size huse := by
    obtain ⟨value, hvalue, hdescribes⟩ := h.reports source size huse
    refine ⟨value, ?_, hdescribes⟩
    cases source with
    | register | stored => exact hvalue
    | former r => exact (congrArg some (hformer r size huse).symm).trans hvalue
    | combined index r number =>
      rw [Reported.value?, hpage] at hvalue
      exact hvalue

end FlagUse

namespace Status

theorem withResult_congr (s : Status) {value other : Long} {size : Size} (h : size.cut value = size.cut other) :
    s.withResult value size = s.withResult other size := by
  rw [withResult, withResult, Size.isNegative_eq, Size.isNegative_eq, Size.isZero_eq, Size.isZero_eq, h]

theorem withResult_describes (s : Status) (value : Long) (size : Size) :
    (s.withResult value size).Describes value size where
  negative := by simp [withResult, get_set, size.isNegative_eq]
  zero := by simp [withResult, get_set, size.isZero_eq_cut]
  overflow := by simp [withResult, get_set]

theorem and_withResult (s : Status) (value : Long) (size : Size) :
    (s.withResult value size).bits &&& ~~~0x000E = s.bits &&& ~~~0x000E := by
  rw [withResult, and_set _ .overflow _ (by decide), and_set _ .zero _ (by decide), and_set _ .negative _ (by decide)]

end Status

theorem Processor.long_setReg (p : Processor) (r : Register) (value : Word) :
    (p.setReg r value).long r = value.setWidth 32 := by
  rw [long, reg_setReg, if_pos rfl]

namespace Reported

theorem isResult_register {p q : Processor} {r : Register} {value : Long} {size : Size} (stored : List Byte)
    (hcut : size.cut (q.long r) = size.cut value) (hstatus : q.status = p.status) :
    (register r).IsResult p stored size (q.updateStatus (·.withResult value size)) := by
  refine ⟨q.long r, rfl, ?_⟩
  rw [← hstatus]
  exact q.status.withResult_congr hcut.symm

theorem isResult_store (p : Processor) (stored : List Byte) (r : Register) (value : Long) (size : Size) :
    (register r).IsResult p stored size ((p.store r value size).updateStatus (·.withResult value size)) :=
  isResult_register stored (cut_long_store p r value size) (status_store p r value size)

end Reported

theorem FlagUse.holds_reported {source : Reported} {size : Size} {p q : Processor} {stored : List Byte}
    (h : source.IsResult p stored size q) : (reported source size).Holds p stored q := by
  obtain ⟨value, hvalue, hstatus⟩ := h
  constructor
  · rw [hstatus]
    exact p.status.and_withResult value size
  · rintro _ _ ⟨⟩
    refine ⟨value, hvalue, ?_⟩
    rw [hstatus]
    exact p.status.withResult_describes value size

namespace Conduct

def Using (use : FlagUse) : Conduct := fun p _ q => q.status.bits &&& ~~~use.mask = p.status.bits &&& ~~~use.mask

section Using

variable (use : FlagUse)

instance : Accessing (Using use) where
  refl _ := rfl
  trans h h' := h'.trans h
  read _ _ _ := rfl
  write _ _ _ := rfl
  report _ _ _ := rfl

instance : Fetching (Using use) := ⟨fun _ _ => rfl⟩

instance : Jumping (Using use) := ⟨fun _ _ _ => rfl⟩

instance (r : Register) : Setting (Using use) r := ⟨fun _ _ => rfl⟩

instance : Routine.holdInterrupts.Keeps (Using use) := ⟨fun _ => rfl⟩

instance : Flagging (Using .zero) .zero := ⟨fun p on => p.status.and_set .zero on (by decide)⟩

instance : Computing (Using .codes) where
  compute _ hmasked := hmasked

end Using

def Preparing : Conduct := fun p calls q => q = { p with pc := q.pc } ∧ stores calls = []

instance : Composable Preparing where
  refl _ := ⟨rfl, rfl⟩
  trans h h' := ⟨by rw [h'.1, h.1], by rw [stores_append, h.2, h'.2, List.append_nil]⟩

instance : Fetching Preparing := ⟨fun _ _ => ⟨rfl, rfl⟩⟩

instance (operand : Operand) : operand.read.Keeps Preparing where
  ensures p := by
    apply ((inferInstance : operand.read.Keeps Looks).ensures p).mono
    rintro calls ⟨value, _⟩ ⟨rfl, hstores⟩
    exact ⟨rfl, hstores⟩

end Conduct

namespace ControlRegister

theorem status_write {register : ControlRegister} {r : Register} (h : register.field? = some r) (data : Long)
    (p : Processor) : (register.write data p).status = p.status := by
  cases register
  case status | conditionCodes => cases h
  all_goals rfl

theorem read_page {register : ControlRegister} {r : Register} (h : register.field? = some r) (size : Size)
    (p : Processor) : register.read size p = pageValue (p.page r) size := by
  cases register
  case status | conditionCodes => cases h
  all_goals
    obtain rfl := Option.some.inj h
    rfl

end ControlRegister

def Routine.Reports (x : Routine Unit) (source : Reported) (size : Size) : Prop :=
  ∀ p, (x.run p).Ensures fun calls r => source.IsResult p ((stores calls).map Prod.snd) size r.2

namespace Attempt

def Uses (x : Attempt Unit) (use : FlagUse) : Prop :=
  ∀ p, (x.run p).Ensures fun calls r => r.1 = .ok () → use.Holds p ((stores calls).map Prod.snd) r.2

theorem uses_throw (trap : Trap) (use : FlagUse) : (throw trap : Attempt Unit).Uses use := fun _ => nofun

theorem uses_loaded (x : Attempt Unit) : x.Uses .loaded := by
  intro p
  apply ensures_of_forall
  exact fun calls r _ => ⟨(BitVec.and_zero).trans (BitVec.and_zero).symm, nofun⟩

theorem uses_of_keeps {x : Attempt Unit} {use : FlagUse} (huse : ∀ source size, use ≠ .reported source size)
    (h : x.Keeps (Using use)) : x.Uses use := by
  intro p
  apply (h.ensures p).mono
  exact fun calls r hframe _ => ⟨hframe, fun source size hreported => absurd hreported (huse source size)⟩

theorem uses_of_reports {x : Routine Unit} {source : Reported} {size : Size} (h : x.Reports source size) :
    (liftM x : Attempt Unit).Uses (.reported source size) := by
  intro p
  rw [ensures_lift]
  apply (h p).mono
  intro calls r hresult _
  exact FlagUse.holds_reported hresult

theorem Uses.prepared {α : Type} {x : Routine α} {f : α → Attempt Unit} {use : FlagUse} (hx : x.Keeps Preparing)
    (hf : ∀ value, (f value).Uses use) : (liftM x >>= f).Uses use := by
  intro p
  rw [ensures_lift_bind]
  apply (hx.ensures p).mono
  rintro calls ⟨value, q⟩ ⟨hq, hstores⟩
  apply (hf value q).mono
  intro more r h hok
  rw [stores_append, hstores, List.nil_append]
  have hp : q = { p with pc := q.pc } := hq
  rw [hp] at h
  exact (h hok).congr rfl rfl fun _ _ _ => rfl

end Attempt

namespace Operand

open Attempt

theorem load_reports (operand : Operand) (r : Register) : (operand.load r).Reports (.register r) operand.size := by
  intro p
  unfold load
  simp only [Routine.run_bind, ensures_bind]
  apply (operand.read_ensures p).mono
  rintro calls ⟨value, _⟩ ⟨-, rfl⟩
  exact Reported.isResult_store _ _ r value operand.size

theorem conjoin_reports (operand : Operand) (r : Register) :
    (operand.conjoin r).Reports (.register r) operand.size := by
  intro p
  unfold conjoin
  simp only [Routine.run_bind, ensures_bind]
  apply (operand.read_ensures p).mono
  rintro calls ⟨value, q⟩ ⟨-, rfl⟩
  exact Reported.isResult_store q _ r (q.long r &&& value) operand.size

theorem combineWhole_reports (combine : Word → Word → Word) (operand : Operand) (r : Register) :
    (operand.combineWhole combine r).Reports (.register r) operand.size := by
  intro p
  unfold combineWhole
  simp only [Routine.run_bind, ensures_bind]
  apply (operand.read_ensures p).mono
  rintro calls ⟨value, q⟩ ⟨-, rfl⟩
  exact Reported.isResult_register _ (congrArg operand.size.cut (long_setReg q r _)) rfl

theorem swapHalves_reports (r : Register) : (Routine.swapHalves r).Reports (.register r) .word :=
  fun p => Reported.isResult_register _ (congrArg (Size.cut .word) (long_setReg p r _)) rfl

theorem extendSigned_reports (r : Register) : (Routine.extendSigned r).Reports (.former r) .word :=
  fun p => ⟨p.long r, rfl, rfl⟩

theorem assign_ensures {operand : Operand} (h : operand.isRegister = false) (value : Long) (p : Processor) :
    ((operand.assign value).run p).Ensures fun calls r =>
      (operand.isMemory = true →
        number? operand.size ((stores calls).map Prod.snd) = some (operand.size.truncate value).toNat) ∧
      r.2 = p.updateStatus (·.withResult value operand.size) := by
  obtain ⟨place, size, extended⟩ := operand
  match place, size with
  | .register _, _ => cases h
  | .memory page offset, .byte => exact ⟨fun _ => congrArg some (Size.toNat_truncate .byte value).symm, rfl⟩
  | .memory page offset, .word =>
    have hnumber : number? .word [highByte (value.setWidth 16), lowByte (value.setWidth 16)] =
        some (Size.word.truncate value).toNat := by
      rw [number?, wordOf_bytes, Size.toNat_truncate]
      rfl
    simp only [assign, write, Routine.run_bind, Routine.run_checkAlignment]
    split <;> exact ⟨fun _ => hnumber, rfl⟩
  | .immediate _, _ => exact ⟨fun hmemory => Bool.noConfusion hmemory, rfl⟩

theorem assign_reports {operand : Operand} (h : operand.isMemory = true) (value : Long) :
    (operand.assign value).Reports .stored operand.size := by
  intro p
  have hregister : operand.isRegister = false := by
    obtain ⟨place, size, extended⟩ := operand
    cases place <;> first | rfl | cases h
  apply (assign_ensures hregister value p).mono
  rintro calls ⟨_, q⟩ ⟨hstored, hq⟩
  refine ⟨operand.size.truncate value, ?_, ?_⟩
  · rw [Reported.value?, hstored h, Option.map_some, BitVec.ofNat_toNat, BitVec.setWidth_eq]
  · rw [p.status.withResult_congr (Size.cut_truncate operand.size value)]
    exact congrArg Processor.status hq

theorem assignRegister_reports (operand : Operand) (h : operand.isRegister = false) (r : Register) :
    Routine.Reports (do operand.assign ((← get).long r)) (.register r) operand.size := by
  intro p
  apply (assign_ensures h (p.long r) p).mono
  rintro calls ⟨_, q⟩ ⟨-, hq⟩
  have hq : q = _ := hq
  subst hq
  exact ⟨p.long r, rfl, rfl⟩

end Operand

namespace Grammar

def operationUse (kind : Kind) (size : Size) (own : Register) (number : Option Nat) (index : Byte) (sub : Register) :
    FlagUse :=
  match index.toNat with
  | 0x00 => if 6 ≤ sub then .reported .stored size else .codes
  | 0x02 =>
    match kind, sub with
    | .register, 0 => .reported (.register own) .word
    | .register, 1 => .reported (.former own) .word
    | .register, 5 => .reported (.register own) size
    | .memory, 5 => .reported .stored size
    | _, _ => .codes
  | 0x05 | 0x07 | 0x13 => .kept
  | 0x08 | 0x0A | 0x0C | 0x10 => .reported (.register sub) size
  | 0x09 | 0x0B =>
    if kind = .immediate then if 2 ≤ sub then .reported (.combined index sub number) size else .loaded else .zero
  | 0x0F => .zero
  | 0x11 => if 2 ≤ sub then .kept else .loaded
  | 0x12 => if kind = .register then .kept else .reported (.register sub) size
  | n => if 0x18 ≤ n then .zero else .codes

end Grammar

namespace Operand

open Attempt

theorem moveImmediate_uses (operand : Operand) (sub : Register) :
    (operand.moveImmediate 0x00 sub).Uses (if 6 ≤ sub then .reported .stored operand.size else .codes) := by
  obtain ⟨place, size, extended⟩ := operand
  split
  next hsub =>
    match place, sub with
    | .register _, _ | .immediate _, _ => exact uses_throw _ _
    | .memory page offset, 6 =>
      exact Uses.prepared (inferInstance : Routine.fetchDisplacement.Keeps Preparing) fun _ =>
        uses_of_reports (assign_reports rfl _)
    | .memory page offset, 7 =>
      exact Uses.prepared (inferInstance : Routine.fetchWord.Keeps Preparing) fun _ =>
        uses_of_reports (assign_reports rfl _)
  next => exact uses_of_keeps nofun inferInstance

theorem unary_uses (operand : Operand) {own : Register} (hown : ∀ r, operand.place = .register r → r = own)
    (number : Option Nat) (sub : Register) : (operand.unary 0x02 sub).Uses
      (operationUse operand.place.kind operand.size own number 0x02 sub) := by
  have hcodes : (operand.unary 0x02 sub).Uses .codes := uses_of_keeps nofun inferInstance
  obtain ⟨place, size, extended⟩ := operand
  match place, size, sub with
  | .register r, .byte, 0 =>
    obtain rfl := hown r rfl
    exact uses_of_reports (swapHalves_reports r)
  | .register r, .byte, 1 =>
    obtain rfl := hown r rfl
    exact uses_of_reports (extendSigned_reports r)
  | .register _, .word, 0 | .register _, .word, 1 => exact uses_throw _ _
  | .register r, size, 5 =>
    obtain rfl := hown r rfl
    exact uses_of_reports fun p => Reported.isResult_store p _ r _ size
  | .memory page offset, size, 5 =>
    let operand : Operand := ⟨.memory page offset, size, extended⟩
    have hcomplement : operand.complement = operand.read >>= fun value => operand.assign (~~~value) := rfl
    change (liftM operand.complement : Attempt Unit).Uses _
    rw [hcomplement, lift_bind]
    exact Uses.prepared (inferInstance : operand.read.Keeps Preparing) fun _ => uses_of_reports (assign_reports rfl _)
  | .register _, _, 2 | .register _, _, 3 | .register _, _, 4 | .register _, _, 6 | .register _, _, 7 => exact hcodes
  | .memory _ _, _, 0 | .memory _ _, _, 1 | .memory _ _, _, 2 | .memory _ _, _, 3 => exact hcodes
  | .memory _ _, _, 4 | .memory _ _, _, 6 | .memory _ _, _, 7 => exact hcodes
  | .immediate _, _, _ => exact hcodes

theorem move_load_uses (operand : Operand) (sub : Register) :
    (operand.move 0x10 sub).Uses (.reported (.register sub) operand.size) := by
  obtain ⟨place, size, extended⟩ := operand
  cases extended with
  | true => exact uses_throw _ _
  | false => exact uses_of_reports (load_reports ⟨place, size, false⟩ sub)

theorem move_store_uses (operand : Operand) (sub : Register) : (operand.move 0x12 sub).Uses
    (if operand.place.kind = .register then .kept else .reported (.register sub) operand.size) := by
  obtain ⟨place, size, extended⟩ := operand
  match place, size, extended with
  | _, _, true => exact uses_throw _ _
  | .register _, .byte, false => exact uses_throw _ _
  | .register r, .word, false =>
    exact uses_of_keeps nofun (inferInstanceAs ((liftM (Routine.exchange sub r) : Attempt Unit).Keeps (Using .kept)))
  | .memory page offset, .byte, false =>
    exact uses_of_reports (assignRegister_reports ⟨.memory page offset, .byte, false⟩ rfl sub)
  | .memory page offset, .word, false =>
    exact uses_of_reports (assignRegister_reports ⟨.memory page offset, .word, false⟩ rfl sub)
  | .immediate data, .byte, false =>
    exact uses_of_reports (assignRegister_reports ⟨.immediate data, .byte, false⟩ rfl sub)
  | .immediate data, .word, false =>
    exact uses_of_reports (assignRegister_reports ⟨.immediate data, .word, false⟩ rfl sub)

theorem writeControl_keeps {sub : Register} (hsub : 2 ≤ sub) (size : Size) (data : Long) :
    (writeControl (BitVec.ofNat 8 sub.val) size data).Keeps (Using .kept) where
  ensures p := by
    obtain ⟨register, hregister, -⟩ | ⟨hnone, -⟩ := control_cases size sub
    · rw [writeControl_of_some hregister]
      have hfield := (ControlRegister.field?_of_ofIndex? hregister).trans (if_pos hsub)
      exact congrArg (·.bits &&& ~~~0) (ControlRegister.status_write hfield data p)
    · rw [writeControl_of_none hnone]
      exact rfl

theorem loadControl_uses (operand : Operand) (sub : Register) :
    (operand.loadControl sub).Uses (if 2 ≤ sub then .kept else .loaded) := by
  split
  next hsub =>
    have hwrite (size : Size) (data : Long) := writeControl_keeps hsub size data
    have hkeeps : (operand.loadControl sub).Keeps (Using .kept) := by
      unfold loadControl
      infer_instance
    exact uses_of_keeps nofun hkeeps
  next => exact uses_loaded _

theorem combineControl_uses {operand : Operand} {combine : Long → Long → Long} {index : Byte} {number : Option Nat}
    (hcombine : ∀ value data, combine value data = if index = 0x09 then value ||| data else value &&& data)
    (himmediate : operand.isImmediate = true)
    (hnumber : ∀ data, operand.place = .immediate data → number = some data.toNat) (sub : Register) :
    (operand.combineControl combine sub).Uses
      (if 2 ≤ sub then .reported (.combined index sub number) operand.size else .loaded) := by
  split
  next hsub =>
    intro p
    obtain ⟨place, size, extended⟩ := operand
    cases place with
    | register | memory => cases himmediate
    | immediate data =>
      have hsub' : 2 ≤ sub.val := hsub
      obtain ⟨register, hregister, -⟩ | ⟨hnone, -⟩ := control_cases size sub
      · have hfield := (ControlRegister.field?_of_ofIndex? hregister).trans (if_pos hsub)
        let value := combine (register.read size p) (data.setWidth 32)
        have hvalue : (Reported.combined index sub number).value? p [] size p = some value := by
          rw [Reported.value?, hnumber data rfl, Option.map_some, BitVec.ofNat_toNat, ← register.read_page hfield,
            ← hcombine]
        simp only [combineControl, readControl_of_some hregister, writeControl_of_some hregister, if_pos hsub']
        intro _
        exact FlagUse.holds_reported
          ⟨value, hvalue, congrArg (·.withResult value size) (ControlRegister.status_write hfield value p)⟩
      · simp only [combineControl, readControl_of_none hnone]
        intro hok
        cases hok
  next => exact uses_loaded _

theorem controlOrBit_uses {operand : Operand} {combine : Long → Long → Long} {index : Byte} {number : Option Nat}
    (hcombine : ∀ value data, combine value data = if index = 0x09 then value ||| data else value &&& data)
    (hnumber : ∀ data, operand.place = .immediate data → number = some data.toNat) (change : BitChange) (sub : Register) :
    (if operand.isImmediate then operand.combineControl combine sub
      else do liftM (operand.changeBit change ((← get).bitNumber sub)) : Attempt Unit).Uses
        (if operand.place.kind = .immediate then
          if 2 ≤ sub then .reported (.combined index sub number) operand.size else .loaded else .zero) := by
  split
  next himmediate =>
    rw [if_pos (operand.isImmediate_iff.mp himmediate)]
    exact combineControl_uses hcombine himmediate hnumber sub
  next himmediate =>
    rw [if_neg fun hkind => himmediate (operand.isImmediate_iff.mpr hkind)]
    exact uses_of_keeps nofun inferInstance

end Operand

theorem Operation.execute_uses {operand : Operand} {own : Register} {number : Option Nat}
    (hown : ∀ r, operand.place = .register r → r = own)
    (hnumber : ∀ data, operand.place = .immediate data → number = some data.toNat) (sub : Register) :
    ∀ n (h : n < 32), ((Operation.ofSlot ⟨n, h⟩).execute operand (BitVec.ofNat 8 n) sub).Uses
      (operationUse operand.place.kind operand.size own number (BitVec.ofNat 8 n) sub)
  | 0x00, _ => operand.moveImmediate_uses sub
  | 0x01, _ => uses_of_keeps nofun (execute_computes (Using .codes) 0x01 sub rfl)
  | 0x02, _ => operand.unary_uses hown number sub
  | 0x03, _ => uses_of_keeps nofun (execute_computes (Using .codes) 0x03 sub rfl)
  | 0x04, _ => uses_of_keeps nofun (execute_computes (Using .codes) 0x04 sub rfl)
  | 0x05, _ =>
    uses_of_keeps nofun (inferInstanceAs ((liftM (operand.adjust (· + ·) sub) : Attempt Unit).Keeps (Using .kept)))
  | 0x06, _ => uses_of_keeps nofun (execute_computes (Using .codes) 0x06 sub rfl)
  | 0x07, _ =>
    uses_of_keeps nofun (inferInstanceAs ((liftM (operand.adjust (· - ·) sub) : Attempt Unit).Keeps (Using .kept)))
  | 0x08, _ => uses_of_reports (operand.combineWhole_reports _ sub)
  | 0x09, _ => Operand.controlOrBit_uses (fun _ _ => (if_pos rfl).symm) hnumber .set sub
  | 0x0A, _ => uses_of_reports (operand.conjoin_reports sub)
  | 0x0B, _ => Operand.controlOrBit_uses (fun _ _ => (if_neg (by decide)).symm) hnumber .clear sub
  | 0x0C, _ => uses_of_reports (operand.combineWhole_reports _ sub)
  | 0x0D, _ => uses_throw _ _
  | 0x0E, _ => uses_of_keeps nofun (execute_computes (Using .codes) 0x0E sub rfl)
  | 0x0F, _ => uses_of_keeps nofun (inferInstanceAs ((operand.testBit 0x0F sub).Keeps (Using .zero)))
  | 0x10, _ => operand.move_load_uses sub
  | 0x11, _ => operand.loadControl_uses sub
  | 0x12, _ => operand.move_store_uses sub
  | 0x13, _ => uses_of_keeps nofun (inferInstanceAs ((operand.storeControl sub).Keeps (Using .kept)))
  | 0x14, _ => uses_of_keeps nofun (execute_computes (Using .codes) 0x14 sub rfl)
  | 0x15, _ => uses_of_keeps nofun (execute_computes (Using .codes) 0x15 sub rfl)
  | 0x16, _ => uses_of_keeps nofun (execute_computes (Using .codes) 0x16 sub rfl)
  | 0x17, _ => uses_of_keeps nofun (execute_computes (Using .codes) 0x17 sub rfl)
  | 0x18, _ => uses_of_keeps nofun (inferInstanceAs ((operand.numberedBit .set 0x18 sub).Keeps (Using .zero)))
  | 0x19, _ => uses_of_keeps nofun (inferInstanceAs ((operand.numberedBit .set 0x19 sub).Keeps (Using .zero)))
  | 0x1A, _ => uses_of_keeps nofun (inferInstanceAs ((operand.numberedBit .clear 0x1A sub).Keeps (Using .zero)))
  | 0x1B, _ => uses_of_keeps nofun (inferInstanceAs ((operand.numberedBit .clear 0x1B sub).Keeps (Using .zero)))
  | 0x1C, _ => uses_of_keeps nofun (inferInstanceAs ((operand.numberedBit .invert 0x1C sub).Keeps (Using .zero)))
  | 0x1D, _ => uses_of_keeps nofun (inferInstanceAs ((operand.numberedBit .invert 0x1D sub).Keeps (Using .zero)))
  | 0x1E, _ => uses_of_keeps nofun (inferInstanceAs ((operand.numberedBit .test 0x1E sub).Keeps (Using .zero)))
  | 0x1F, _ => uses_of_keeps nofun (inferInstanceAs ((operand.numberedBit .test 0x1F sub).Keeps (Using .zero)))
  | n + 32, h => absurd h (by omega)

end Microcontroller
