import Microcontroller.Proofs.Instruction.ModeTable
import Microcontroller.Proofs.Operand.WriteRead

namespace Microcontroller.Operand

theorem truncate_value {σ : Type} [Host σ] {operand : Operand} (h : operand.isImmediate = false) (p : Processor)
    (host : σ) : operand.size.truncate (operand.value p host) = operand.value p host := by
  have hlt : (operand.value p host).toNat < 2 ^ operand.size.bits := by
    apply Operand.value_lt
    intro data hplace
    rw [Operand.isImmediate, hplace] at h
    cases h
  apply BitVec.eq_of_toNat_eq
  rw [Size.toNat_truncate, Size.cut, BitVec.toNat_setWidth, Nat.mod_eq_of_lt hlt]

theorem value_eq_of_cut {σ τ : Type} [Host σ] [Host τ] {operand : Operand} (h : operand.isImmediate = false)
    {p q : Processor} {host : σ} {other : τ}
    (hcut : operand.size.cut (operand.value p host) = operand.size.cut (operand.value q other)) :
    operand.value p host = operand.value q other := by
  rw [← truncate_value h p host, ← truncate_value h q other, Size.truncate_eq_cut, Size.truncate_eq_cut, hcut]

def updated (operand : Operand) (value : Long) (f : Status → Status) (p : Processor) (m : Memory) : Processor × Memory :=
  ((operand.written value p m).1.updateStatus f, (operand.written value p m).2)

variable (operand : Operand) (value other : Long) (f g : Status → Status) (p : Processor) (m : Memory)

theorem status_updated : (operand.updated value f p m).1.status = f p.status :=
  congrArg f (operand.status_written value p m)

theorem updated_truncate : operand.updated (operand.size.truncate value) f p m = operand.updated value f p m := by
  rw [updated, written_truncate, updated]

theorem updated_congr (h : f p.status = g p.status) : operand.updated value f p m = operand.updated value g p m := by
  have hstatus := operand.status_written value p m
  rw [updated, updated, Processor.updateStatus, Processor.updateStatus, hstatus, h]

theorem updated_updated :
    operand.updated other g (operand.updated value f p m).1 (operand.updated value f p m).2 =
      operand.updated other (fun s => g (f s)) p m := by
  rw [updated, updated, written_updateStatus, written_written]
  rfl

theorem updated_value : operand.updated (operand.size.truncate (operand.value p m)) f p m = (p.updateStatus f, m) := by
  rw [updated, written_value]

def Alters (operand : Operand) (p : Processor) (m : Memory) (q : Processor) (after : Memory) : Prop :=
  (q, after) = operand.updated (operand.value q after) (fun _ => q.status) p m

theorem Alters.trans {operand : Operand} {p q q' : Processor} {m after after' : Memory} (h : operand.Alters p m q after)
    (hlast : operand.Alters q after q' after') : operand.Alters p m q' after' := by
  have hpair : (q, after) = operand.updated (operand.value q after) (fun _ => q.status) p m := h
  have hlastPair : (q', after') =
      operand.updated (operand.value q' after') (fun _ => q'.status) (q, after).1 (q, after).2 := hlast
  rw [hpair, updated_updated] at hlastPair
  exact hlastPair

section Direct

variable {operand} (h : operand.isImmediate = false)

include h

theorem value_updated :
    operand.value (operand.updated value f p m).1 (operand.updated value f p m).2 = operand.size.truncate value :=
  (operand.value_updateStatus _ _ f).trans (value_written h value p m)

theorem alters_updated : operand.Alters p m (operand.updated value f p m).1 (operand.updated value f p m).2 := by
  rw [Alters, value_updated value f p m h, updated_truncate, status_updated]
  exact operand.updated_congr value f _ p m rfl

theorem receives_updated :
    operand.Receives value p m { (operand.updated value f p m).1 with status := p.status }
      (operand.updated value f p m).2 := by
  have hrestored : { (operand.updated value f p m).1 with status := p.status } = (operand.written value p m).1 := by
    rw [← operand.status_written value p m]
    rfl
  rw [hrestored]
  exact receives_written h value p m

variable {p m} {q : Processor} {after : Memory} (halters : operand.Alters p m q after)

include halters

theorem Alters.receives :
    operand.Receives (operand.value q after) p m { q with status := p.status } after := by
  have hreceives := receives_updated (operand.value q after) (fun _ => q.status) p m h
  rw [← halters] at hreceives
  exact hreceives

theorem Alters.eq_of_value (hvalue : operand.value q after = operand.value p m) :
    { q with status := p.status } = p ∧ after = m := by
  have hsame := operand.updated_value (fun _ => q.status) p m
  rw [truncate_value h, ← hvalue, ← halters] at hsame
  have hprocessor := congrArg (fun state : Processor × Memory => { state.1 with status := p.status }) hsame
  exact ⟨hprocessor, congrArg Prod.snd hsame⟩

end Direct

end Microcontroller.Operand
