import Microcontroller.Proofs.Dialogue.Code

namespace Microcontroller

def Call.dataAddress? : Call → Option Address
  | read a _ => some a
  | write a _ => some a
  | _ => none

def dataAddresses (calls : List Call) : List Address := calls.filterMap Call.dataAddress?

namespace Memory

def AgreeOutside (area : List Address) (m m' : Memory) : Prop := ∀ a, a ∉ area → m.read a = m'.read a

theorem read_write (m : Memory) (a b : Address) (byte : Byte) :
    (m.write a byte).read b = if b = a then byte else m.read b := rfl

theorem write_read (m : Memory) (a : Address) : m.write a (m.read a) = m := by
  funext b
  have hbyte := m.read_write a b (m.read a)
  by_cases hb : b = a
  · subst hb
    exact hbyte.trans (if_pos rfl)
  · exact hbyte.trans (if_neg hb)

theorem write_write (m : Memory) (a : Address) (byte other : Byte) : (m.write a byte).write a other = m.write a other := by
  funext b
  change ((m.write a byte).write a other).read b = (m.write a other).read b
  rw [read_write, read_write, read_write]
  split <;> rfl

theorem AgreeOutside.write {area : List Address} {m m' : Memory} (h : AgreeOutside area m m') (a : Address)
    (byte : Byte) : AgreeOutside area (m.write a byte) (m'.write a byte) := by
  intro b hb
  rw [read_write, read_write, h b hb]

end Memory

open Memory

namespace Dialogue

variable {α : Type}

def Avoids (area : List Address) (calls : List Call) : Prop := ∀ a ∈ dataAddresses calls, a ∉ area

theorem Avoids.tail {area : List Address} {call : Call} {calls : List Call} (h : Avoids area (call :: calls)) :
    Avoids area calls := by
  intro a ha
  apply h
  cases call with
  | fetch | notify => exact ha
  | read | write => exact List.mem_cons_of_mem _ ha

theorem dataAddresses_traffic (calls : List Call) : dataAddresses (traffic calls) = dataAddresses calls :=
  filterMap_traffic Call.dataAddress? (fun _ _ => rfl) calls

theorem writtenAddresses_traffic (calls : List Call) : writtenAddresses (traffic calls) = writtenAddresses calls :=
  filterMap_traffic Call.writtenAddress? (fun _ _ => rfl) calls

theorem notices_traffic (calls : List Call) : notices (traffic calls) = notices calls :=
  filterMap_traffic Call.notice? (fun _ _ => rfl) calls

theorem run_agree {area : List Address} (x : Dialogue α) {m m' : Memory} (h : AgreeOutside area m m')
    (hfetch : codeAddresses (x.transcript m) = []) (havoid : Avoids area (x.transcript m)) :
    (x.run m).1 = (x.run m').1 ∧ x.transcript m = x.transcript m' ∧
      AgreeOutside area (x.run m).2 (x.run m').2 := by
  induction x generalizing m m' with
  | done value => exact ⟨rfl, rfl, h⟩
  | fetch a next ih => exact absurd hfetch (List.cons_ne_nil _ _)
  | read a next ih =>
    have ha : a ∉ area := havoid a List.mem_cons_self
    have hbyte : m'.read a = m.read a := (h a ha).symm
    obtain ⟨hvalue, hcalls, hmemory⟩ := ih (m.read a) h hfetch havoid.tail
    change _ = ((next (m'.read a)).run m').1 ∧ _ = Call.read a (m'.read a) :: (next (m'.read a)).transcript m' ∧
      AgreeOutside area _ ((next (m'.read a)).run m').2
    rw [hbyte]
    exact ⟨hvalue, congrArg (_ :: ·) hcalls, hmemory⟩
  | write a byte next ih =>
    obtain ⟨hvalue, hcalls, hmemory⟩ := ih (h.write a byte) hfetch havoid.tail
    exact ⟨hvalue, congrArg (_ :: ·) hcalls, hmemory⟩
  | notify notice next ih =>
    obtain ⟨hvalue, hcalls, hmemory⟩ := ih h hfetch havoid.tail
    exact ⟨hvalue, congrArg (_ :: ·) hcalls, hmemory⟩

theorem read_run (x : Dialogue α) (m : Memory) {a : Address} (h : a ∉ writtenAddresses (x.transcript m)) :
    (x.run m).2.read a = m.read a := by
  induction x generalizing m with
  | done value => rfl
  | fetch b next ih => exact ih (m.read b) m h
  | read b next ih => exact ih (m.read b) m h
  | write b byte next ih =>
    obtain ⟨hne, hmore⟩ := not_or.mp (mt List.mem_cons.mpr h)
    exact (ih _ hmore).trans ((m.read_write b a byte).trans (if_neg hne))
  | notify notice next ih => exact ih m h

theorem Avoids.read_run {area : List Address} {x : Dialogue α} {m : Memory} (h : Avoids area (x.transcript m))
    {a : Address} (ha : a ∈ area) : (x.run m).2.read a = m.read a := by
  apply Dialogue.read_run
  intro hwritten
  obtain ⟨call, hcall, haddress⟩ := List.mem_filterMap.mp hwritten
  refine h a (List.mem_filterMap.mpr ⟨call, hcall, ?_⟩) ha
  cases call with
  | write => exact haddress
  | _ => exact absurd haddress nofun

end Dialogue

end Microcontroller
