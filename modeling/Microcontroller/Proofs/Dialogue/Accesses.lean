import Microcontroller.Proofs.Dialogue.Frame

namespace Microcontroller

open Dialogue

namespace Call

def load? : Call → Option (Address × Byte)
  | read a byte => some (a, byte)
  | _ => none

def store? : Call → Option (Address × Byte)
  | write a byte => some (a, byte)
  | _ => none

end Call

def loads (calls : List Call) : List (Address × Byte) := calls.filterMap Call.load?

def stores (calls : List Call) : List (Address × Byte) := calls.filterMap Call.store?

theorem loads_append (calls more : List Call) : loads (calls ++ more) = loads calls ++ loads more :=
  List.filterMap_append

theorem stores_append (calls more : List Call) : stores (calls ++ more) = stores calls ++ stores more :=
  List.filterMap_append

theorem dataBytes_eq_loads (calls : List Call) : dataBytes calls = (loads calls).map Prod.snd := by
  induction calls with
  | nil => rfl
  | cons call calls ih =>
    cases call with
    | fetch | write | notify => exact ih
    | read a byte => exact congrArg (byte :: ·) ih

def Silent (calls : List Call) : Prop := loads calls = [] ∧ stores calls = []

theorem silent_of_traffic {calls : List Call} (h : traffic calls = []) : Silent calls := by
  have hloads := filterMap_traffic Call.load? (fun _ _ => rfl) calls
  have hstores := filterMap_traffic Call.store? (fun _ _ => rfl) calls
  rw [h] at hloads hstores
  exact ⟨hloads.symm, hstores.symm⟩

theorem Silent.dataBytes_eq {calls : List Call} (h : Silent calls) : dataBytes calls = [] := by
  rw [dataBytes_eq_loads, h.1, List.map_nil]

theorem Silent.append_loads {before after : List Call} (hbefore : Silent before) (hafter : Silent after)
    (calls : List Call) : loads (before ++ calls ++ after) = loads calls := by
  rw [loads_append, loads_append, hbefore.1, hafter.1, List.nil_append, List.append_nil]

theorem Silent.append_stores {before after : List Call} (hbefore : Silent before) (hafter : Silent after)
    (calls : List Call) : stores (before ++ calls ++ after) = stores calls := by
  rw [stores_append, stores_append, hbefore.2, hafter.2, List.nil_append, List.append_nil]

def WritesBack (calls : List Call) : Prop :=
  ∃ before after, calls = before ++ after ∧ stores before = [] ∧ loads after = [] ∧ stores after = loads before

theorem WritesBack.extend {calls before after : List Call} (h : WritesBack calls) (hbefore : Silent before)
    (hafter : Silent after) : WritesBack (before ++ calls ++ after) := by
  obtain ⟨reading, writing, rfl, hreading, hwriting, hback⟩ := h
  refine ⟨before ++ reading, writing ++ after, by simp only [List.append_assoc], ?_, ?_, ?_⟩
  · rw [stores_append, hbefore.2, hreading, List.append_nil]
  · rw [loads_append, hwriting, hafter.1, List.append_nil]
  · rw [stores_append, loads_append, hback, hafter.2, hbefore.1, List.append_nil, List.nil_append]

namespace Dialogue

variable {α : Type} (x : Dialogue α) (m : Memory)

theorem run_stores : (x.run m).2 = (stores (x.transcript m)).foldl (fun m access => m.write access.1 access.2) m := by
  induction x generalizing m with
  | done value => rfl
  | fetch a next ih | read a next ih => exact ih (m.read a) m
  | write a byte next ih => exact ih (m.write a byte)
  | notify notice next ih => exact ih m

theorem read_of_mem_loads {before after : List Call} (htranscript : x.transcript m = before ++ after)
    (hstores : stores before = []) : ∀ access ∈ loads before, m.read access.1 = access.2 := by
  induction before generalizing x with
  | nil => exact fun _ h => absurd h List.not_mem_nil
  | cons call before ih =>
    cases x with
    | done value => exact absurd htranscript (List.cons_ne_nil _ _).symm
    | fetch a next =>
      obtain ⟨rfl, hmore⟩ := List.cons.inj htranscript
      exact ih (next (m.read a)) hmore hstores
    | read a next =>
      obtain ⟨rfl, hmore⟩ := List.cons.inj htranscript
      exact List.forall_mem_cons.mpr ⟨rfl, ih (next (m.read a)) hmore hstores⟩
    | write a byte next =>
      obtain ⟨rfl, -⟩ := List.cons.inj htranscript
      exact absurd hstores (List.cons_ne_nil _ _)
    | notify notice next =>
      obtain ⟨rfl, hmore⟩ := List.cons.inj htranscript
      exact ih next hmore hstores

end Dialogue

theorem Memory.foldl_write_of_read (m : Memory) {accesses : List (Address × Byte)}
    (h : ∀ access ∈ accesses, m.read access.1 = access.2) :
    accesses.foldl (fun m access => m.write access.1 access.2) m = m := by
  induction accesses with
  | nil => rfl
  | cons access accesses ih =>
    obtain ⟨hread, hmore⟩ := List.forall_mem_cons.mp h
    rw [List.foldl_cons, ← hread, m.write_read, ih hmore]

theorem WritesBack.run_eq {α : Type} {x : Dialogue α} {m : Memory} (h : WritesBack (x.transcript m)) :
    (x.run m).2 = m := by
  obtain ⟨before, after, htranscript, hbefore, -, hback⟩ := h
  rw [x.run_stores, htranscript, stores_append, hbefore, hback, List.nil_append]
  exact m.foldl_write_of_read (x.read_of_mem_loads m htranscript hbefore)

end Microcontroller
