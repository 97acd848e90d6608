import Microcontroller.Proofs.Dialogue.Code
import Microcontroller.Proofs.Instruction.Conduct

/-!
All code bytes of an instruction come from consecutive addresses, because one that moves the program counter
otherwise than by fetching fetches nothing afterwards.
-/

namespace Microcontroller

open Conduct Dialogue Processor

namespace Conduct

def Straight : Conduct := fun p calls q =>
  announcedTraps calls = [] ∧ ∃ n, codeAddresses calls = codePath p.codePage p.pc n ∧
    q.pc = p.pc + BitVec.ofNat 16 n ∧ q.codePage = p.codePage

def Settled : Conduct := fun _ calls _ => announcedTraps calls = [] ∧ codeAddresses calls = []

def Orderly : Conduct := fun p calls _ =>
  announcedTraps calls = [] ∧ ∃ n, codeAddresses calls = codePath p.codePage p.pc n

theorem Straight.trans {p q r : Processor} {calls more : List Call} (h : Straight p calls q)
    (h' : Orderly q more r) : Orderly p (calls ++ more) r := by
  obtain ⟨hq, n, hn, hpc, hpage⟩ := h
  obtain ⟨hq', n', hn'⟩ := h'
  refine ⟨by rw [announcedTraps_append, hq, hq', List.append_nil], n + n', ?_⟩
  rw [codeAddresses_append, hn, hn', codePath_add, hpc, hpage]

instance : Local Straight where
  refl p := ⟨rfl, 0, rfl, by simp, rfl⟩
  trans {p q r calls more} h h' := by
    obtain ⟨hq, n, hn, hpc, hpage⟩ := h
    obtain ⟨hq', n', hn', hpc', hpage'⟩ := h'
    refine ⟨by rw [announcedTraps_append, hq, hq', List.append_nil], n + n', ?_, ?_, hpage'.trans hpage⟩
    · rw [codeAddresses_append, hn, hn', codePath_add, hpc, hpage]
    · rw [hpc', hpc, BitVec.ofNat_add, BitVec.add_assoc]
  read p a byte := ⟨rfl, 0, rfl, by simp, rfl⟩
  write p a byte := ⟨rfl, 0, rfl, by simp, rfl⟩
  report p notice h := ⟨by cases notice <;> simp_all [announcedTraps, Call.trap?], 0, rfl, by simp, rfl⟩
  update hpc hpage := ⟨rfl, 0, rfl, by simp [hpc], hpage⟩

instance : Fetching Straight := ⟨fun _ _ => ⟨rfl, 1, rfl, rfl, rfl⟩⟩

instance : Local Settled where
  refl _ := ⟨rfl, rfl⟩
  trans h h' := by simp [Settled, h.1, h.2, h'.1, h'.2]
  read _ _ _ := ⟨rfl, rfl⟩
  write _ _ _ := ⟨rfl, rfl⟩
  report p notice h := ⟨by cases notice <;> simp_all [announcedTraps, Call.trap?], rfl⟩
  update _ _ := ⟨rfl, rfl⟩

instance : Jumping Settled := ⟨fun _ _ _ => ⟨rfl, rfl⟩⟩

instance {α β : Type} (x : Routine α) (f : α → Routine β) [hx : x.Keeps Straight]
    [hf : ∀ value, (f value).Keeps Orderly] : (x >>= f).Keeps Orderly where
  ensures p := by
    rw [Routine.run_bind, ensures_bind]
    apply (hx.ensures p).mono
    intro calls r h
    apply ((hf r.1).ensures r.2).mono
    intro more _ h'
    exact h.trans h'

theorem Straight.bind {α β : Type} {x : Attempt α} {f : α → Attempt β} (hx : x.Keeps Straight)
    (hf : ∀ value, (f value).Keeps Orderly) : (x >>= f).Keeps Orderly where
  ensures p := by
    rw [Attempt.run_bind, ensures_bind]
    apply (hx.ensures p).mono
    rintro calls ⟨result, q⟩ h
    cases result with
    | error trap =>
      obtain ⟨hq, n, hn, _⟩ := h
      exact ⟨by rw [List.append_nil, hq], n, by rw [List.append_nil, hn]⟩
    | ok value =>
      apply ((hf value).ensures q).mono
      intro more _ h'
      exact h.trans h'

instance {α β : Type} (x : Attempt α) (f : α → Attempt β) [hx : x.Keeps Straight]
    [hf : ∀ value, (f value).Keeps Orderly] : (x >>= f).Keeps Orderly := Straight.bind hx hf

instance {α : Type} (x : Routine α) [hx : x.Keeps Settled] : x.Keeps Orderly where
  ensures p := (hx.ensures p).mono fun _ _ h => ⟨h.1, 0, h.2⟩

instance {α : Type} (x : Attempt α) [hx : x.Keeps Settled] : x.Keeps Orderly where
  ensures p := (hx.ensures p).mono fun _ _ h => ⟨h.1, 0, h.2⟩

instance {α : Type} (x : Attempt α) [hx : x.Keeps Straight] : x.Keeps Orderly where
  ensures p := (hx.ensures p).mono fun _ _ ⟨h, n, hn, _⟩ => ⟨h, n, hn⟩

end Conduct

namespace Instruction

instance : returnFromCall.Keeps Settled := by unfold returnFromCall; infer_instance

instance : returnToPage.Keeps Settled := by unfold returnToPage; infer_instance

instance (byte : Byte) : (jumpIndirect byte).Keeps Orderly := by
  unfold jumpIndirect
  refine Straight.bind inferInstance fun second => ?_
  dsimp only
  split
  · infer_instance
  · split <;> infer_instance

set_option synthInstance.maxSize 512 in
instance (gate : Status → Bool) (byte : Byte) : (countDown gate byte).Keeps Orderly := by
  unfold countDown; infer_instance

instance (byte : Byte) : (jumpGroup byte).Keeps Orderly := by
  unfold jumpGroup; split <;> infer_instance

section ShortForms

variable (R : Conduct) [Computing R] [Accessing R] [Fetching R] (byte : Byte)

instance : (loadShort byte).Keeps R := by
  unfold loadShort; cases Size.field byte <;> infer_instance

instance : (storeShort byte).Keeps R := by
  unfold storeShort; cases Size.field byte <;> infer_instance

instance : (moveFrame byte).Keeps R := by
  unfold moveFrame; cases byte.getLsbD 4 <;> cases byte.getLsbD 3 <;> infer_instance

end ShortForms

set_option synthInstance.maxSize 512 in
instance (byte : Byte) : (returnAndDrop byte).Keeps Orderly := by
  unfold returnAndDrop; infer_instance

instance (form : Form) (byte : Byte) : (form.execute byte).Keeps Orderly := by
  cases form
  all_goals
    dsimp only [Form.execute, loadMultiple, callPage, softwareTrap, returnFromException, callRelative,
      storeMultiple, jumpPage, call, branchConditionally, compareImmediate, moveByte, moveWord]
    infer_instance

end Instruction

end Microcontroller
