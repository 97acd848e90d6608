import Microcontroller.Proofs.Instruction.CallStack

/-!
Nested calls over plain memory. Every return of a balanced fragment finds the address that its call has pushed, since
the stack holds the open calls above the stack pointer and nothing in between writes there. So does a return that then
drops arguments, as long as no other call is open, and the return from an exception.
-/

namespace Microcontroller

open Memory Processor
open StackCall (pointer pointer_zero)
open Linkage

inductive Fragment where
  | done
  | plain (rest : Fragment)
  | call (form : CallForm) (callee rest : Fragment)

namespace Fragment

def after : Fragment → Processor × Memory → Processor × Memory
  | done, state => state
  | plain rest, state => rest.after (next state)
  | call _ callee rest, state => rest.after (next (callee.after (next state)))

/-- Running from the state, each step is what the fragment says, with `depth` words on the stack before it. -/
def Balanced (loaded : Memory) (area : List Address) (base : Word) :
    Fragment → (depth : Nat) → Processor × Memory → Prop
  | done, _, _ => True
  | plain rest, depth, state => Continues area base depth state ∧ rest.Balanced loaded area base depth (next state)
  | call form callee rest, depth, state =>
    let inner := form.words + depth
    let last := callee.after (next state)
    Room area base inner ∧ CodeAt loaded area state.1 form.code ∧ callee.Balanced loaded area base inner (next state) ∧
      CodeAt loaded area last.1 form.returnCode ∧ rest.Balanced loaded area base depth (next last)

instance decidableBalanced (loaded : Memory) (area : List Address) (base : Word) :
    (fragment : Fragment) → (depth : Nat) → (state : Processor × Memory) →
      Decidable (fragment.Balanced loaded area base depth state)
  | done, _, _ => isTrue trivial
  | plain rest, depth, state =>
    have := decidableBalanced loaded area base rest depth (next state)
    inferInstanceAs (Decidable (_ ∧ _))
  | call form callee rest, depth, state =>
    let last := callee.after (next state)
    have := decidableBalanced loaded area base callee (form.words + depth) (next state)
    have := decidableBalanced loaded area base rest depth (next last)
    inferInstanceAs (Decidable (_ ∧ _ ∧ _ ∧ _ ∧ _))

def Linked : Fragment → Processor × Memory → Prop
  | done, _ => True
  | plain rest, state => rest.Linked (next state)
  | call form callee rest, state =>
    let last := callee.after (next state)
    let returned := next last
    outcome state = .ok () ∧ form.Enters state.1 (next state).1 ∧ callee.Linked (next state) ∧
      outcome last = .ok () ∧ returned.1.codePage = state.1.codePage ∧
      returned.1.pc = state.1.pc + BitVec.ofNat 16 form.code.length ∧
      returned.1.reg stackPointer = state.1.reg stackPointer ∧ rest.Linked returned

end Fragment

namespace Linkage

theorem Standing.after {loaded : Memory} {area : List Address} {base : Word} {stack : List Word} {fragment : Fragment}
    (state : Processor × Memory) (h : Standing loaded area base stack state.1 state.2)
    (hbalanced : fragment.Balanced loaded area base stack.length state) :
    fragment.Linked state ∧ (fragment.after state).1.codePage = state.1.codePage ∧
      Standing loaded area base stack (fragment.after state).1 (fragment.after state).2 := by
  -- The callee runs above a taller stack, so the stack is general in both hypotheses.
  induction fragment generalizing stack state with
  | done => exact ⟨trivial, rfl, h⟩
  | plain rest ih =>
    obtain ⟨hplain, hrest⟩ := hbalanced
    obtain ⟨hlinked, hpage, hstanding⟩ := ih (next state) (h.plain hplain) hrest
    exact ⟨hlinked, hpage.trans hplain.page, hstanding⟩
  | call form callee rest ihcallee ihrest =>
    obtain ⟨hroom, hcode, hcallee, hreturn, hrest⟩ := hbalanced
    obtain ⟨hcall, henters, hnear, hentered⟩ := h.call hroom hcode
    rw [← CallForm.length_frame form, ← List.length_append] at hcallee
    obtain ⟨hinner, hkept, hlast⟩ := ihcallee (next state) hentered hcallee
    obtain ⟨hback, hpage, hpc, hreturned⟩ := hlast.return hreturn fun hfar => hkept.trans (hnear hfar)
    obtain ⟨hlinked, houter, hstanding⟩ := ihrest (next (callee.after (next state))) hreturned hrest
    exact ⟨⟨hcall, henters, hinner, hback, hpage, hpc, hreturned.top.trans h.top.symm, hlinked⟩,
      houter.trans hpage, hstanding⟩

end Linkage

end Microcontroller
