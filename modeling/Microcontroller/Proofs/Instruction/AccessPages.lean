import Microcontroller.Proofs.Instruction.StepActions
import Microcontroller.Proofs.Instruction.StepVerdict
import Microcontroller.Proofs.Memory.Words

namespace Microcontroller

open Dialogue Grammar

def InPage (page : Byte) (a : Address) : Prop := a.toNat < 2 ^ 24 ∧ a.toNat / 2 ^ 16 = page.toNat

theorem inPage_address (page : Byte) (offset : Word) : InPage page (address page offset) := by
  have hpage := page.isLt
  have hoffset := offset.isLt
  have h := toNat_address page offset
  constructor <;> omega

theorem inPage_codePath (page : Byte) (pc : Word) (n : Nat) : ∀ a ∈ codePath page pc n, InPage page a := by
  induction n generalizing pc with
  | zero => exact fun a h => absurd h List.not_mem_nil
  | succ n ih =>
    intro a h
    obtain rfl | h := List.mem_cons.mp h
    · exact inPage_address page pc
    · exact ih (pc + 1) a h

namespace Action

def Inside (page : Byte) : Action → Prop
  | access _ .byte _ page' _ => page' = page
  | access _ .word _ page' offset =>
    let high := address page' (offset &&& 0xFFFE)
    let low := address page' ((offset &&& 0xFFFE) + 1)
    page' = page ∧ 2 ∣ high.toNat ∧ low.toNat = high.toNat + 1 ∧ InPage page high ∧ InPage page low
  | _ => True

theorem inside_access (direction : Direction) (size : Size) (checked : Bool) (page : Byte) (offset : Word) :
    (access direction size checked page offset).Inside page := by
  cases size with
  | byte => rfl
  | word =>
    have hhigh := toNat_address page (offset &&& 0xFFFE)
    have hlow := toNat_address page ((offset &&& 0xFFFE) + 1)
    rw [toNat_and_even] at hhigh
    rw [toNat_and_even_succ, toNat_and_even] at hlow
    exact ⟨rfl, by omega, by omega, inPage_address page _, inPage_address page _⟩

theorem Inside.addresses {page : Byte} {action : Action} (h : action.Inside page) : ∀ a ∈ action.addresses, InPage page a := by
  cases action with
  | access direction size checked page' offset =>
    cases size with
    | byte =>
      obtain rfl : page' = page := h
      intro a ha
      obtain rfl := List.mem_singleton.mp ha
      exact inPage_address page' offset
    | word =>
      obtain ⟨rfl, -, -, heven, hodd⟩ := h
      intro a ha
      obtain rfl | ha := List.mem_cons.mp ha
      · exact heven
      · obtain rfl := List.mem_singleton.mp ha
        exact hodd
  | _ => exact fun a ha => absurd ha List.not_mem_nil

end Action

namespace Grammar

/-- The page of the data that an instruction reads and writes: that of its addressing mode, or that of the frame for the
moves to and from it. Otherwise it is page 0, where the stack and the short absolute addresses are. -/
def dataPage (p : Processor) : List Byte → Byte
  | [] => 0
  | first :: _ =>
    let r := registerField first
    if isMode first then
      if first = 0x05 ∨ first = 0x0D then 0
      else if first = 0x15 ∨ first = 0x1D then p.dataPage
      else if r ≤ 3 then p.dataPage
      else if r ≤ 5 then p.extendedPage
      else p.stackPage
    else if 0x80 ≤ first ∧ first < 0xA0 then p.stackPage
    else 0

variable (p : Processor)

theorem dataPage_mem (code : List Byte) : dataPage p code ∈ [0, p.dataPage, p.extendedPage, p.stackPage] := by
  cases code with
  | nil => exact List.mem_cons_self
  | cons first rest =>
    dsimp only [dataPage]
    split_ifs <;> simp

theorem pageOf_eq (r : Register) :
    p.pageOf r = if r ≤ 3 then p.dataPage else if r ≤ 5 then p.extendedPage else p.stackPage := by
  have hthree : r ≤ 3 ↔ r.val < 4 := Fin.le_def.trans Nat.lt_succ_iff.symm
  have hfive : r ≤ 5 ↔ r.val < 6 := Fin.le_def.trans Nat.lt_succ_iff.symm
  simp only [Processor.pageOf, hthree, hfive]

theorem location_page {mode : Byte} (h : isMode mode = true) (bytes : List Byte) :
    (location p mode bytes).1 = dataPage p (mode :: bytes) := by
  simp only [location, dataPage, h, if_true, ← pageOf_eq]
  split_ifs <;> rfl

theorem inside_operandActions {mode : Byte} (h : isMode mode = true) (bytes : List Byte) (direction : Direction) :
    ∀ action ∈ operandActions p mode bytes direction, action.Inside (dataPage p (mode :: bytes)) := by
  intro action ha
  unfold operandActions at ha
  cases hkind : Kind.ofMode mode with
  | register =>
    rw [hkind] at ha
    exact absurd ha List.not_mem_nil
  | memory =>
    rw [hkind] at ha
    obtain rfl := List.mem_singleton.mp ha
    rw [← location_page p h]
    exact Action.inside_access _ _ _ _ _
  | immediate =>
    rw [hkind] at ha
    cases direction with
    | load => exact absurd ha List.not_mem_nil
    | store =>
      obtain rfl := List.mem_singleton.mp ha
      trivial

theorem inside_stackActions (pointer : Word) (directions : List Direction) :
    ∀ action ∈ stackActions pointer directions, action.Inside 0 := by
  induction directions generalizing pointer with
  | nil => exact fun action ha => absurd ha List.not_mem_nil
  | cons direction directions ih =>
    intro action ha
    obtain rfl | ha := List.mem_cons.mp ha
    · exact Action.inside_access _ _ _ _ _
    · exact ih _ action ha

theorem inside_actions (code : List Byte) : ∀ action ∈ actions p code, action.Inside (dataPage p code) := by
  cases code with
  | nil => exact fun action ha => absurd ha List.not_mem_nil
  | cons first rest =>
    cases hmode : isMode first with
    | true =>
      intro action ha
      rw [actions, hmode, if_pos rfl, generalActions] at ha
      cases hoperation : operation? (first :: rest) with
      | none =>
        rw [hoperation] at ha
        exact absurd ha List.not_mem_nil
      | some operation =>
        rw [hoperation] at ha
        obtain ⟨direction, -, ha⟩ := List.mem_flatMap.mp ha
        exact inside_operandActions p hmode rest direction action ha
    | false =>
      simp only [actions, dataPage, hmode, Bool.false_eq_true, if_false]
      by_cases hshort : 0x60 ≤ first ∧ first < 0x80
      · have hframe : ¬(0x80 ≤ first ∧ first < 0xA0) := by bv_omega
        simp only [hshort, hframe, and_self, if_true, if_false, List.mem_singleton, forall_eq]
        exact Action.inside_access _ _ _ _ _
      by_cases hframe : 0x80 ≤ first ∧ first < 0xA0
      · simp only [hshort, hframe, and_self, if_true, if_false, List.mem_singleton, forall_eq]
        exact Action.inside_access _ _ _ _ _
      simp only [hshort, hframe, if_false]
      split
      next =>
        intro action ha
        obtain ⟨trap, -, rfl⟩ := List.mem_map.mp ha
        trivial
      next => exact inside_stackActions _ _

end Grammar

namespace Instruction

theorem step_pages {σ : Type} [Host σ] (p : Processor) (host : σ) :
    let calls := (step.run p).transcript host
    let code := codeBytes calls
    let traps := (trapped ((step.run p).run host).1.1).map Action.errorTrap
    (∀ a ∈ codeAddresses calls, InPage p.codePage a) ∧ (∀ a ∈ dataAddresses calls, InPage (dataPage p code) a) ∧
      dataPage p code ∈ [0, p.dataPage, p.extendedPage, p.stackPage] ∧
      Trace (actions p code ++ traps) calls ∧ ∀ action ∈ actions p code ++ traps, action.Inside (dataPage p code) := by
  intro calls code traps
  obtain ⟨-, ⟨n, hn⟩, -⟩ := (step_ensures p).transcript host
  have htrace : Trace (actions p code ++ traps) calls := (step_acts p).transcript host
  have hinside : ∀ action ∈ actions p code ++ traps, action.Inside (dataPage p code) := by
    intro action ha
    obtain ha | ha := List.mem_append.mp ha
    · exact inside_actions p code action ha
    · obtain ⟨trap, -, rfl⟩ := List.mem_map.mp ha
      trivial
  refine ⟨?_, ?_, dataPage_mem p code, htrace, hinside⟩
  · intro a ha
    exact inPage_codePath _ _ n a (hn ▸ ha)
  · intro a ha
    rw [htrace.dataAddresses_eq] at ha
    obtain ⟨action, haction, ha⟩ := List.mem_flatMap.mp ha
    exact (hinside action haction).addresses a ha

end Instruction

end Microcontroller
