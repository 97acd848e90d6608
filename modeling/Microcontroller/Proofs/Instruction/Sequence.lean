import Microcontroller.Proofs.Instruction.Lengths

namespace Microcontroller

open Conduct Dialogue Grammar Processor

namespace Conduct

def SamePage : Conduct := fun p _ q => q.codePage = p.codePage

instance : Local SamePage where
  refl _ := rfl
  trans h h' := h'.trans h
  read _ _ _ := rfl
  write _ _ _ := rfl
  report _ _ _ := rfl
  update _ hpage := hpage

instance : Fetching SamePage := ⟨fun _ _ => rfl⟩

instance : Branching SamePage := ⟨fun _ _ => rfl⟩

end Conduct

namespace Instruction

open Routine

set_option synthInstance.maxSize 512 in
instance (gate : Status → Bool) (byte : Byte) : (countDown gate byte).Keeps SamePage := by
  unfold countDown; infer_instance

set_option synthInstance.maxSize 512 in
instance (byte : Byte) : (returnAndDrop byte).Keeps SamePage := by
  unfold returnAndDrop returnFromCall; infer_instance

theorem jumpIndirect_page (p : Processor) :
    ((jumpIndirect 0x11).run p).Ensures fun calls r =>
      leavesPage (0x11 :: codeBytes calls) = false → r.2.codePage = p.codePage := by
  intro second
  by_cases hleaves : second = 0x19 ∨ (second >>> 3).toNat = 0x19
  · have hrange : second = 0x19 ∨ 0xC8 ≤ second ∧ second ≤ 0xCF := by decide +revert
    apply ensures_of_forall
    intro calls r h
    have htrue : leavesPage (0x11 :: second :: codeBytes calls) = true := by
      simpa [leavesPage] using hrange
    exact absurd (htrue.symm.trans h) Bool.noConfusion
  · obtain ⟨hfar, hrow⟩ := not_or.mp hleaves
    refine ((?_ : Attempt.Keeps SamePage _).ensures { p with pc := p.pc + 1 }).mono fun _ _ h _ => h
    dsimp only
    rw [if_neg hfar]
    split
    next hcall => exact absurd hcall hrow
    next => infer_instance
    next => infer_instance
    next => infer_instance

theorem jumpGroup_page (first : Byte) (p : Processor) (h : Form.ofByte first = .jumpGroup) :
    ((jumpGroup first).run p).Ensures fun calls r =>
      leavesPage (first :: codeBytes calls) = false → r.2.codePage = p.codePage := by
  by_cases hindirect : first = 0x11
  · subst hindirect
    exact jumpIndirect_page p
  · have hkeeps : (jumpGroup first).Keeps SamePage := by
      unfold jumpGroup
      split
      next => infer_instance
      next => infer_instance
      next => infer_instance
      next => infer_instance
      next heq => exact absurd (BitVec.eq_of_toNat_eq heq) hindirect
      next => infer_instance
    exact (hkeeps.ensures p).mono fun _ _ h _ => h

theorem form_page (first : Byte) (p : Processor) :
    (((Form.ofByte first).execute first).run p).Ensures fun calls r =>
      leavesPage (first :: codeBytes calls) = false → r.2.codePage = p.codePage := by
  cases hform : Form.ofByte first with
  | callPage | jumpPage | returnFromException =>
    have hfirst : first ∈ ([0x03, 0x0A, 0x13] : List Byte) := by decide +revert
    apply ensures_of_forall
    intro calls r h
    rw [leavesPage, decide_eq_true hfirst, Bool.true_or] at h
    exact absurd h Bool.noConfusion
  | jumpGroup => exact jumpGroup_page first p hform
  | _ =>
    have hkeeps : ((Form.ofByte first).execute first).Keeps SamePage := by
      rw [hform]
      dsimp only [Form.execute, loadMultiple, softwareTrap, callRelative, storeMultiple, call, returnFromCall,
        branchConditionally, compareImmediate, moveByte, moveWord]
      infer_instance
    rw [← hform]
    exact (hkeeps.ensures p).mono fun _ _ h _ => h

theorem branchConditionally_straight (byte : Byte) {p : Processor}
    (h : (Condition.ofByte byte).holds p.status.codes = false) :
    ((branchConditionally byte).run p).Ensures fun calls r => Straight p calls r.2 := by
  unfold branchConditionally
  split
  all_goals
    simp only [Routine.run_bind, run_fetchWord, run_fetchDisplacement, Routine.run_get, fetch_bind, done_bind, h,
      Bool.false_eq_true, if_false, Routine.run_pure, ensures_fetch, ensures_done]
  · intro high low
    exact ⟨rfl, 2, rfl, BitVec.add_assoc p.pc 1 1, rfl⟩
  · intro byte
    exact ⟨rfl, 1, rfl, rfl, rfl⟩

theorem countDown_straight (gate : Status → Bool) (byte : Byte) (p : Processor) :
    ((countDown gate byte).run p).Ensures fun calls r =>
      r.1 = .ok () →
        (gate p.status && (codeBytes calls).head?.any fun second => p.reg (registerField second) ≠ 0) = false →
          Straight p calls r.2 := by
  intro second
  by_cases hs : second >>> 3 = 0x17
  · simp only [hs, if_true, Attempt.run_bind, Attempt.run_lift, run_fetchDisplacement, Attempt.run_get, fetch_bind,
      done_bind, ensures_fetch]
    intro offset
    have hstraight {q : Processor} (hpc : q.pc = p.pc + 1 + 1) (hpage : q.codePage = p.codePage) :
        Straight p [.fetch (address p.codePage p.pc) second, .fetch (address p.codePage (p.pc + 1)) offset] q :=
      ⟨rfl, 2, rfl, hpc.trans (BitVec.add_assoc p.pc 1 1), hpage⟩
    by_cases hgate : gate p.status = true
    · rw [if_pos hgate]
      by_cases hzero : Processor.reg { p with pc := p.pc + 1 + 1 } (registerField second) = 0
      · simp only [Attempt.run_bind, Attempt.run_lift, Routine.run_setReg, done_bind]
        rw [if_pos hzero]
        exact fun _ _ => hstraight rfl rfl
      · apply ensures_of_forall
        intro calls r _ hdiverts
        have hreg : p.reg (registerField second) = 0 := by simpa [hgate] using hdiverts
        exact absurd hreg hzero
    · rw [if_neg hgate]
      exact fun _ _ => hstraight rfl rfl
  · simp only [hs, if_false, Attempt.run_bind, Attempt.run_throw, done_bind, ensures_done]
    intro hok
    cases hok

theorem diverts_of_mem {first : Byte} (p : Processor) (code : List Byte) (h : first ∈ diverting) :
    diverts p (first :: code) = true := by
  have hother : ¬(0x20 ≤ first ∧ first ≤ 0x3F) ∧ first ≠ 0x01 ∧ first ≠ 0x06 ∧ first ≠ 0x07 := by decide +revert
  obtain ⟨hbranch, h₁, h₆, h₇⟩ := hother
  rw [diverts]
  dsimp only
  rw [if_neg hbranch, if_neg h₁, if_neg h₆, if_neg h₇, decide_eq_true h]

theorem form_straight (first : Byte) (p : Processor) :
    (((Form.ofByte first).execute first).run p).Ensures fun calls r =>
      r.1 = .ok () → diverts p (first :: codeBytes calls) = false → Straight p calls r.2 := by
  by_cases hdiverting : first ∈ diverting
  · apply ensures_of_forall
    intro calls r _ hdiverts
    exact absurd ((diverts_of_mem p _ hdiverting).symm.trans hdiverts) Bool.noConfusion
  by_cases hassigned : first ∈ unassigned
  · apply (unassigned_ends first hassigned p).mono
    intro calls r h hok
    rw [h] at hok
    exact absurd hok nofun
  cases hform : Form.ofByte first with
  | callPage | returnFromException | callRelative | jumpPage | call | returnFromCall =>
    exact absurd (by decide +revert) hdiverting
  | returnAndDrop => exact absurd (by decide +revert) hassigned
  | jumpGroup =>
    have hfirst : first = 0x01 ∨ first = 0x06 ∨ first = 0x07 := by decide +revert
    obtain rfl | rfl | rfl := hfirst
    · exact countDown_straight (fun _ => true) 0x01 p
    · exact countDown_straight (·.get .zero) 0x06 p
    · exact countDown_straight (!·.get .zero) 0x07 p
  | branch =>
    have hfirst : 0x20 ≤ first ∧ first ≤ 0x3F := by decide +revert
    have hdiverts (code : List Byte) : diverts p (first :: code) = (Condition.ofByte first).holds p.status.codes :=
      if_pos hfirst
    cases htaken : (Condition.ofByte first).holds p.status.codes with
    | false =>
      have hstraight := branchConditionally_straight first htaken
      simp only [Form.execute, Attempt.run_lift, ensures_bind, ensures_done]
      apply hstraight.mono
      intro calls r h _ _
      rwa [List.append_nil]
    | true =>
      apply ensures_of_forall
      intro calls r _ hstays
      rw [hdiverts, htaken] at hstays
      exact absurd hstays Bool.noConfusion
  | _ =>
    have hkeeps : ((Form.ofByte first).execute first).Keeps Straight := by
      rw [hform]
      dsimp only [Form.execute, loadMultiple, softwareTrap, storeMultiple, compareImmediate, moveByte, moveWord]
      infer_instance
    rw [← hform]
    exact (hkeeps.ensures p).mono fun _ _ h _ _ => h

theorem step_sequence (p : Processor) :
    (step.run p).Ensures fun calls r =>
      codeAddresses calls = codePath p.codePage p.pc (codeBytes calls).length ∧
        (r.1 = .ok () → length? (codeBytes calls) = some (codeBytes calls).length ∧
          (diverts p (codeBytes calls) = false →
            r.2.codePage = p.codePage ∧ r.2.pc = p.pc + BitVec.ofNat 16 (codeBytes calls).length)) ∧
        (leavesPage (codeBytes calls) = false → r.2.codePage = p.codePage) := by
  rw [ensures_step]
  intro first
  let q := { p with pc := p.pc + 1 }
  have horder := (inferInstance : ((Form.ofByte first).execute first).Keeps Orderly).ensures q
  apply (((horder.and (form_length first q)).and (form_straight first q)).and (form_page first q)).mono
  rintro calls r ⟨⟨⟨⟨-, n, hn⟩, hlength⟩, hstraight⟩, hpage⟩
  have haddresses : codeAddresses (.fetch (address p.codePage p.pc) first :: (calls ++ announcement r)) =
      address p.codePage p.pc :: codeAddresses calls := by
    refine congrArg (_ :: ·) ?_
    rw [← List.append_nil (codeAddresses calls), ← codeAddresses_announcement r]
    exact codeAddresses_append _ _
  have hcount : n = (codeBytes calls).length := by rw [← length_codeAddresses, hn, length_codePath]
  rw [codeBytes_announced, haddresses, hn, hcount]
  refine ⟨rfl, fun hok => ⟨hlength hok, fun hdiverts => ?_⟩, hpage⟩
  have hpc := (hstraight hok hdiverts).pc_eq
  obtain ⟨-, -, -, -, hsame⟩ := hstraight hok hdiverts
  exact ⟨hsame, hpc.trans (add_one_add_ofNat p.pc _)⟩

theorem step_advances {σ : Type} [Host σ] (p : Processor) (host : σ) :
    let calls := (step.run p).transcript host
    let code := codeBytes calls
    let result := ((step.run p).run host).1
    codeAddresses calls = codePath p.codePage p.pc code.length ∧
      (result.1 = .ok () → length? code = some code.length ∧
        (diverts p code = false →
          result.2.codePage = p.codePage ∧ result.2.pc = p.pc + BitVec.ofNat 16 code.length)) ∧
      (leavesPage code = false → result.2.codePage = p.codePage) :=
  (step_sequence p).transcript host

theorem step_advances_across_page_end :
    let p := { Processor.new with pc := 0xFFFE, codePage := 3 }
    let m := (Memory.filled 0).store 0x3FFFE #[0xF8, 0x12] |>.store 0x30000 #[0x34, 0x07, 0xAB, 0xCD]
    let result := ((step.run p).run m).1
    codeBytes ((step.run p).transcript m) = [0xF8, 0x12, 0x34, 0x07, 0xAB, 0xCD] ∧ result.1 = .ok () ∧
      codeAddresses ((step.run p).transcript m) = [0x3FFFE, 0x3FFFF, 0x30000, 0x30001, 0x30002, 0x30003] ∧
      result.2.codePage = 3 ∧ result.2.pc = 4 := by
  intro p m result
  have hcode : codeBytes ((step.run p).transcript m) = [0xF8, 0x12, 0x34, 0x07, 0xAB, 0xCD] := by decide +kernel
  have hok : result.1 = .ok () := by
    have hverdict := ((step_ensures p).transcript m).1
    rw [hcode] at hverdict
    exact (Option.some.inj hverdict).symm
  obtain ⟨haddresses, hlength, -⟩ := step_advances p m
  obtain ⟨-, hsequence⟩ := hlength hok
  rw [hcode] at haddresses hsequence
  obtain ⟨hpage, hpc⟩ := hsequence (by decide)
  exact ⟨hcode, hok, haddresses.trans (by decide), hpage, hpc.trans (by decide)⟩

end Instruction

end Microcontroller
