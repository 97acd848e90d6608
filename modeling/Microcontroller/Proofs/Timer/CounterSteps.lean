import Mathlib.Algebra.Group.Nat.Defs
import Microcontroller.Proofs.Timer.CounterFlags

namespace Microcontroller

inductive Comparator where
  | a
  | b
  deriving DecidableEq

def Comparator.event : Comparator → TimerEvent
  | a => .compareA
  | b => .compareB

namespace Counter

variable {width firstFlag : Nat}

def limit (counter : Counter width firstFlag) : Comparator → BitVec width
  | .a => counter.compareA
  | .b => counter.compareB

def clears (counter : Counter width firstFlag) (clearing : Option Comparator) : Bool :=
  clearing.any fun comparator => counter.count == counter.limit comparator

def next (counter : Counter width firstFlag) (clearing : Option Comparator) : Counter width firstFlag :=
  (counter.step (counter.clears clearing)).1

def steps (counter : Counter width firstFlag) (clearing : Option Comparator) : (n : Nat) → Counter width firstFlag
  | 0 => counter
  | n + 1 => (counter.steps clearing n).next clearing

theorem steps_add (counter : Counter width firstFlag) (clearing : Option Comparator) (m n : Nat) :
    counter.steps clearing (m + n) = (counter.steps clearing m).steps clearing n := by
  induction n with
  | zero => rfl
  | succ n ih => rw [Nat.add_succ, steps, ih, steps]

theorem steps_succ (counter : Counter width firstFlag) (clearing : Option Comparator) (n : Nat) :
    counter.steps clearing (n + 1) = (counter.next clearing).steps clearing n := by
  rw [Nat.add_comm, steps_add]
  rfl

theorem steps_eq (counter : Counter width firstFlag) (clearing : Option Comparator) (n : Nat) :
    counter.steps clearing n =
      { counter with
        count := (counter.steps clearing n).count
        status := (counter.steps clearing n).status } := by
  induction n with
  | zero => rfl
  | succ n ih =>
    rw [steps, next, step, ih]

theorem getLsbD_status_steps (counter : Counter width firstFlag) (clearing : Option Comparator) (n : Nat) {i : Nat}
    (hi : i < 8) (hflag : ∀ event : TimerEvent, firstFlag + event.rank ≠ i) :
    (counter.steps clearing n).status.getLsbD i = counter.status.getLsbD i := by
  induction n with
  | zero => rfl
  | succ n ih => rw [steps, next, getLsbD_status_step _ _ hi hflag, ih]

def countsSet (counter : Counter width firstFlag) (clearing : Option Comparator) (event : TimerEvent) (n : Nat) : Nat :=
  (List.range n).countP fun m => (counter.steps clearing (m + 1)).isSet event

theorem countsSet_succ (counter : Counter width firstFlag) (clearing : Option Comparator) (event : TimerEvent)
    (n : Nat) :
    counter.countsSet clearing event (n + 1) =
      (counter.next clearing).countsSet clearing event n + if (counter.next clearing).isSet event then 1 else 0 := by
  simp only [countsSet, List.range_succ_eq_map, List.countP_cons, List.countP_map, Function.comp_def,
    Nat.succ_eq_add_one, steps_succ counter clearing]
  rfl

theorem count_next_none (counter : Counter width firstFlag) : (counter.next none).count = counter.count + 1 := rfl

theorem count_next_of_limit {counter : Counter width firstFlag} {comparator : Comparator}
    (h : counter.count = counter.limit comparator) : (counter.next (some comparator)).count = 0 := by
  have hclears : counter.clears (some comparator) = true := beq_iff_eq.mpr h
  rw [next, step, hclears]
  rfl

theorem next_of_ne_limit {counter : Counter width firstFlag} {comparator : Comparator}
    (h : counter.count ≠ counter.limit comparator) : counter.next (some comparator) = counter.next none := by
  have hclears : counter.clears (some comparator) = false := beq_eq_false_iff_ne.mpr h
  rw [next, hclears]
  rfl

theorem limit_steps (counter : Counter width firstFlag) (clearing : Option Comparator) (n : Nat)
    (comparator : Comparator) : (counter.steps clearing n).limit comparator = counter.limit comparator := by
  rw [steps_eq]
  cases comparator <;> rfl

section Free

def goal (counter : Counter width firstFlag) : TimerEvent → BitVec width
  | .overflow => BitVec.allOnes width
  | .compareA => counter.compareA
  | .compareB => counter.compareB

def wait (counter : Counter width firstFlag) (event : TimerEvent) : Nat :=
  (counter.goal event - counter.count).toNat

theorem wait_overflow (counter : Counter width firstFlag) :
    counter.wait .overflow = 2 ^ width - 1 - counter.count.toNat := by
  rw [wait, goal, BitVec.allOnes_sub_eq_not, BitVec.toNat_not]

theorem occurs_none (counter : Counter width firstFlag) (event : TimerEvent) :
    counter.occurs (counter.clears none) event = decide (counter.wait event = 0) := by
  have hwait : counter.wait event = 0 ↔ counter.count = counter.goal event := by
    rw [wait, ← BitVec.toNat_zero (w := width), BitVec.toNat_inj, BitVec.sub_eq_iff_eq_add, BitVec.zero_add]
    exact eq_comm
  rw [decide_eq_decide.mpr hwait]
  cases event <;> rfl

theorem count_steps_none (counter : Counter width firstFlag) (n : Nat) :
    (counter.steps none n).count = counter.count + BitVec.ofNat width n := by
  induction n with
  | zero => exact (BitVec.add_zero _).symm
  | succ n ih =>
    rw [steps, count_next_none, ih, BitVec.add_assoc, BitVec.ofNat_add]
    rfl

theorem toNat_count_steps_none (counter : Counter width firstFlag) (n : Nat) :
    (counter.steps none n).count.toNat = (counter.count.toNat + n) % 2 ^ width := by
  rw [count_steps_none, BitVec.toNat_add, BitVec.toNat_ofNat, Nat.add_mod_mod]

theorem toNat_one (width : Nat) (h : 1 < 2 ^ width) : (1 : BitVec width).toNat = 1 := Nat.mod_eq_of_lt h

theorem wait_next {counter : Counter width firstFlag} {event : TimerEvent} (h : counter.wait event ≠ 0) :
    (counter.next none).wait event = counter.wait event - 1 := by
  have hgoal : (counter.next none).goal event = counter.goal event := by
    cases event <;> rfl
  have hwait : counter.wait event < 2 ^ width := (counter.goal event - counter.count).isLt
  have hone := toNat_one width (by omega)
  have hle : 1 ≤ counter.goal event - counter.count := by
    rw [BitVec.le_def, hone]
    exact Nat.one_le_iff_ne_zero.mpr h
  rw [wait, hgoal, count_next_none, ← BitVec.sub_sub, BitVec.toNat_sub_of_le hle, hone]
  rfl

end Free

section Flags

variable (hlast : firstFlag ≤ 5)

include hlast

theorem isSet_next (counter : Counter width firstFlag) (clearing : Option Comparator) (event : TimerEvent) :
    (counter.next clearing).isSet event =
      (counter.isSet event || counter.occurs (counter.clears clearing) event) :=
  isSet_step hlast counter _ event

theorem isSet_steps_of_isSet {counter : Counter width firstFlag} {event : TimerEvent}
    (clearing : Option Comparator) (n : Nat) (h : counter.isSet event = true) :
    (counter.steps clearing n).isSet event = true := by
  induction n with
  | zero => exact h
  | succ n ih => rw [steps, isSet_next hlast, ih, Bool.true_or]

theorem isSet_steps_none (counter : Counter width firstFlag) (event : TimerEvent) (n : Nat) :
    (counter.steps none n).isSet event = true ↔ counter.isSet event = true ∨ counter.wait event < n := by
  induction n generalizing counter with
  | zero => simp [steps]
  | succ n ih =>
    rw [steps_succ, ih, isSet_next hlast, occurs_none, Bool.or_eq_true, decide_eq_true_eq, or_assoc]
    by_cases hwait : counter.wait event = 0
    · simp [hwait]
    · have hnext : counter.wait event - 1 < n ↔ counter.wait event < n + 1 := by omega
      rw [wait_next hwait, hnext]
      simp [hwait]

theorem countsSet_none (counter : Counter width firstFlag) (event : TimerEvent) (n : Nat) :
    counter.countsSet none event n = if counter.isSet event then n else n - counter.wait event := by
  induction n with
  | zero => simp [countsSet]
  | succ n ih =>
    have hset := isSet_steps_none hlast counter event (n + 1)
    rw [countsSet, List.range_succ, List.countP_append, ← countsSet, ih, List.countP_singleton]
    simp only [hset]
    cases counter.isSet event with
    | true => simp
    | false =>
      simp only [Bool.false_eq_true, false_or, if_false]
      split <;> omega

end Flags

section Restart

variable {counter : Counter width firstFlag} {comparator : Comparator}

theorem count_next_of_lt_limit (h : counter.count < counter.limit comparator) :
    (counter.next (some comparator)).count.toNat = counter.count.toNat + 1 := by
  have hlt := BitVec.lt_def.mp h
  have hlimit := (counter.limit comparator).isLt
  have hone := toNat_one width (by omega)
  rw [next_of_ne_limit (BitVec.ne_of_lt h), count_next_none, BitVec.toNat_add_of_lt (by omega), hone]

theorem toNat_count_steps_some (h : counter.count ≤ counter.limit comparator) (n : Nat) :
    (counter.steps (some comparator) n).count.toNat =
      (counter.count.toNat + n) % ((counter.limit comparator).toNat + 1) := by
  have hle := BitVec.le_def.mp h
  induction n with
  | zero =>
    rw [Nat.add_zero, Nat.mod_eq_of_lt (by omega)]
    rfl
  | succ n ih =>
    have hlimit := limit_steps counter (some comparator) n comparator
    rw [steps, ← Nat.add_assoc, ← Nat.mod_add_mod, ← ih]
    by_cases hmatch : (counter.steps (some comparator) n).count = counter.limit comparator
    · rw [count_next_of_limit (hmatch.trans hlimit.symm), hmatch, Nat.mod_self]
      rfl
    · have hne : (counter.steps (some comparator) n).count.toNat ≠ (counter.limit comparator).toNat :=
        fun heq => hmatch (BitVec.eq_of_toNat_eq heq)
      have hbound : (counter.steps (some comparator) n).count.toNat < (counter.limit comparator).toNat + 1 := by
        rw [ih]
        exact Nat.mod_lt _ (Nat.succ_pos _)
      have hlt : (counter.steps (some comparator) n).count < (counter.steps (some comparator) n).limit comparator := by
        rw [hlimit, BitVec.lt_def]
        omega
      rw [count_next_of_lt_limit hlt, Nat.mod_eq_of_lt (by omega)]

theorem count_steps_le (h : counter.count ≤ counter.limit comparator) (n : Nat) :
    (counter.steps (some comparator) n).count ≤ counter.limit comparator := by
  rw [BitVec.le_def, toNat_count_steps_some h]
  exact Nat.le_of_lt_succ (Nat.mod_lt _ (Nat.succ_pos _))

theorem steps_of_limit_lt (h : counter.limit comparator < counter.count) {n : Nat}
    (hn : n ≤ 2 ^ width - counter.count.toNat) :
    counter.steps (some comparator) n = counter.steps none n := by
  have hlt := BitVec.lt_def.mp h
  induction n with
  | zero => rfl
  | succ n ih =>
    have hsteps := ih (by omega)
    have hcount : (counter.steps none n).count.toNat = counter.count.toNat + n := by
      rw [toNat_count_steps_none, Nat.mod_eq_of_lt (by omega)]
    have hne : (counter.steps none n).count ≠ (counter.steps none n).limit comparator := by
      intro heq
      have hlimit := congrArg BitVec.toNat (heq.trans (limit_steps counter none n comparator))
      omega
    rw [steps, hsteps, next_of_ne_limit hne, ← steps]

theorem toNat_count_steps_rise (h : counter.limit comparator < counter.count) {n : Nat}
    (hn : n ≤ 2 ^ width - 1 - counter.count.toNat) :
    (counter.steps (some comparator) n).count.toNat = counter.count.toNat + n := by
  have hlt := counter.count.isLt
  rw [steps_of_limit_lt h (by omega), toNat_count_steps_none, Nat.mod_eq_of_lt (by omega)]

theorem toNat_count_steps_wrap (h : counter.limit comparator < counter.count) (n : Nat) :
    (counter.steps (some comparator) (2 ^ width - counter.count.toNat + n)).count.toNat =
      n % ((counter.limit comparator).toNat + 1) := by
  have hlt := counter.count.isLt
  have hzero : (counter.steps (some comparator) (2 ^ width - counter.count.toNat)).count = 0 := by
    apply BitVec.eq_of_toNat_eq
    rw [steps_of_limit_lt h (Nat.le_refl _), toNat_count_steps_none, Nat.add_sub_of_le (Nat.le_of_lt hlt),
      Nat.mod_self]
    rfl
  have hlimit := limit_steps counter (some comparator) (2 ^ width - counter.count.toNat) comparator
  have hle : (counter.steps (some comparator) (2 ^ width - counter.count.toNat)).count ≤
      (counter.steps (some comparator) (2 ^ width - counter.count.toNat)).limit comparator := by
    rw [hzero]
    exact Nat.zero_le _
  rw [steps_add, toNat_count_steps_some hle, hlimit, hzero]
  exact congrArg (· % _) (Nat.zero_add n)

theorem isSet_overflow_wrap (hlast : firstFlag ≤ 5) (h : counter.limit comparator < counter.count) (n : Nat) :
    (counter.steps (some comparator) (2 ^ width - counter.count.toNat + n)).isSet .overflow = true := by
  have hlt := counter.count.isLt
  have hwait : counter.wait .overflow < 2 ^ width - counter.count.toNat := by
    rw [wait_overflow]
    omega
  rw [steps_add]
  apply isSet_steps_of_isSet hlast
  rw [steps_of_limit_lt h (Nat.le_refl _)]
  exact (isSet_steps_none hlast counter .overflow _).mpr (Or.inr hwait)

theorem isSet_limit_next (hlast : firstFlag ≤ 5) (counter : Counter width firstFlag) (comparator : Comparator) :
    (counter.next (some comparator)).isSet comparator.event =
      (counter.isSet comparator.event || counter.count == counter.limit comparator) := by
  rw [isSet_next hlast]
  cases comparator <;> rfl

theorem isSet_limit_steps (hlast : firstFlag ≤ 5) (h : counter.count ≤ counter.limit comparator) (n : Nat) :
    (counter.steps (some comparator) n).isSet comparator.event = true ↔
      counter.isSet comparator.event = true ∨ (counter.limit comparator).toNat - counter.count.toNat < n := by
  have hle := BitVec.le_def.mp h
  induction n with
  | zero => simp [steps]
  | succ n ih =>
    have hcount := toNat_count_steps_some h n
    rw [steps, isSet_limit_next hlast, Bool.or_eq_true, or_congr_left ih, beq_iff_eq, limit_steps,
      ← BitVec.toNat_inj, hcount, or_assoc]
    have hreached : (counter.limit comparator).toNat - counter.count.toNat < n ∨
        (counter.count.toNat + n) % ((counter.limit comparator).toNat + 1) = (counter.limit comparator).toNat ↔
          (counter.limit comparator).toNat - counter.count.toNat < n + 1 := by
      by_cases hbefore : counter.count.toNat + n ≤ (counter.limit comparator).toNat
      · rw [Nat.mod_eq_of_lt (by omega)]
        omega
      · omega
    rw [hreached]

theorem isSet_overflow_steps (hlast : firstFlag ≤ 5) (h : counter.count ≤ counter.limit comparator) (n : Nat) :
    (counter.steps (some comparator) n).isSet .overflow = counter.isSet .overflow := by
  induction n with
  | zero => rfl
  | succ n ih =>
    have hoccurs : (counter.steps (some comparator) n).occurs
        ((counter.steps (some comparator) n).clears (some comparator)) .overflow = false := by
      have hle := count_steps_le h n
      rw [← limit_steps counter (some comparator) n comparator] at hle
      generalize counter.steps (some comparator) n = current at hle ⊢
      -- A full count is at its limit here, so the match takes precedence over the overflow.
      change (!(current.count == current.limit comparator) && current.count == BitVec.allOnes width) = false
      by_cases hfull : current.count = BitVec.allOnes width
      · have hlimit : current.limit comparator = BitVec.allOnes width := by
          rw [hfull] at hle
          exact BitVec.allOnes_le_iff.mp hle
        rw [hfull, hlimit, beq_self_eq_true]
        rfl
      · rw [beq_eq_false_iff_ne.mpr hfull, Bool.and_false]
    rw [steps, isSet_next hlast, hoccurs, Bool.or_false, ih]

end Restart

end Counter

end Microcontroller
