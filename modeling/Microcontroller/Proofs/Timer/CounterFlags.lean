import Microcontroller.Timer.Counter

namespace Microcontroller.Counter

theorem mem_all (event : TimerEvent) : event ∈ TimerEvent.all := by
  cases event <;> decide

theorem rank_le (event : TimerEvent) : event.rank ≤ 2 := by
  cases event <;> decide

theorem rank_injective {event other : TimerEvent} (h : event.rank = other.rank) : event = other := by
  cases event <;> cases other <;> first | rfl | exact absurd h (by decide)

theorem getLsbD_flags (firstFlag : Nat) (events : List TimerEvent) (i : Nat) (hi : i < 8) :
    (flags firstFlag events).getLsbD i = true ↔ ∃ event ∈ events, firstFlag + event.rank = i := by
  induction events with
  | nil => simp [flags]
  | cons event events ih =>
    have hcons : flags firstFlag (event :: events) =
        BitVec.twoPow 8 (firstFlag + event.rank) ||| flags firstFlag events := rfl
    simp only [hcons, BitVec.getLsbD_or, Bool.or_eq_true, ih, BitVec.getLsbD_twoPow, Bool.and_eq_true,
      decide_eq_true_eq, List.mem_cons, exists_eq_or_imp]
    constructor
    · rintro (⟨-, h⟩ | h)
      · exact Or.inl h
      · exact Or.inr h
    · rintro (h | h)
      · exact Or.inl ⟨h ▸ hi, h⟩
      · exact Or.inr h

theorem mem_acknowledged {width firstFlag : Nat} (counter : Counter width firstFlag) (data : Byte)
    (event : TimerEvent) :
    event ∈ counter.acknowledged data ↔
      data.getLsbD (firstFlag + event.rank) = false ∧ counter.isSeen event = true := by
  simp [acknowledged, mem_all]

theorem getLsbD_nibbles (status data : Byte) (i : Nat) (hi : i < 8) :
    (status &&& 0xF0 ||| data &&& 0x0F).getLsbD i = if 4 ≤ i then status.getLsbD i else data.getLsbD i := by
  have hmasks : ∀ i < 8, (0xF0 : Byte).getLsbD i = decide (4 ≤ i) ∧ (0x0F : Byte).getLsbD i = !decide (4 ≤ i) := by
    decide
  obtain ⟨hhigh, hlow⟩ := hmasks i hi
  rw [BitVec.getLsbD_or, BitVec.getLsbD_and, BitVec.getLsbD_and, hhigh, hlow]
  split
  next h => simp [h]
  next h => simp [h]

section Flags

variable {width firstFlag : Nat} (hfirst : 4 ≤ firstFlag) (hlast : firstFlag ≤ 5)

include hlast

theorem flag_lt (event : TimerEvent) : firstFlag + event.rank < 8 := by
  have hrank := rank_le event
  omega

theorem getLsbD_flags_event (events : List TimerEvent) (event : TimerEvent) :
    (flags firstFlag events).getLsbD (firstFlag + event.rank) = decide (event ∈ events) := by
  rw [Bool.eq_iff_iff, getLsbD_flags firstFlag events _ (flag_lt hlast event), decide_eq_true_eq]
  constructor
  · rintro ⟨other, hother, h⟩
    have hrank : other.rank = event.rank := by omega
    exact rank_injective hrank ▸ hother
  · intro h
    exact ⟨event, h, rfl⟩

theorem isSet_step (counter : Counter width firstFlag) (restart : Bool) (event : TimerEvent) :
    (counter.step restart).1.isSet event = (counter.isSet event || counter.occurs restart event) := by
  change BitVec.getLsbD (_ ||| _) _ = _
  rw [BitVec.getLsbD_or, getLsbD_flags_event hlast]
  simp [isSet, mem_all]

theorem isSeen_readStatus (counter : Counter width firstFlag) (event : TimerEvent) :
    counter.readStatus.2.isSeen event = (counter.isSeen event || counter.isSet event) := by
  change BitVec.getLsbD (_ ||| _ &&& _) _ = _
  rw [BitVec.getLsbD_or, BitVec.getLsbD_and, getLsbD_flags_event hlast]
  simp [isSet, isSeen, mem_all]

theorem getLsbD_kept (events : List TimerEvent) (event : TimerEvent) :
    (~~~flags firstFlag events).getLsbD (firstFlag + event.rank) = !decide (event ∈ events) := by
  rw [BitVec.getLsbD_not, getLsbD_flags_event hlast, decide_eq_true (flag_lt hlast event), Bool.true_and]

theorem isSeen_writeStatus (counter : Counter width firstFlag) (data : Byte) (event : TimerEvent) :
    (counter.writeStatus data).1.isSeen event =
      (counter.isSeen event && data.getLsbD (firstFlag + event.rank)) := by
  change BitVec.getLsbD (_ &&& _) _ = _
  rw [BitVec.getLsbD_and, getLsbD_kept hlast, ← isSeen]
  cases hseen : counter.isSeen event with
  | false => rfl
  | true =>
    cases hdata : data.getLsbD (firstFlag + event.rank) with
    | false => simp [mem_acknowledged, hseen, hdata]
    | true => simp [mem_acknowledged, hdata]

include hfirst

theorem isSet_writeStatus (counter : Counter width firstFlag) (data : Byte) (event : TimerEvent) :
    (counter.writeStatus data).1.isSet event =
      (counter.isSet event && (data.getLsbD (firstFlag + event.rank) || !counter.isSeen event)) := by
  change BitVec.getLsbD ((_ &&& (0xF0 : Byte) ||| _ &&& (0x0F : Byte)) &&& _) _ = _
  have hflag : 4 ≤ firstFlag + event.rank := by omega
  rw [BitVec.getLsbD_and, getLsbD_kept hlast, getLsbD_nibbles _ _ _ (flag_lt hlast event), if_pos hflag, ← isSet]
  congr 1
  cases hdata : data.getLsbD (firstFlag + event.rank) with
  | false => cases hseen : counter.isSeen event <;> simp [mem_acknowledged, hseen, hdata]
  | true => simp [mem_acknowledged, hdata]

end Flags

theorem getLsbD_status_step {width firstFlag : Nat} (counter : Counter width firstFlag) (restart : Bool)
    {i : Nat} (hi : i < 8) (hflag : ∀ event : TimerEvent, firstFlag + event.rank ≠ i) :
    (counter.step restart).1.status.getLsbD i = counter.status.getLsbD i := by
  change BitVec.getLsbD (_ ||| _) _ = _
  have hflags (events : List TimerEvent) : (flags firstFlag events).getLsbD i = false := by
    rw [Bool.eq_false_iff, ne_eq, getLsbD_flags firstFlag events i hi]
    rintro ⟨event, -, h⟩
    exact hflag event h
  rw [BitVec.getLsbD_or, hflags, Bool.or_false]

theorem getLsbD_status_writeStatus {width firstFlag : Nat} (counter : Counter width firstFlag) (data : Byte)
    {i : Nat} (hi : i < 8) (hhigh : 4 ≤ i) (hclear : counter.status.getLsbD i = false) :
    (counter.writeStatus data).1.status.getLsbD i = false := by
  change BitVec.getLsbD ((_ &&& (0xF0 : Byte) ||| _ &&& (0x0F : Byte)) &&& _) _ = _
  rw [BitVec.getLsbD_and, getLsbD_nibbles _ _ _ hi, if_pos hhigh, hclear, Bool.false_and]

theorem getLsbD_seen_readStatus {width firstFlag : Nat} (counter : Counter width firstFlag) {i : Nat}
    (h : counter.readStatus.2.seen.getLsbD i = true) :
    counter.seen.getLsbD i = true ∨ ∃ event : TimerEvent, i = firstFlag + event.rank := by
  have hi : i < 8 := BitVec.lt_of_getLsbD h
  change BitVec.getLsbD (_ ||| _ &&& _) _ = _ at h
  rw [BitVec.getLsbD_or, BitVec.getLsbD_and, Bool.or_eq_true, Bool.and_eq_true, getLsbD_flags _ _ _ hi] at h
  rcases h with hseen | ⟨-, event, -, hflag⟩
  · exact Or.inl hseen
  · exact Or.inr ⟨event, hflag.symm⟩

theorem getLsbD_seen_writeStatus {width firstFlag : Nat} (counter : Counter width firstFlag) (data : Byte)
    {i : Nat} (h : (counter.writeStatus data).1.seen.getLsbD i = true) : counter.seen.getLsbD i = true := by
  change BitVec.getLsbD (_ &&& _) _ = _ at h
  rw [BitVec.getLsbD_and, Bool.and_eq_true] at h
  exact h.1

end Microcontroller.Counter
