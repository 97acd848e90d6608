import Mathlib.Data.List.Induction
import Microcontroller.Proofs.Timer.BlockView
import Microcontroller.Proofs.Timer.LineRequests

/-!
The blocks of the timer do not interfere. Whatever happens to the other blocks, a block ends with the same registers,
answers the same reads and makes the same requests, as long as no channel takes the latch from it between the two bytes
of a wide register.
-/

namespace Microcontroller.Timer

open Interrupt (Request)

namespace Command

/-- The block whose high byte is accessed, and which has the latch from then on. -/
def opens? : Command → Option Block
  | .write .channels a _ | .read .channels a =>
    match locate? a with
    | some (number, .high _) => some (.channel number)
    | _ => none
  | _ => none

def closes? : Command → Option Block
  | .write .channels a _ | .read .channels a =>
    match locate? a with
    | some (number, .low _) => some (.channel number)
    | _ => none
  | _ => none

theorem exists_high_of_opens? {command : Command} {block : Block} (h : command.opens? = some block) :
    ∃ number register, block = .channel number ∧
      ((∃ data, command = .write .channels (registerAddress number (.high register)) data) ∨
        command = .read .channels (registerAddress number (.high register))) := by
  cases command with
  | clock target => cases h
  | write port a data | read port a =>
    cases port with
    | byteTimer => cases h
    | channels =>
      simp only [opens?] at h
      split at h
      next number register hlocate =>
        obtain rfl := Option.some.inj h
        obtain rfl := locate?_eq_some.mp hlocate
        exact ⟨number, register, rfl, by simp⟩
      next => cases h

theorem sparesLatch_of_opens? {command : Command} (h : command.opens? = none) : command.SparesLatch := by
  cases command with
  | clock target => trivial
  | write port a data | read port a =>
    cases port with
    | byteTimer => trivial
    | channels =>
      rintro number register rfl
      simp [opens?, locate?_registerAddress] at h

end Command

/-- Every low byte of the block is accessed after one of its high bytes, with no high byte of another in between. -/
def Paired (block : Block) (commands : List Command) : Prop :=
  ∀ before command after, commands = before ++ command :: after → command.closes? = some block →
    ∃ earlier opening between, before = earlier ++ opening :: between ∧ opening.opens? = some block ∧
      ∀ other ∈ between, ∀ owner, other.opens? = some owner → owner = block

def Block.holds (block : Block) (held : Bool) (command : Command) : Bool :=
  match command.opens? with
  | none => held
  | some owner => owner == block

theorem foldl_holds (block : Block) (commands : List Command) :
    commands.foldl block.holds false = true ↔
      ∃ earlier opening between, commands = earlier ++ opening :: between ∧ opening.opens? = some block ∧
        ∀ other ∈ between, ∀ owner, other.opens? = some owner → owner = block := by
  induction commands using List.reverseRecOn with
  | nil => simp
  | append_singleton commands command ih =>
    rw [List.foldl_append, List.foldl_cons, List.foldl_nil, Block.holds]
    constructor
    · intro hheld
      cases hopens : command.opens? with
      | none =>
        rw [hopens] at hheld
        obtain ⟨earlier, opening, between, rfl, hopening, hbetween⟩ := ih.mp hheld
        refine ⟨earlier, opening, between ++ [command], by simp, hopening, ?_⟩
        intro other hother owner howner
        rcases List.mem_append.mp hother with hmem | hmem
        · exact hbetween other hmem owner howner
        · rw [List.mem_singleton.mp hmem, hopens] at howner
          cases howner
      | some owner =>
        rw [hopens] at hheld
        exact ⟨commands, command, [], rfl, hopens.trans (congrArg some (beq_iff_eq.mp hheld)), nofun⟩
    · rintro ⟨earlier, opening, between, hsplit, hopening, hbetween⟩
      rcases List.eq_nil_or_concat between with rfl | ⟨between, last, rfl⟩
      · obtain ⟨-, rfl⟩ := List.append_singleton_inj.mp hsplit
        rw [hopening]
        exact beq_self_eq_true block
      · rw [List.concat_eq_append, ← List.cons_append, ← List.append_assoc] at hsplit
        obtain ⟨hcommands, rfl⟩ := List.append_singleton_inj.mp hsplit
        have hlast := hbetween command (by simp)
        have hheld := ih.mpr ⟨earlier, opening, between, hcommands, hopening, fun other hother =>
          hbetween other (by simp [hother])⟩
        cases hopens : command.opens? with
        | none => exact hheld
        | some owner => exact beq_iff_eq.mpr (hlast owner hopens)

def Held (block : Block) : (held : Bool) → List Command → Prop
  | _, [] => True
  | held, command :: commands =>
    (command.closes? = some block → held = true) ∧ Held block (block.holds held command) commands

instance decidableHeld (block : Block) : (held : Bool) → (commands : List Command) → Decidable (Held block held commands)
  | _, [] => .isTrue trivial
  | held, command :: commands =>
    have := decidableHeld block (block.holds held command) commands
    inferInstanceAs (Decidable (_ ∧ _))

theorem held_iff (block : Block) (held : Bool) (commands : List Command) :
    Held block held commands ↔ ∀ before command after, commands = before ++ command :: after →
      command.closes? = some block → before.foldl block.holds held = true := by
  induction commands generalizing held with
  | nil => simp [Held]
  | cons command commands ih =>
    rw [Held, ih]
    constructor
    · rintro ⟨hhead, htail⟩ before another after hsplit
      cases before with
      | nil =>
        obtain ⟨rfl, -⟩ := List.cons.inj hsplit
        exact hhead
      | cons first before =>
        obtain ⟨rfl, hrest⟩ := List.cons.inj hsplit
        exact htail before another after hrest
    · intro h
      refine ⟨h [] command commands rfl, ?_⟩
      intro before another after hsplit
      exact h (command :: before) another after (congrArg (command :: ·) hsplit)

theorem paired_iff (block : Block) (commands : List Command) : Paired block commands ↔ Held block false commands := by
  simp only [Paired, held_iff, foldl_holds]

theorem held_byteTimer (held : Bool) (commands : List Command) : Held .byteTimer held commands := by
  rw [held_iff]
  intro before command after hsplit hcloses
  have hchannel : command.closes? ≠ some .byteTimer := by
    unfold Command.closes?
    split
    · split <;> simp
    · split <;> simp
    · simp
  exact absurd hcloses hchannel

def answer? (timer : Timer) : Command → Option Byte
  | .read port a => some (timer.readPort port a).1
  | _ => none

def answers (timer : Timer) (block : Block) : List Command → List Byte
  | [] => []
  | command :: commands =>
    (if block.concerns command then (timer.answer? command).toList else []) ++
      (timer.perform command).1.answers block commands

section Foreign

variable (timer : Timer) {block : Block} {a : Address}

theorem foreign_writeChannel (data : Byte) (h : ∀ place, locate? a = some place → .channel place.1 ≠ block) :
    (timer.writeChannel a data).1.view block = timer.view block ∧ block.own (timer.writeChannel a data).2 = [] := by
  unfold writeChannel
  split
  next number hlocate => exact ⟨view_setChannel_of_ne timer (h _ hlocate) _, rfl⟩
  next number hlocate =>
    have hne := h _ hlocate
    refine ⟨view_setChannel_of_ne timer hne _, ?_⟩
    exact (Block.own_requests block (.channel number) _ false).trans (if_neg hne)
  next => cases block <;> exact ⟨rfl, rfl⟩
  next number register hlocate => exact ⟨view_setChannel_of_ne timer (h _ hlocate) _, rfl⟩
  next => exact ⟨rfl, rfl⟩

theorem foreign_readChannel (h : ∀ place, locate? a = some place → .channel place.1 ≠ block) :
    (timer.readChannel a).2.view block = timer.view block := by
  unfold readChannel
  split
  next => rfl
  next number hlocate => exact view_setChannel_of_ne timer (h _ hlocate) _
  next => cases block <;> rfl
  next => rfl
  next => rfl

theorem foreign_writeByteTimer (data : Byte) (h : block = .byteTimer → ByteTimer.Location.ofAddress? a = none) :
    (timer.writeByteTimer a data).1.view block = timer.view block ∧ block.own (timer.writeByteTimer a data).2 = [] := by
  cases block with
  | channel number =>
    obtain ⟨events, hmade⟩ := timer.requests_writeByteTimer a data
    rw [hmade, Block.own_requests, if_neg nofun]
    exact ⟨rfl, rfl⟩
  | byteTimer =>
    rw [writeByteTimer, ByteTimer.write, h rfl]
    exact ⟨rfl, rfl⟩

theorem foreign_readByteTimer (h : block = .byteTimer → ByteTimer.Location.ofAddress? a = none) :
    (timer.readByteTimer a).2.view block = timer.view block := by
  cases block with
  | channel number => rfl
  | byteTimer =>
    rw [readByteTimer, ByteTimer.read, h rfl]

theorem channel_ne_of_not_owned (h : block.owns .channels a = false) {place : Fin 3 × Location}
    (hlocate : locate? a = some place) : .channel place.1 ≠ block := by
  rintro rfl
  simp [Block.owns, hlocate] at h

theorem ofAddress?_of_not_owned (h : block.owns .byteTimer a = false) (hblock : block = .byteTimer) :
    ByteTimer.Location.ofAddress? a = none := by
  subst hblock
  simpa [Block.owns] using h

theorem perform_foreign {command : Command} (h : block.concerns command = false) :
    (timer.perform command).1.view block = timer.view block ∧ block.own (timer.perform command).2 = [] := by
  cases command with
  | clock target => cases h
  | write port a data =>
    cases port with
    | channels => exact timer.foreign_writeChannel data fun place => channel_ne_of_not_owned h
    | byteTimer => exact timer.foreign_writeByteTimer data (ofAddress?_of_not_owned h)
  | read port a =>
    cases port with
    | channels => exact ⟨timer.foreign_readChannel fun place => channel_ne_of_not_owned h, rfl⟩
    | byteTimer => exact ⟨timer.foreign_readByteTimer (ofAddress?_of_not_owned h), rfl⟩

end Foreign

section Own

variable {timer other : Timer}

theorem own_writeChannel {number : Fin 3} {location : Location} {a : Address} (data : Byte)
    (hlocate : locate? a = some (number, location)) (h : timer.view (.channel number) = other.view (.channel number))
    (hlatch : ∀ register, location = .low register → timer.latch = other.latch) :
    (timer.writeChannel a data).1.view (.channel number) = (other.writeChannel a data).1.view (.channel number) ∧
      (timer.writeChannel a data).2 = (other.writeChannel a data).2 := by
  have hchannel : timer.channel number = other.channel number := (view_eq.mp h).1
  rw [writeChannel, writeChannel, hlocate]
  cases location with
  | control => exact ⟨view_setChannel_congr h (by rw [hchannel]), rfl⟩
  | status =>
    refine ⟨view_setChannel_congr h (by rw [hchannel]), ?_⟩
    exact congrArg (fun channel : Channel => Channel.requests number (channel.counter.writeStatus data).2 false) hchannel
  | high register => exact ⟨h, rfl⟩
  | low register => exact ⟨view_setChannel_congr h (by rw [hchannel, hlatch register rfl]), rfl⟩

theorem own_readChannel {number : Fin 3} {location : Location} {a : Address}
    (hlocate : locate? a = some (number, location)) (h : timer.view (.channel number) = other.view (.channel number))
    (hlatch : ∀ register, location = .low register → timer.latch = other.latch) :
    (timer.readChannel a).1 = (other.readChannel a).1 ∧
      (timer.readChannel a).2.view (.channel number) = (other.readChannel a).2.view (.channel number) := by
  have hchannel : timer.channel number = other.channel number := (view_eq.mp h).1
  rw [readChannel, readChannel, hlocate]
  cases location with
  | control => exact ⟨congrArg (·.counter.control) hchannel, h⟩
  | status => exact ⟨congrArg (·.counter.status) hchannel, view_setChannel_congr h (by rw [hchannel])⟩
  | high register => exact ⟨congrArg (fun channel : Channel => highByte (channel.get register)) hchannel, h⟩
  | low register => exact ⟨hlatch register rfl, h⟩

theorem own_byteTimer (a : Address) (data : Byte) (h : timer.view .byteTimer = other.view .byteTimer) :
    (timer.writeByteTimer a data).1.view .byteTimer = (other.writeByteTimer a data).1.view .byteTimer ∧
      (timer.writeByteTimer a data).2 = (other.writeByteTimer a data).2 ∧
      (timer.readByteTimer a).1 = (other.readByteTimer a).1 ∧
      (timer.readByteTimer a).2.view .byteTimer = (other.readByteTimer a).2.view .byteTimer := by
  obtain ⟨hstate, hcycles, hrevision⟩ := view_eq.mp h
  have hbyteTimer : timer.byteTimer = other.byteTimer := hstate
  refine ⟨view_eq.mpr ⟨?_, hcycles, hrevision⟩, ?_, ?_, view_eq.mpr ⟨?_, hcycles, hrevision⟩⟩
  · exact congrArg (fun byteTimer => (byteTimer.write a data).1) hbyteTimer
  · exact congrArg (fun byteTimer => (byteTimer.write a data).2) hbyteTimer
  · exact congrArg (fun byteTimer => (byteTimer.read a).1) hbyteTimer
  · exact congrArg (fun byteTimer => (byteTimer.read a).2) hbyteTimer

theorem exists_location_of_owned {number : Fin 3} {a : Address} (h : (Block.channel number).owns .channels a = true) :
    ∃ location, locate? a = some (number, location) := by
  cases hlocate : locate? a with
  | none => simp [Block.owns, hlocate] at h
  | some place =>
    have hnumber : place.1 = number := by simpa [Block.owns, hlocate] using h
    exact ⟨place.2, congrArg some (Prod.ext hnumber rfl)⟩

theorem perform_own {block : Block} {command : Command} (hown : block.concerns command = true)
    (h : timer.view block = other.view block) (hlatch : command.closes? = some block → timer.latch = other.latch) :
    (timer.perform command).1.view block = (other.perform command).1.view block ∧
      block.own (timer.perform command).2 = block.own (other.perform command).2 ∧
      timer.answer? command = other.answer? command := by
  cases command with
  | clock target =>
    obtain ⟨hview, hmade⟩ := clock_congr target h
    exact ⟨hview, hmade, rfl⟩
  | write port a data =>
    cases block with
    | channel number =>
      cases port with
      | channels =>
        obtain ⟨location, hlocate⟩ := exists_location_of_owned hown
        simp only [Command.closes?, hlocate] at hlatch
        obtain ⟨hview, hmade⟩ := own_writeChannel data hlocate h (by rintro register rfl; exact hlatch rfl)
        exact ⟨hview, congrArg _ hmade, rfl⟩
      | byteTimer => cases hown
    | byteTimer =>
      cases port with
      | channels => cases hown
      | byteTimer =>
        obtain ⟨hview, hmade, -, -⟩ := own_byteTimer a data h
        exact ⟨hview, congrArg _ hmade, rfl⟩
  | read port a =>
    cases block with
    | channel number =>
      cases port with
      | channels =>
        obtain ⟨location, hlocate⟩ := exists_location_of_owned hown
        simp only [Command.closes?, hlocate] at hlatch
        obtain ⟨hanswer, hview⟩ := own_readChannel hlocate h (by rintro register rfl; exact hlatch rfl)
        exact ⟨hview, rfl, congrArg some hanswer⟩
      | byteTimer => cases hown
    | byteTimer =>
      cases port with
      | channels => cases hown
      | byteTimer =>
        obtain ⟨-, -, hanswer, hview⟩ := own_byteTimer a 0 h
        exact ⟨hview, rfl, congrArg some hanswer⟩

theorem latch_opens {block : Block} {command : Command} (hopens : command.opens? = some block)
    (h : timer.view block = other.view block) :
    (timer.perform command).1.latch = (other.perform command).1.latch := by
  obtain ⟨number, register, rfl, ⟨data, rfl⟩ | rfl⟩ := Command.exists_high_of_opens? hopens
  · change (timer.writeChannel _ data).1.latch = (other.writeChannel _ data).1.latch
    rw [writeChannel_high, writeChannel_high]
  · have hchannel : timer.channel number = other.channel number := (view_eq.mp h).1
    change (timer.readChannel _).2.latch = (other.readChannel _).2.latch
    rw [readChannel_high, readChannel_high, hchannel]

end Own

theorem concerns_of_opens? {block : Block} {command : Command} (h : command.opens? = some block) :
    block.concerns command = true := by
  obtain ⟨number, register, rfl, ⟨data, rfl⟩ | rfl⟩ := Command.exists_high_of_opens? h
  all_goals simp [Block.concerns, Block.owns, locate?_registerAddress]

section Latch

variable {timer other : Timer} {block : Block} {command : Command} {held : Bool}
  (hlatch : held = true → timer.latch = other.latch)

include hlatch

theorem latch_own (h : timer.view block = other.view block) (hholds : block.holds held command = true) :
    (timer.perform command).1.latch = (other.perform command).1.latch := by
  unfold Block.holds at hholds
  cases hopens : command.opens? with
  | none =>
    rw [hopens] at hholds
    have hspares := Command.sparesLatch_of_opens? hopens
    rw [latch_perform timer hspares, latch_perform other hspares]
    exact hlatch hholds
  | some owner =>
    rw [hopens] at hholds
    exact latch_opens (hopens.trans (congrArg some (beq_iff_eq.mp hholds))) h

theorem latch_foreign (hconcerned : block.concerns command = false) (hholds : block.holds held command = true) :
    (timer.perform command).1.latch = other.latch := by
  unfold Block.holds at hholds
  cases hopens : command.opens? with
  | none =>
    rw [hopens] at hholds
    rw [latch_perform timer (Command.sparesLatch_of_opens? hopens)]
    exact hlatch hholds
  | some owner =>
    rw [hopens] at hholds
    obtain rfl := beq_iff_eq.mp hholds
    exact Bool.noConfusion (hconcerned.symm.trans (concerns_of_opens? hopens))

end Latch

theorem own_run_cons (block : Block) (timer : Timer) (command : Command) (commands : List Command) :
    block.own (timer.run (command :: commands)).2 =
      block.own (timer.perform command).2 ++ block.own ((timer.perform command).1.run commands).2 :=
  block.own_append _ _

theorem run_filter_concerns {block : Block} {commands : List Command} {held : Bool} {timer other : Timer}
    (hheld : Held block held commands) (h : timer.view block = other.view block)
    (hlatch : held = true → timer.latch = other.latch) :
    let own := commands.filter block.concerns
    (timer.run commands).1.view block = (other.run own).1.view block ∧
      timer.answers block commands = other.answers block own ∧
      block.own (timer.run commands).2 = block.own (other.run own).2 := by
  induction commands generalizing held timer other with
  | nil => exact ⟨h, rfl, rfl⟩
  | cons command commands ih =>
    obtain ⟨hcloses, hrest⟩ := hheld
    cases hconcerned : block.concerns command with
    | true =>
      obtain ⟨hview, hmade, hanswer⟩ := perform_own hconcerned h fun hcommand => hlatch (hcloses hcommand)
      obtain ⟨hfinal, hanswers, hmore⟩ := ih hrest hview (latch_own hlatch h)
      rw [List.filter_cons_of_pos hconcerned]
      refine ⟨hfinal, ?_, ?_⟩
      · rw [answers, answers, hanswer, hanswers]
      · rw [own_run_cons, own_run_cons, hmade, hmore]
    | false =>
      obtain ⟨hview, hnone⟩ := timer.perform_foreign hconcerned
      obtain ⟨hfinal, hanswers, hmore⟩ := ih hrest (hview.trans h) (latch_foreign hlatch hconcerned)
      rw [List.filter_cons_of_neg (Bool.eq_false_iff.mp hconcerned)]
      refine ⟨hfinal, ?_, ?_⟩
      · rw [answers, hconcerned, ← hanswers]
        rfl
      · rw [own_run_cons, hnone, List.nil_append, hmore]

theorem blocks_do_not_interfere (block : Block) (timer timer' : Timer) (commands commands' : List Command)
    (hstate : timer.state block = timer'.state block) (hcycles : timer.cycles = timer'.cycles)
    (hrevision : timer.revision = timer'.revision)
    (hown : commands.filter block.concerns = commands'.filter block.concerns)
    (hpaired : block ≠ .byteTimer → Paired block commands ∧ Paired block commands') :
    (timer.run commands).1.state block = (timer'.run commands').1.state block ∧
      timer.answers block commands = timer'.answers block commands' ∧
      block.own (timer.run commands).2 = block.own (timer'.run commands').2 := by
  have hview : timer.view block = timer'.view block := view_eq.mpr ⟨hstate, hcycles, hrevision⟩
  have hheld : Held block false commands ∧ Held block false commands' := by
    cases block with
    | channel number => exact ⟨(paired_iff _ _).mp (hpaired nofun).1, (paired_iff _ _).mp (hpaired nofun).2⟩
    | byteTimer => exact ⟨held_byteTimer false commands, held_byteTimer false commands'⟩
  obtain ⟨hfinal, hanswers, hmade⟩ := run_filter_concerns hheld.1 hview nofun
  obtain ⟨hfinal', hanswers', hmade'⟩ := run_filter_concerns hheld.2 (rfl : timer'.view block = timer'.view block) nofun
  rw [hown] at hfinal hanswers hmade
  exact ⟨(view_eq.mp (hfinal.trans hfinal'.symm)).1, hanswers.trans hanswers'.symm, hmade.trans hmade'.symm⟩

theorem blocks_do_not_interfere_pairs :
    let quiet := new .generic
    let busy : Timer := { (quiet.setChannel 0 ⟨⟨0xE0, 0x70, 0x70, 9, 9, 9⟩, 0xBEEF⟩) with latch := 0xA5 }
    let setup : List Command := [.write .channels 0x20 0x20, .write .channels 0x24 0x00]
    let finish : List Command := [.write .channels 0x25 0x03, .clock 40, .read .channels 0x21, .read .channels 0x22]
    let commands := setup ++ finish ++ [.read .channels 0x23]
    let commands' := .write .channels 0x34 0x77 :: setup ++ .write .byteTimer 0x50 0xE0 :: finish ++
      [.read .channels 0x19, .read .channels 0x23]
    quiet.answers (.channel 1) commands = busy.answers (.channel 1) commands' ∧
      busy.answers (.channel 1) commands' = [0x60, 0x00, 0x05] ∧
      (Block.channel 1).own (busy.run commands').2 = List.replicate 2 ⟨.channel 1 .compareA, true⟩ ∧
      (quiet.run commands).1 ≠ (busy.run commands').1 := by
  intro quiet busy setup finish commands commands'
  have hpaired : Paired (.channel 1) commands ∧ Paired (.channel 1) commands' :=
    ⟨(paired_iff _ _).mpr (by decide +kernel), (paired_iff _ _).mpr (by decide +kernel)⟩
  obtain ⟨-, hanswers, hmade⟩ := blocks_do_not_interfere (.channel 1) quiet busy commands commands' (by decide +kernel) rfl
    rfl (by decide +kernel) fun _ => hpaired
  have hvalues : quiet.answers (.channel 1) commands = [0x60, 0x00, 0x05] := by decide +kernel
  refine ⟨hanswers, hanswers.symm.trans hvalues, hmade.symm.trans ?_, ?_⟩
  · decide +kernel
  · decide +kernel

end Microcontroller.Timer
