import Microcontroller.Proofs.Timer.CounterFlags
import Microcontroller.Proofs.Timer.Locations
import Microcontroller.Proofs.Timer.Moves

namespace Microcontroller.Timer

open Interrupt (Request Source)

namespace Block

def port : Block → Port
  | channel _ => .channels
  | byteTimer => .byteTimer

def statusAddress : Block → Address
  | channel number => BitVec.ofNat 32 (0x11 + 0x10 * number.val)
  | byteTimer => 0x51

def undefinedBit : Block → Nat
  | channel _ => 7
  | byteTimer => 4

theorem four_le_firstFlag (block : Block) : 4 ≤ block.firstFlag := by
  cases block <;> simp [firstFlag]

theorem firstFlag_le_five (block : Block) : block.firstFlag ≤ 5 := by
  cases block <;> simp [firstFlag]

theorem flag_ne_undefinedBit (block : Block) (event : TimerEvent) :
    block.firstFlag + event.rank ≠ block.undefinedBit := by
  cases block <;> cases event <;> simp [firstFlag, undefinedBit, TimerEvent.rank]

theorem source_injective {block other : Block} {event another : TimerEvent}
    (h : block.source event = other.source another) : block = other ∧ event = another := by
  cases block with
  | channel number =>
    cases other with
    | channel number' =>
      simp only [source, Source.channel.injEq, Fin.ext_iff, Fin.val_castLE] at h
      exact ⟨congrArg channel (Fin.ext h.1), h.2⟩
    | byteTimer => cases h
  | byteTimer =>
    cases other with
    | channel number => cases h
    | byteTimer => exact ⟨rfl, Source.byteTimer.inj h⟩

end Block

inductive Touch where
  | step
  | statusRead
  | statusWrite (data : Byte)
  | aside
  deriving DecidableEq

def Block.touch (block : Block) : Move → Touch
  | .step other => if other = block then .step else .aside
  | .read port a => if port = block.port ∧ a = block.statusAddress then .statusRead else .aside
  | .write port a data => if port = block.port ∧ a = block.statusAddress then .statusWrite data else .aside
  | .elapse => .aside

theorem touch_step (block : Block) : block.touch (.step block) = .step := if_pos rfl

theorem touch_eq_step {block : Block} {move : Move} (h : block.touch move = .step) : move = .step block := by
  cases move <;> grind [Block.touch]

theorem touch_eq_statusRead {block : Block} {move : Move} (h : block.touch move = .statusRead) :
    move = .read block.port block.statusAddress := by
  cases move <;> grind [Block.touch]

theorem touch_eq_statusWrite {block : Block} {move : Move} {data : Byte}
    (h : block.touch move = .statusWrite data) : move = .write block.port block.statusAddress data := by
  cases move <;> grind [Block.touch]

theorem locate?_eq_status {a : Address} {number : Fin 3} :
    locate? a = some (number, .status) ↔ a = (Block.channel number).statusAddress := by
  have haddress : (Block.channel number).statusAddress = registerAddress number .status := by
    revert number
    decide
  rw [haddress]
  exact locate?_eq_some

theorem ofAddress?_eq_status {a : Address} : ByteTimer.Location.ofAddress? a = some .status ↔ a = 0x51 := by
  rw [← BitVec.toNat_inj]
  unfold ByteTimer.Location.ofAddress?
  split <;> simp_all

theorem counter_setChannel_self (timer : Timer) (number : Fin 3) (channel : Channel) :
    (timer.setChannel number channel).counter (.channel number) = channel.counter := by
  simp [counter, Timer.channel, setChannel]

theorem counter_setChannel_of_ne (timer : Timer) {number other : Fin 3} (h : number ≠ other)
    (channel : Channel) :
    (timer.setChannel number channel).counter (.channel other) = timer.counter (.channel other) := by
  have hval : number.val ≠ other.val := fun hval => h (Fin.ext hval)
  simp [counter, Timer.channel, setChannel, Vector.getElem_set_ne, hval]

theorem apply_step (timer : Timer) (block : Block) :
    (timer.apply (.step block)).1.counter block =
        ((timer.counter block).step (timer.restarts block)).1 ∧
      (timer.apply (.step block)).2 =
        block.requests ((timer.counter block).step (timer.restarts block)).2 true := by
  cases block with
  | channel number =>
    refine ⟨?_, rfl⟩
    change (timer.setChannel number _).counter _ = _
    exact counter_setChannel_self timer number _
  | byteTimer => exact ⟨rfl, rfl⟩

theorem apply_statusRead (timer : Timer) (block : Block) :
    (timer.apply (.read block.port block.statusAddress)).1.counter block =
        (timer.counter block).readStatus.2 ∧
      (timer.apply (.read block.port block.statusAddress)).2 = [] := by
  refine ⟨?_, rfl⟩
  cases block with
  | channel number =>
    change (timer.readChannel _).2.counter _ = _
    rw [readChannel, locate?_eq_status.mpr rfl]
    change (timer.setChannel number _).counter _ = _
    exact counter_setChannel_self timer number _
  | byteTimer => rfl

theorem apply_statusWrite (timer : Timer) (block : Block) (data : Byte) :
    (timer.apply (.write block.port block.statusAddress data)).1.counter block =
        ((timer.counter block).writeStatus data).1 ∧
      (timer.apply (.write block.port block.statusAddress data)).2 =
        block.requests ((timer.counter block).writeStatus data).2 false := by
  cases block with
  | channel number =>
    change (timer.writeChannel _ data).1.counter _ = _ ∧ (timer.writeChannel _ data).2 = _
    rw [writeChannel, locate?_eq_status.mpr rfl]
    refine ⟨?_, rfl⟩
    change (timer.setChannel number _).counter _ = _
    exact counter_setChannel_self timer number _
  | byteTimer => exact ⟨rfl, rfl⟩

structure Spares (timer : Timer) (block : Block) (result : Timer × List Request) : Prop where
  status : (result.1.counter block).status = (timer.counter block).status
  seen : (result.1.counter block).seen = (timer.counter block).seen
  requests : ∀ request ∈ result.2, ∀ event, request.source ≠ block.source event

theorem spares_refl (timer : Timer) (block : Block) : Spares timer block (timer, []) :=
  ⟨rfl, rfl, by simp⟩

theorem source_ne_of_mem_requests {block other : Block} (h : other ≠ block) (events : List TimerEvent)
    (asserted : Bool) :
    ∀ request ∈ other.requests events asserted, ∀ event, request.source ≠ block.source event := by
  intro request hrequest event hsource
  obtain ⟨another, -, rfl⟩ := List.mem_map.mp hrequest
  exact h (Block.source_injective hsource).1

theorem spares_setChannel (timer : Timer) (block : Block) (number : Fin 3) (channel : Channel)
    (hstatus : channel.counter.status = (timer.counter (.channel number)).status)
    (hseen : channel.counter.seen = (timer.counter (.channel number)).seen) :
    Spares timer block (timer.setChannel number channel, []) := by
  cases block with
  | channel other =>
    by_cases h : number = other
    · subst h
      refine ⟨?_, ?_, by simp⟩
      · rw [counter_setChannel_self, hstatus]
      · rw [counter_setChannel_self, hseen]
    · refine ⟨?_, ?_, by simp⟩
      · rw [counter_setChannel_of_ne timer h]
      · rw [counter_setChannel_of_ne timer h]
  | byteTimer => exact ⟨rfl, rfl, by simp⟩

theorem spares_other_channel (timer : Timer) {block : Block} {number : Fin 3} (h : .channel number ≠ block)
    (channel : Channel) (events : List TimerEvent) (asserted : Bool) :
    Spares timer block (timer.setChannel number channel, (Block.channel number).requests events asserted) := by
  have hrequests := source_ne_of_mem_requests h events asserted
  cases block with
  | channel other =>
    have hne : number ≠ other := fun hnumber => h (congrArg Block.channel hnumber)
    refine ⟨?_, ?_, hrequests⟩
    · rw [counter_setChannel_of_ne timer hne]
    · rw [counter_setChannel_of_ne timer hne]
  | byteTimer => exact ⟨rfl, rfl, hrequests⟩

theorem spares_byteTimer (timer : Timer) (block : Block) (byteTimer : ByteTimer)
    (hstatus : byteTimer.status = timer.byteTimer.status) (hseen : byteTimer.seen = timer.byteTimer.seen) :
    Spares timer block ({ timer with byteTimer }, []) := by
  cases block with
  | channel number => exact ⟨rfl, rfl, by simp⟩
  | byteTimer => exact ⟨hstatus, hseen, by simp⟩

theorem spares_other_byteTimer (timer : Timer) {block : Block} (h : .byteTimer ≠ block)
    (byteTimer : ByteTimer) (events : List TimerEvent) (asserted : Bool) :
    Spares timer block ({ timer with byteTimer }, Block.byteTimer.requests events asserted) := by
  have hrequests := source_ne_of_mem_requests h events asserted
  cases block with
  | channel number => exact ⟨rfl, rfl, hrequests⟩
  | byteTimer => exact absurd rfl h

theorem spares_writeChannel (timer : Timer) (block : Block) (a : Address) (data : Byte)
    (h : .channels = block.port → a ≠ block.statusAddress) :
    Spares timer block (timer.writeChannel a data) := by
  unfold writeChannel
  split
  next number _ => exact spares_setChannel timer block number _ rfl rfl
  next number hlocate =>
    have hne : .channel number ≠ block := by
      intro hblock
      subst hblock
      exact h rfl (locate?_eq_status.mp hlocate)
    exact spares_other_channel timer hne _ _ false
  next => cases block <;> exact ⟨rfl, rfl, by simp⟩
  next number register _ => cases register <;> exact spares_setChannel timer block number _ rfl rfl
  next => exact spares_refl timer block

theorem spares_readChannel (timer : Timer) (block : Block) (a : Address)
    (h : .channels = block.port → a ≠ block.statusAddress) :
    Spares timer block ((timer.readChannel a).2, []) := by
  unfold readChannel
  split
  next => exact spares_refl timer block
  next number hlocate =>
    have hne : .channel number ≠ block := by
      intro hblock
      subst hblock
      exact h rfl (locate?_eq_status.mp hlocate)
    exact spares_other_channel timer hne _ [] false
  next => cases block <;> exact ⟨rfl, rfl, by simp⟩
  next => exact spares_refl timer block
  next => exact spares_refl timer block

theorem spares_writeByteTimer (timer : Timer) (block : Block) (a : Address) (data : Byte)
    (h : .byteTimer = block.port → a ≠ block.statusAddress) :
    Spares timer block (timer.writeByteTimer a data) := by
  unfold writeByteTimer ByteTimer.write
  cases hlocation : ByteTimer.Location.ofAddress? a with
  | none => exact spares_byteTimer timer block _ rfl rfl
  | some location =>
    cases location with
    | status =>
      have hne : .byteTimer ≠ block := by
        intro hblock
        subst hblock
        exact h rfl (ofAddress?_eq_status.mp hlocation)
      exact spares_other_byteTimer timer hne _ _ false
    | _ => exact spares_byteTimer timer block _ rfl rfl

theorem spares_readByteTimer (timer : Timer) (block : Block) (a : Address)
    (h : .byteTimer = block.port → a ≠ block.statusAddress) :
    Spares timer block ((timer.readByteTimer a).2, []) := by
  unfold readByteTimer ByteTimer.read
  cases hlocation : ByteTimer.Location.ofAddress? a with
  | none => exact spares_byteTimer timer block _ rfl rfl
  | some location =>
    cases location with
    | status =>
      have hne : .byteTimer ≠ block := by
        intro hblock
        subst hblock
        exact h rfl (ofAddress?_eq_status.mp hlocation)
      exact spares_other_byteTimer timer hne _ [] false
    | _ => exact spares_byteTimer timer block _ rfl rfl

theorem apply_aside (timer : Timer) {block : Block} {move : Move} (h : block.touch move = .aside) :
    Spares timer block (timer.apply move) := by
  cases move with
  | write port a data =>
    have hother : port = block.port → a ≠ block.statusAddress := by
      intro hport haddress
      simp [Block.touch, hport, haddress] at h
    cases port with
    | channels => exact spares_writeChannel timer block a data hother
    | byteTimer => exact spares_writeByteTimer timer block a data hother
  | read port a =>
    have hother : port = block.port → a ≠ block.statusAddress := by
      intro hport haddress
      simp [Block.touch, hport, haddress] at h
    cases port with
    | channels => exact spares_readChannel timer block a hother
    | byteTimer => exact spares_readByteTimer timer block a hother
  | step other =>
    have hne : other ≠ block := by
      intro hblock
      simp [Block.touch, hblock] at h
    cases other with
    | channel number => exact spares_other_channel timer hne _ _ true
    | byteTimer => exact spares_other_byteTimer timer hne _ _ true
  | elapse => cases block <;> exact ⟨rfl, rfl, by simp [apply]⟩

end Microcontroller.Timer
