import Microcontroller.Proofs.Memory.Words

namespace Microcontroller

open Dialogue Interrupt

inductive Direction where
  | load
  | store
  deriving DecidableEq

def Direction.call : Direction → Address → Byte → Call
  | load => .read
  | store => .write

inductive Action where
  | access (direction : Direction) (size : Size) (checked : Bool) (page : Byte) (offset : Word)
  | invalidInstruction
  | softwareTrap (vector : BitVec 4)
  | errorTrap (trap : Trap)
  deriving DecidableEq

namespace Action

def isAccess : Action → Bool
  | access _ _ _ _ _ => true
  | _ => false

def isMisaligned : Action → Bool
  | access _ .word true _ offset => offset.getLsbD 0
  | _ => false

def notices : Action → List Notice
  | access direction size checked page offset =>
    if isMisaligned (access direction size checked page offset) then [.fault .addressError] else []
  | invalidInstruction => [.fault .invalidInstruction]
  | softwareTrap vector => [.softwareTrap vector]
  | errorTrap trap => [.errorTrap trap]

def Touches : Action → List Call → Prop
  | access direction .byte _ page offset, calls => ∃ byte, calls = [direction.call (address page offset) byte]
  | access direction .word _ page offset, calls =>
    ∃ high low, calls = [direction.call (address page (offset &&& 0xFFFE)) high,
      direction.call (address page ((offset &&& 0xFFFE) + 1)) low]
  | _, calls => calls = []

theorem touches_word (direction : Direction) (checked : Bool) (page : Byte) (offset : Word) (high low : Byte) :
    (access direction .word checked page offset).Touches
      [direction.call (evenAddress (address page offset)) high, direction.call (oddAddress (address page offset)) low] := by
  rw [evenAddress_address, oddAddress_address]
  exact ⟨high, low, rfl⟩

def Yields (action : Action) (calls : List Call) : Prop :=
  ∃ touches, action.Touches touches ∧ calls = action.notices.map .notify ++ touches

end Action

/-- The calls are those of the actions one after the other, with code fetched between but not within them. -/
inductive Trace : List Action → List Call → Prop where
  | nil : Trace [] []
  | fetch {actions : List Action} {calls : List Call} (a : Address) (byte : Byte) (rest : Trace actions calls) :
    Trace actions (.fetch a byte :: calls)
  | act {action : Action} {actions : List Action} {calls more : List Call} (first : action.Yields calls)
    (rest : Trace actions more) : Trace (action :: actions) (calls ++ more)

namespace Trace

variable {actions more : List Action} {calls calls' : List Call}

theorem append (h : Trace actions calls) (h' : Trace more calls') : Trace (actions ++ more) (calls ++ calls') := by
  induction h with
  | nil => exact h'
  | fetch a byte rest ih => exact .fetch a byte ih
  | act first rest ih =>
    rw [List.cons_append, List.append_assoc]
    exact .act first ih

theorem single {action : Action} (h : action.Yields calls) : Trace [action] calls :=
  List.append_nil calls ▸ .act h .nil

theorem of_traffic_eq_nil (h : traffic calls = []) : Trace [] calls := by
  induction calls with
  | nil => exact .nil
  | cons call calls ih =>
    cases call with
    | fetch a byte => exact .fetch a byte (ih h)
    | read a byte | write a byte | notify notice => cases h

end Trace

theorem notices_append (calls more : List Call) : notices (calls ++ more) = notices calls ++ notices more :=
  List.filterMap_append

theorem Action.Yields.notices_eq {action : Action} {calls : List Call} (h : action.Yields calls) :
    Microcontroller.notices calls = action.notices := by
  obtain ⟨touches, htouches, rfl⟩ := h
  have hquiet : Microcontroller.notices touches = [] := by
    cases action with
    | access direction size checked page offset =>
      cases size with
      | byte =>
        obtain ⟨byte, rfl⟩ := htouches
        cases direction <;> rfl
      | word =>
        obtain ⟨high, low, rfl⟩ := htouches
        cases direction <;> rfl
    | _ =>
      obtain rfl := htouches
      rfl
  have hnotify (notices : List Notice) : Microcontroller.notices (notices.map .notify) = notices := by
    induction notices with
    | nil => rfl
    | cons notice notices ih => exact congrArg (notice :: ·) ih
  rw [notices_append, hquiet, hnotify, List.append_nil]

theorem Trace.filterMap_eq {β : Type} {f : Call → Option β} {g : Action → List β} {actions : List Action} {calls : List Call}
    (h : Trace actions calls) (hfetch : ∀ a byte, f (.fetch a byte) = none)
    (hact : ∀ {action : Action} {calls : List Call}, action.Yields calls → calls.filterMap f = g action) :
    calls.filterMap f = actions.flatMap g := by
  induction h with
  | nil => rfl
  | fetch a byte rest ih => rw [List.filterMap_cons_none (hfetch a byte), ih]
  | act first rest ih => rw [List.filterMap_append, hact first, ih, List.flatMap_cons]

theorem Trace.notices_eq {actions : List Action} {calls : List Call} (h : Trace actions calls) :
    notices calls = actions.flatMap Action.notices := h.filterMap_eq (fun _ _ => rfl) Action.Yields.notices_eq

namespace Action

def addresses : Action → List Address
  | access _ .byte _ page offset => [address page offset]
  | access _ .word _ page offset => [address page (offset &&& 0xFFFE), address page ((offset &&& 0xFFFE) + 1)]
  | _ => []

def storedAddresses : Action → List Address
  | access .store size checked page offset => (access .store size checked page offset).addresses
  | _ => []

theorem Yields.addresses_eq {action : Action} {calls : List Call} (h : action.Yields calls) :
    dataAddresses calls = action.addresses ∧ writtenAddresses calls = action.storedAddresses := by
  obtain ⟨touches, htouches, rfl⟩ := h
  have hnotify {f : Call → Option Address} (hf : ∀ notice, f (.notify notice) = none) (notices : List Notice) :
      (notices.map .notify).filterMap f = [] := by
    rw [List.filterMap_map, List.filterMap_eq_nil_iff]
    exact fun notice _ => hf notice
  rw [dataAddresses, writtenAddresses, List.filterMap_append, List.filterMap_append, hnotify fun _ => rfl,
    hnotify fun _ => rfl, List.nil_append, List.nil_append]
  cases action with
  | access direction size checked page offset =>
    cases size with
    | byte =>
      obtain ⟨byte, rfl⟩ := htouches
      cases direction <;> exact ⟨rfl, rfl⟩
    | word =>
      obtain ⟨high, low, rfl⟩ := htouches
      cases direction <;> exact ⟨rfl, rfl⟩
  | _ =>
    obtain rfl := htouches
    exact ⟨rfl, rfl⟩

end Action

theorem Trace.dataAddresses_eq {actions : List Action} {calls : List Call} (h : Trace actions calls) :
    dataAddresses calls = actions.flatMap Action.addresses :=
  h.filterMap_eq (fun _ _ => rfl) fun h => h.addresses_eq.1

theorem Trace.writtenAddresses_eq {actions : List Action} {calls : List Call} (h : Trace actions calls) :
    writtenAddresses calls = actions.flatMap Action.storedAddresses :=
  h.filterMap_eq (fun _ _ => rfl) fun h => h.addresses_eq.2

theorem count_addressError (actions : List Action) :
    (actions.flatMap Action.notices).count (.fault .addressError) = actions.countP Action.isMisaligned := by
  have hone (action : Action) :
      action.notices.count (.fault .addressError) = if action.isMisaligned then 1 else 0 := by
    cases action with
    | access direction size checked page offset =>
      rw [Action.notices]
      split <;> rfl
    | _ => rfl
  induction actions with
  | nil => rfl
  | cons action actions ih => rw [List.flatMap_cons, List.count_append, hone, ih, List.countP_cons, Nat.add_comm]

theorem filter_notices (actions : List Action) :
    (actions.flatMap Action.notices).filter (· ≠ .fault .addressError) =
      (actions.filter (!·.isAccess)).flatMap Action.notices := by
  induction actions with
  | nil => rfl
  | cons action actions ih =>
    rw [List.flatMap_cons, List.filter_append, ih]
    cases action with
    | access direction size checked page offset =>
      rw [Action.notices]
      split <;> rfl
    | _ => rfl

structure Replay where
  answers : List Byte

instance : Host Replay where
  read host _ := (host.answers.headD 0, ⟨host.answers.tail⟩)
  write host _ _ := host
  notify host _ := host

def Call.answer? : Call → Option Byte
  | fetch _ byte | read _ byte => some byte
  | _ => none

def answers (calls : List Call) : List Byte := calls.filterMap Call.answer?

namespace Dialogue

variable {α : Type}

def without (muted : Notice → Bool) : Dialogue α → Dialogue α
  | done value => done value
  | fetch a next => fetch a fun byte => (next byte).without muted
  | read a next => read a fun byte => (next byte).without muted
  | write a byte next => write a byte (next.without muted)
  | notify notice next => if muted notice then next.without muted else notify notice (next.without muted)

theorem without_replayed {σ : Type} [Host σ] (muted : Notice → Bool) (x : Dialogue α) (host : σ) :
    let calls := x.transcript host
    let replay := Replay.mk (answers calls)
    ((x.without muted).run replay).1 = (x.run host).1 ∧
      (x.without muted).transcript replay = calls.filter fun call => !call.notice?.any muted := by
  induction x generalizing host with
  | done value => exact ⟨rfl, rfl⟩
  | fetch a next ih =>
    obtain ⟨hend, hcalls⟩ := ih (Host.read host a).1 (Host.read host a).2
    exact ⟨hend, congrArg (_ :: ·) hcalls⟩
  | read a next ih =>
    obtain ⟨hend, hcalls⟩ := ih (Host.read host a).1 (Host.read host a).2
    exact ⟨hend, congrArg (_ :: ·) hcalls⟩
  | write a byte next ih =>
    obtain ⟨hend, hcalls⟩ := ih (Host.write host a byte)
    exact ⟨hend, congrArg (_ :: ·) hcalls⟩
  | notify notice next ih =>
    obtain ⟨hend, hcalls⟩ := ih (Host.notify host notice)
    have hkept : (!(Call.notify notice).notice?.any muted) = !muted notice := rfl
    intro calls replay
    change _ ∧ _ = List.filter _ (.notify notice :: next.transcript (Host.notify host notice))
    rw [without, List.filter_cons, hkept]
    cases muted notice with
    | true => exact ⟨hend, hcalls⟩
    | false => exact ⟨hend, congrArg (_ :: ·) hcalls⟩

end Dialogue

end Microcontroller
