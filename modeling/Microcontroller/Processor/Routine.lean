import Microcontroller.Dialogue
import Microcontroller.Processor.Basic

/-!
Computations on the processor that talk to the host. A `Routine` always completes; an `Attempt` may trap,
and then keeps the processor state that it had reached.
-/

namespace Microcontroller

structure Routine (α : Type) where
  run : Processor → Dialogue (α × Processor)

structure Attempt (α : Type) where
  run : Processor → Dialogue (Except Trap α × Processor)

namespace Routine

instance : Monad Routine where
  pure value := ⟨fun p => .done (value, p)⟩
  bind x f := ⟨fun p => (x.run p).bind fun (value, p) => (f value).run p⟩

instance : MonadStateOf Processor Routine where
  get := ⟨fun p => .done (p, p)⟩
  set p := ⟨fun _ => .done ((), p)⟩
  modifyGet f := ⟨fun p => .done (f p)⟩

def fetch : Routine Byte :=
  ⟨fun p => .fetch (address p.codePage p.pc) fun byte => .done (byte, { p with pc := p.pc + 1 })⟩

def readByte (a : Address) : Routine Byte := ⟨fun p => .read a fun byte => .done (byte, p)⟩

def writeByte (a : Address) (byte : Byte) : Routine Unit := ⟨fun p => .write a byte (.done ((), p))⟩

def notify (notice : Interrupt.Notice) : Routine Unit := ⟨fun p => .notify notice (.done ((), p))⟩

@[simp] theorem run_pure {α : Type} (value : α) (p : Processor) :
    (pure value : Routine α).run p = .done (value, p) := rfl

@[simp] theorem run_bind {α β : Type} (x : Routine α) (f : α → Routine β) (p : Processor) :
    (x >>= f).run p = (x.run p).bind fun r => (f r.1).run r.2 := rfl

@[simp] theorem run_get (p : Processor) : (get : Routine Processor).run p = .done (p, p) := rfl

@[simp] theorem run_modify (f : Processor → Processor) (p : Processor) :
    (modify f : Routine Unit).run p = .done ((), f p) := rfl

@[simp] theorem run_fetch (p : Processor) :
    fetch.run p =
      .fetch (address p.codePage p.pc) fun byte => .done (byte, { p with pc := p.pc + 1 }) := rfl

@[simp] theorem run_readByte (a : Address) (p : Processor) :
    (readByte a).run p = .read a fun byte => .done (byte, p) := rfl

@[simp] theorem run_writeByte (a : Address) (byte : Byte) (p : Processor) :
    (writeByte a byte).run p = .write a byte (.done ((), p)) := rfl

@[simp] theorem run_notify (notice : Interrupt.Notice) (p : Processor) :
    (notify notice).run p = .notify notice (.done ((), p)) := rfl

@[ext] theorem ext {α : Type} {x y : Routine α} (h : ∀ p, x.run p = y.run p) : x = y := by
  cases x
  cases y
  exact congrArg mk (funext h)

instance : LawfulMonad Routine :=
  LawfulMonad.mk' Routine (fun _ => ext fun _ => Dialogue.bind_done _) (fun _ _ => rfl)
    fun _ _ _ => ext fun _ => Dialogue.bind_assoc _ _ _

end Routine

namespace Attempt

instance : Monad Attempt where
  pure value := ⟨fun p => .done (.ok value, p)⟩
  bind x f :=
    ⟨fun p => (x.run p).bind fun
      | (.ok value, p) => (f value).run p
      | (.error trap, p) => .done (.error trap, p)⟩

instance : MonadLift Routine Attempt where
  monadLift x := ⟨fun p => (x.run p).bind fun (value, p) => .done (.ok value, p)⟩

instance : MonadExceptOf Trap Attempt where
  throw trap := ⟨fun p => .done (.error trap, p)⟩
  tryCatch x handle :=
    ⟨fun p => (x.run p).bind fun
      | (.ok value, p) => .done (.ok value, p)
      | (.error trap, p) => (handle trap).run p⟩

def outcome {α : Type} (x : Attempt α) : Routine (Except Trap α) := ⟨x.run⟩

@[simp] theorem run_pure {α : Type} (value : α) (p : Processor) :
    (pure value : Attempt α).run p = .done (.ok value, p) := rfl

@[simp] theorem run_bind {α β : Type} (x : Attempt α) (f : α → Attempt β) (p : Processor) :
    (x >>= f).run p = (x.run p).bind fun r =>
      match r.1 with
      | .ok value => (f value).run r.2
      | .error trap => .done (.error trap, r.2) := by
  refine congrArg _ (funext fun r => ?_)
  obtain ⟨result, p⟩ := r
  cases result <;> rfl

@[simp] theorem run_lift {α : Type} (x : Routine α) (p : Processor) :
    (liftM x : Attempt α).run p = (x.run p).bind fun r => .done (.ok r.1, r.2) := rfl

@[simp] theorem run_get (p : Processor) : (get : Attempt Processor).run p = .done (.ok p, p) := rfl

@[simp] theorem run_modify (f : Processor → Processor) (p : Processor) :
    (modify f : Attempt Unit).run p = .done (.ok (), f p) := rfl

@[simp] theorem run_throw {α : Type} (trap : Trap) (p : Processor) :
    (throw trap : Attempt α).run p = .done (.error trap, p) := rfl

@[simp] theorem run_tryCatch {α : Type} (x : Attempt α) (handle : Trap → Attempt α) (p : Processor) :
    (tryCatch x handle).run p = (x.run p).bind fun r =>
      match r.1 with
      | .ok value => .done (.ok value, r.2)
      | .error trap => (handle trap).run r.2 := by
  refine congrArg _ (funext fun r => ?_)
  obtain ⟨result, p⟩ := r
  cases result <;> rfl

@[simp] theorem run_outcome {α : Type} (x : Attempt α) : x.outcome.run = x.run := rfl

end Attempt

end Microcontroller
