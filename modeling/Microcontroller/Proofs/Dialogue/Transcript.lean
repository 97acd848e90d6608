import Microcontroller.Processor.Routine

/-!
The calls of a dialogue with their answers. A dialogue ensures a condition if it holds of the calls and the
value however the calls are answered, so on every host.
-/

namespace Microcontroller

inductive Call where
  | fetch (a : Address) (byte : Byte)
  | read (a : Address) (byte : Byte)
  | write (a : Address) (byte : Byte)
  | notify (notice : Interrupt.Notice)
  deriving DecidableEq

namespace Call

@[simp] def code? : Call → Option Byte
  | fetch _ byte => some byte
  | _ => none

@[simp] def data? : Call → Option Byte
  | read _ byte => some byte
  | _ => none

def codeAddress? : Call → Option Address
  | fetch a _ => some a
  | _ => none

def trap? : Call → Option Trap
  | notify (.errorTrap trap) => some trap
  | _ => none

def notice? : Call → Option Interrupt.Notice
  | notify notice => some notice
  | _ => none

def writtenAddress? : Call → Option Address
  | write a _ => some a
  | _ => none

end Call

def codeBytes (calls : List Call) : List Byte := calls.filterMap Call.code?

def dataBytes (calls : List Call) : List Byte := calls.filterMap Call.data?

def codeAddresses (calls : List Call) : List Address := calls.filterMap Call.codeAddress?

def announcedTraps (calls : List Call) : List Trap := calls.filterMap Call.trap?

def notices (calls : List Call) : List Interrupt.Notice := calls.filterMap Call.notice?

def writtenAddresses (calls : List Call) : List Address := calls.filterMap Call.writtenAddress?

@[simp] theorem codeBytes_nil : codeBytes [] = [] := rfl

@[simp] theorem dataBytes_nil : dataBytes [] = [] := rfl

@[simp] theorem announcedTraps_nil : announcedTraps [] = [] := rfl

@[simp] theorem codeBytes_append (calls more : List Call) :
    codeBytes (calls ++ more) = codeBytes calls ++ codeBytes more := List.filterMap_append

@[simp] theorem dataBytes_append (calls more : List Call) :
    dataBytes (calls ++ more) = dataBytes calls ++ dataBytes more := List.filterMap_append

@[simp] theorem codeAddresses_append (calls more : List Call) :
    codeAddresses (calls ++ more) = codeAddresses calls ++ codeAddresses more := List.filterMap_append

@[simp] theorem announcedTraps_append (calls more : List Call) :
    announcedTraps (calls ++ more) = announcedTraps calls ++ announcedTraps more := List.filterMap_append

@[simp] theorem codeBytes_cons (call : Call) (calls : List Call) :
    codeBytes (call :: calls) = call.code?.toList ++ codeBytes calls := by
  cases call <;> rfl

@[simp] theorem dataBytes_cons (call : Call) (calls : List Call) :
    dataBytes (call :: calls) = call.data?.toList ++ dataBytes calls := by
  cases call <;> rfl

namespace Dialogue

variable {α β σ : Type}

def transcript [Host σ] : Dialogue α → σ → List Call
  | done _, _ => []
  | fetch a next, host =>
    .fetch a (Host.read host a).1 :: (next (Host.read host a).1).transcript (Host.read host a).2
  | read a next, host =>
    .read a (Host.read host a).1 :: (next (Host.read host a).1).transcript (Host.read host a).2
  | write a byte next, host => .write a byte :: next.transcript (Host.write host a byte)
  | notify notice next, host => .notify notice :: next.transcript (Host.notify host notice)

theorem transcript_bind [Host σ] (x : Dialogue α) (f : α → Dialogue β) (host : σ) :
    (x.bind f).transcript host =
      x.transcript host ++ (f (x.run host).1).transcript (x.run host).2 := by
  induction x generalizing host with
  | done value => rfl
  | fetch a next ih => exact congrArg (_ :: ·) (ih _ _)
  | read a next ih => exact congrArg (_ :: ·) (ih _ _)
  | write a byte next ih => exact congrArg (_ :: ·) (ih _)
  | notify notice next ih => exact congrArg (_ :: ·) (ih _)

/-- The condition holds of the calls and the value whatever the answers are. -/
def Ensures : Dialogue α → (List Call → α → Prop) → Prop
  | done value, post => post [] value
  | fetch a next, post => ∀ byte, (next byte).Ensures fun calls value => post (.fetch a byte :: calls) value
  | read a next, post => ∀ byte, (next byte).Ensures fun calls value => post (.read a byte :: calls) value
  | write a byte next, post => next.Ensures fun calls value => post (.write a byte :: calls) value
  | notify notice next, post => next.Ensures fun calls value => post (.notify notice :: calls) value

@[simp] theorem ensures_done (value : α) (post : List Call → α → Prop) :
    (done value).Ensures post ↔ post [] value := Iff.rfl

@[simp] theorem ensures_fetch (a : Address) (next : Byte → Dialogue α) (post : List Call → α → Prop) :
    (fetch a next).Ensures post ↔
      ∀ byte, (next byte).Ensures fun calls value => post (.fetch a byte :: calls) value := Iff.rfl

@[simp] theorem ensures_read (a : Address) (next : Byte → Dialogue α) (post : List Call → α → Prop) :
    (read a next).Ensures post ↔
      ∀ byte, (next byte).Ensures fun calls value => post (.read a byte :: calls) value := Iff.rfl

@[simp] theorem ensures_write (a : Address) (byte : Byte) (next : Dialogue α)
    (post : List Call → α → Prop) :
    (write a byte next).Ensures post ↔
      next.Ensures fun calls value => post (.write a byte :: calls) value := Iff.rfl

@[simp] theorem ensures_notify (notice : Interrupt.Notice) (next : Dialogue α)
    (post : List Call → α → Prop) :
    (notify notice next).Ensures post ↔
      next.Ensures fun calls value => post (.notify notice :: calls) value := Iff.rfl

@[simp] theorem ensures_bind (x : Dialogue α) (f : α → Dialogue β) (post : List Call → β → Prop) :
    (x.bind f).Ensures post ↔
      x.Ensures fun calls value => (f value).Ensures fun more result => post (calls ++ more) result := by
  induction x generalizing post with
  | done value => rfl
  | fetch a next ih => exact forall_congr' fun byte => ih byte _
  | read a next ih => exact forall_congr' fun byte => ih byte _
  | write a byte next ih => exact ih _
  | notify notice next ih => exact ih _

theorem Ensures.mono {x : Dialogue α} {post weaker : List Call → α → Prop} (h : x.Ensures post)
    (imp : ∀ calls value, post calls value → weaker calls value) : x.Ensures weaker := by
  induction x generalizing post weaker with
  | done value => exact imp [] value h
  | fetch a next ih => exact fun byte => ih byte (h byte) fun calls value => imp _ value
  | read a next ih => exact fun byte => ih byte (h byte) fun calls value => imp _ value
  | write a byte next ih => exact ih h fun calls value => imp _ value
  | notify notice next ih => exact ih h fun calls value => imp _ value

theorem ensures_of_forall (x : Dialogue α) {post : List Call → α → Prop}
    (h : ∀ calls value, post calls value) : x.Ensures post := by
  induction x generalizing post with
  | done value => exact h [] value
  | fetch a next ih => exact fun byte => ih byte fun calls value => h _ value
  | read a next ih => exact fun byte => ih byte fun calls value => h _ value
  | write a byte next ih => exact ih fun calls value => h _ value
  | notify notice next ih => exact ih fun calls value => h _ value

theorem Ensures.and {x : Dialogue α} {post other : List Call → α → Prop} (h : x.Ensures post)
    (h' : x.Ensures other) : x.Ensures fun calls value => post calls value ∧ other calls value := by
  induction x generalizing post other with
  | done value => exact ⟨h, h'⟩
  | fetch a next ih => exact fun byte => ih byte (h byte) (h' byte)
  | read a next ih => exact fun byte => ih byte (h byte) (h' byte)
  | write a byte next ih => exact ih h h'
  | notify notice next ih => exact ih h h'

theorem Ensures.forall {ι : Sort _} {x : Dialogue α} {post : ι → List Call → α → Prop} (h : ∀ i, x.Ensures (post i)) :
    x.Ensures fun calls value => ∀ i, post i calls value := by
  induction x generalizing post with
  | done value => exact h
  | fetch a next ih => exact fun byte => ih byte fun i => h i byte
  | read a next ih => exact fun byte => ih byte fun i => h i byte
  | write a byte next ih => exact ih h
  | notify notice next ih => exact ih h

theorem Ensures.transcript [Host σ] {x : Dialogue α} {post : List Call → α → Prop}
    (h : x.Ensures post) (host : σ) : post (x.transcript host) (x.run host).1 := by
  induction x generalizing post host with
  | done value => exact h
  | fetch a next ih => exact ih _ (h _) _
  | read a next ih => exact ih _ (h _) _
  | write a byte next ih => exact ih h _
  | notify notice next ih => exact ih h _

end Dialogue

namespace Attempt

variable {α β : Type}

theorem ensures_lift (x : Routine α) (p : Processor) (post : List Call → Except Trap α × Processor → Prop) :
    ((liftM x : Attempt α).run p).Ensures post ↔ (x.run p).Ensures fun calls r => post calls (.ok r.1, r.2) := by
  simp only [run_lift, Dialogue.ensures_bind, Dialogue.ensures_done, List.append_nil]

theorem ensures_lift_bind (x : Routine α) (f : α → Attempt β) (p : Processor)
    (post : List Call → Except Trap β × Processor → Prop) :
    (((liftM x : Attempt α) >>= f).run p).Ensures post ↔ (x.run p).Ensures fun calls r =>
      ((f r.1).run r.2).Ensures fun more r' => post (calls ++ more) r' := by
  simp only [run_bind, run_lift, Dialogue.bind_assoc, Dialogue.done_bind, Dialogue.ensures_bind]

end Attempt

end Microcontroller
