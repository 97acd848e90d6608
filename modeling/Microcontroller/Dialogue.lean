import Microcontroller.Interrupt.Signal

/-!
The processor's side of its conversation with a host. A computation either is done or makes one call and
goes on with the answer, so the order of calls is part of the value and every host is an interpretation
of it. Code and data are read by different calls, which a host answers alike.
-/

namespace Microcontroller

open Interrupt (Notice)

inductive Dialogue (α : Type) where
  | done (value : α)
  | fetch (a : Address) (next : Byte → Dialogue α)
  | read (a : Address) (next : Byte → Dialogue α)
  | write (a : Address) (byte : Byte) (next : Dialogue α)
  | notify (notice : Notice) (next : Dialogue α)

class Host (σ : Type) where
  read (host : σ) (a : Address) : Byte × σ
  write (host : σ) (a : Address) (byte : Byte) : σ
  notify (host : σ) (notice : Notice) : σ

namespace Dialogue

def bind {α β : Type} : Dialogue α → (α → Dialogue β) → Dialogue β
  | done value, f => f value
  | fetch a next, f => fetch a fun byte => (next byte).bind f
  | read a next, f => read a fun byte => (next byte).bind f
  | write a byte next, f => write a byte (next.bind f)
  | notify notice next, f => notify notice (next.bind f)

@[simp] theorem done_bind {α β : Type} (value : α) (f : α → Dialogue β) : (done value).bind f = f value :=
  rfl

@[simp] theorem fetch_bind {α β : Type} (a : Address) (next : Byte → Dialogue α) (f : α → Dialogue β) :
    (fetch a next).bind f = fetch a fun byte => (next byte).bind f := rfl

@[simp] theorem read_bind {α β : Type} (a : Address) (next : Byte → Dialogue α) (f : α → Dialogue β) :
    (read a next).bind f = read a fun byte => (next byte).bind f := rfl

@[simp] theorem write_bind {α β : Type} (a : Address) (byte : Byte) (next : Dialogue α)
    (f : α → Dialogue β) : (write a byte next).bind f = write a byte (next.bind f) := rfl

@[simp] theorem notify_bind {α β : Type} (notice : Notice) (next : Dialogue α) (f : α → Dialogue β) :
    (notify notice next).bind f = notify notice (next.bind f) := rfl

@[simp] theorem bind_done {α : Type} (x : Dialogue α) : x.bind done = x := by
  induction x with
  | done => rfl
  | fetch a next ih => exact congrArg (fetch a) (funext ih)
  | read a next ih => exact congrArg (read a) (funext ih)
  | write a byte next ih => exact congrArg (write a byte) ih
  | notify notice next ih => exact congrArg (notify notice) ih

theorem bind_assoc {α β γ : Type} (x : Dialogue α) (f : α → Dialogue β) (g : β → Dialogue γ) :
    (x.bind f).bind g = x.bind fun a => (f a).bind g := by
  induction x with
  | done => rfl
  | fetch a next ih => exact congrArg (fetch a) (funext ih)
  | read a next ih => exact congrArg (read a) (funext ih)
  | write a byte next ih => exact congrArg (write a byte) ih
  | notify notice next ih => exact congrArg (notify notice) ih

def run {σ α : Type} [Host σ] : Dialogue α → σ → α × σ
  | done value, host => (value, host)
  | fetch a next, host =>
    let (byte, host) := Host.read host a
    (next byte).run host
  | read a next, host =>
    let (byte, host) := Host.read host a
    (next byte).run host
  | write a byte next, host => next.run (Host.write host a byte)
  | notify notice next, host => next.run (Host.notify host notice)

@[simp] theorem run_done {σ α : Type} [Host σ] (value : α) (host : σ) :
    (done value).run host = (value, host) := rfl

@[simp] theorem run_fetch {σ α : Type} [Host σ] (a : Address) (next : Byte → Dialogue α) (host : σ) :
    (fetch a next).run host = (next (Host.read host a).1).run (Host.read host a).2 := rfl

@[simp] theorem run_read {σ α : Type} [Host σ] (a : Address) (next : Byte → Dialogue α) (host : σ) :
    (read a next).run host = (next (Host.read host a).1).run (Host.read host a).2 := rfl

@[simp] theorem run_write {σ α : Type} [Host σ] (a : Address) (byte : Byte) (next : Dialogue α)
    (host : σ) : (write a byte next).run host = next.run (Host.write host a byte) := rfl

@[simp] theorem run_notify {σ α : Type} [Host σ] (notice : Notice) (next : Dialogue α) (host : σ) :
    (notify notice next).run host = next.run (Host.notify host notice) := rfl

theorem run_bind {σ α β : Type} [Host σ] (x : Dialogue α) (f : α → Dialogue β) (host : σ) :
    (x.bind f).run host = (f (x.run host).1).run (x.run host).2 := by
  induction x generalizing host with
  | done => rfl
  | fetch a next ih => exact ih _ _
  | read a next ih => exact ih _ _
  | write a byte next ih => exact ih _
  | notify notice next ih => exact ih _

end Dialogue

end Microcontroller
