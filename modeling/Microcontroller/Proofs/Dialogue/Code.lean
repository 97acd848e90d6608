import Microcontroller.Memory
import Microcontroller.Proofs.Dialogue.Transcript

namespace Microcontroller

theorem add_one_add_ofNat (pc : Word) (n : Nat) :
    pc + 1 + BitVec.ofNat 16 n = pc + BitVec.ofNat 16 (n + 1) := by
  rw [BitVec.add_assoc, BitVec.add_comm 1, BitVec.ofNat_add]
  rfl

def advance (pc : Word) : (n : Nat) → Word
  | 0 => pc
  | n + 1 => advance (pc + 1) n

theorem advance_eq (pc : Word) (n : Nat) : advance pc n = pc + BitVec.ofNat 16 n := by
  induction n generalizing pc with
  | zero => simp [advance]
  | succ n ih => rw [advance, ih, add_one_add_ofNat]

def codePath (page : Byte) (pc : Word) : (n : Nat) → List Address
  | 0 => []
  | n + 1 => address page pc :: codePath page (pc + 1) n

theorem codePath_add (page : Byte) (pc : Word) (m n : Nat) :
    codePath page pc (m + n) = codePath page pc m ++ codePath page (pc + BitVec.ofNat 16 m) n := by
  induction m generalizing pc with
  | zero => simp [codePath]
  | succ m ih =>
    rw [Nat.succ_add, codePath, codePath, ih, List.cons_append, add_one_add_ofNat]

theorem length_codePath (page : Byte) (pc : Word) (n : Nat) : (codePath page pc n).length = n := by
  induction n generalizing pc with
  | zero => rfl
  | succ n ih => exact congrArg (· + 1) (ih (pc + 1))

def Memory.Holds (m : Memory) (page : Byte) (pc : Word) (code : List Byte) : Prop :=
  (codePath page pc code.length).map m.read = code

instance (m : Memory) (page : Byte) (pc : Word) (code : List Byte) : Decidable (m.Holds page pc code) :=
  inferInstanceAs (Decidable (_ = _))

theorem Memory.holds_cons (m : Memory) (page : Byte) (pc : Word) (byte : Byte) (code : List Byte) :
    m.Holds page pc (byte :: code) ↔ m.read (address page pc) = byte ∧ m.Holds page (pc + 1) code := by
  simp only [Holds, List.length_cons, codePath, List.map_cons, List.cons.injEq]

theorem Memory.holds_append (m : Memory) (page : Byte) (pc : Word) (code more : List Byte) :
    m.Holds page pc (code ++ more) ↔
      m.Holds page pc code ∧ m.Holds page (pc + BitVec.ofNat 16 code.length) more := by
  have hlength : ((codePath page pc code.length).map m.read).length = code.length := by
    rw [List.length_map, length_codePath]
  rw [Holds, List.length_append, codePath_add, List.map_append]
  constructor
  · intro h
    exact List.append_inj h hlength
  · rintro ⟨h, h'⟩
    exact (congrArg (· ++ _) h).trans (congrArg (code ++ ·) h')

theorem Memory.Holds.congr {m m' : Memory} {page : Byte} {pc : Word} {code : List Byte} (h : m.Holds page pc code)
    (hread : ∀ a ∈ codePath page pc code.length, m'.read a = m.read a) : m'.Holds page pc code :=
  (List.map_congr_left hread).trans h

namespace Dialogue

variable {α β : Type}

/-- The dialogue goes on as another one after fetching the code. -/
def Takes (page : Byte) : (pc : Word) → (code : List Byte) → Dialogue α → Dialogue α → Prop
  | _, [], x, y => x = y
  | pc, byte :: code, x, y =>
    ∃ next, x = fetch (address page pc) next ∧ Takes page (pc + 1) code (next byte) y

theorem takes_nil (page : Byte) (pc : Word) (x y : Dialogue α) : Takes page pc [] x y ↔ x = y := Iff.rfl

theorem takes_fetch (page : Byte) (pc : Word) (byte : Byte) (code : List Byte) (next : Byte → Dialogue α)
    (y : Dialogue α) :
    Takes page pc (byte :: code) (fetch (address page pc) next) y ↔ Takes page (pc + 1) code (next byte) y := by
  constructor
  · rintro ⟨_, ⟨⟩, h⟩
    exact h
  · intro h
    exact ⟨next, rfl, h⟩

theorem Takes.bind {page : Byte} {pc : Word} {code : List Byte} {x y : Dialogue α}
    (h : Takes page pc code x y) (f : α → Dialogue β) : Takes page pc code (x.bind f) (y.bind f) := by
  induction code generalizing pc x with
  | nil => rw [takes_nil, h]
  | cons byte code ih =>
    obtain ⟨next, rfl, h⟩ := h
    rw [fetch_bind, takes_fetch]
    exact ih h

theorem Takes.bind_eq {page : Byte} {pc : Word} {code : List Byte} {x y : Dialogue α} {f : α → Dialogue β}
    {z : Dialogue β} (h : Takes page pc code x y) (hf : y.bind f = z) : Takes page pc code (x.bind f) z :=
  hf ▸ h.bind f

theorem Takes.append {page : Byte} {pc : Word} {code more : List Byte} {x y z : Dialogue α}
    (h : Takes page pc code x y) (h' : Takes page (pc + BitVec.ofNat 16 code.length) more y z) :
    Takes page pc (code ++ more) x z := by
  induction code generalizing pc x with
  | nil =>
    rw [takes_nil] at h
    subst h
    simpa using h'
  | cons byte code ih =>
    obtain ⟨next, rfl, h⟩ := h
    rw [List.cons_append, takes_fetch]
    rw [List.length_cons, ← add_one_add_ofNat] at h'
    exact ih h h'

theorem Takes.run_eq {page : Byte} {pc : Word} {code : List Byte} {x y : Dialogue α} {m : Memory}
    (h : Takes page pc code x y) (hm : m.Holds page pc code) : x.run m = y.run m := by
  induction code generalizing pc x with
  | nil => rw [h]
  | cons byte code ih =>
    obtain ⟨next, rfl, h⟩ := h
    obtain ⟨hbyte, hcode⟩ := (m.holds_cons page pc byte code).mp hm
    subst hbyte
    have hnext := ih h hcode
    exact hnext

def traffic (calls : List Call) : List Call := calls.filter fun call => call.codeAddress?.isNone

theorem traffic_append (calls more : List Call) : traffic (calls ++ more) = traffic calls ++ traffic more :=
  List.filter_append _ _

theorem filterMap_traffic (f : Call → Option β) (h : ∀ a byte, f (.fetch a byte) = none) (calls : List Call) :
    (traffic calls).filterMap f = calls.filterMap f := by
  induction calls with
  | nil => rfl
  | cons call calls ih =>
    cases call with
    | fetch a byte => exact ih.trans (List.filterMap_cons_none (h a byte)).symm
    | read a byte | write a byte | notify notice =>
      rw [List.filterMap_cons, ← ih]
      exact List.filterMap_cons

theorem dataBytes_traffic (calls : List Call) : dataBytes (traffic calls) = dataBytes calls :=
  filterMap_traffic Call.data? (fun _ _ => rfl) calls

theorem Takes.traffic_eq {page : Byte} {pc : Word} {code : List Byte} {x y : Dialogue α} {m : Memory}
    (h : Takes page pc code x y) (hm : m.Holds page pc code) :
    traffic (x.transcript m) = traffic (y.transcript m) := by
  induction code generalizing pc x with
  | nil => rw [h]
  | cons byte code ih =>
    obtain ⟨next, rfl, h⟩ := h
    obtain ⟨hbyte, hcode⟩ := (m.holds_cons page pc byte code).mp hm
    subst hbyte
    have hnext := ih h hcode
    exact hnext

theorem Takes.codeBytes_eq {page : Byte} {pc : Word} {code : List Byte} {x y : Dialogue α} {m : Memory}
    (h : Takes page pc code x y) (hm : m.Holds page pc code) :
    codeBytes (x.transcript m) = code ++ codeBytes (y.transcript m) := by
  induction code generalizing pc x with
  | nil => rw [h, List.nil_append]
  | cons byte code ih =>
    obtain ⟨next, rfl, h⟩ := h
    obtain ⟨hbyte, hcode⟩ := (m.holds_cons page pc byte code).mp hm
    subst hbyte
    exact congrArg (_ :: ·) (ih h hcode)

theorem Takes.exists_host {σ : Type} [Host σ] {page : Byte} {pc : Word} {code : List Byte} {x y : Dialogue α}
    (h : Takes page pc code x y) (host : σ) (hcode : code <+: codeBytes (x.transcript host)) :
    ∃ host', x.run host = y.run host' ∧
      codeBytes (x.transcript host) = code ++ codeBytes (y.transcript host') ∧
        traffic (x.transcript host) = traffic (y.transcript host') := by
  induction code generalizing pc x host with
  | nil =>
    rw [takes_nil] at h
    subst h
    exact ⟨host, rfl, rfl, rfl⟩
  | cons byte code ih =>
    obtain ⟨next, rfl, h⟩ := h
    obtain ⟨hbyte, hmore⟩ := List.cons_prefix_cons.mp hcode
    subst hbyte
    obtain ⟨host', hrun, hbytes, htraffic⟩ := ih h _ hmore
    exact ⟨host', hrun, congrArg (_ :: ·) hbytes, htraffic⟩

end Dialogue

end Microcontroller
