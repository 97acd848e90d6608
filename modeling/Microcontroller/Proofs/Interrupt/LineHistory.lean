import Mathlib.Data.List.Induction
import Microcontroller.Proofs.Interrupt.LineView

namespace Microcontroller.Interrupt

def Signal.request? : Signal → Option Request
  | .request made => some made
  | .notice _ => none

def requests (signals : List Signal) : List Request := signals.filterMap Signal.request?

def levels (line : Fin 32) (signals : List Signal) : List Bool :=
  ((requests signals).filter fun request => request.source.line = line).map Request.asserted

theorem length_levels_le (line : Fin 32) (signals : List Signal) :
    (levels line signals).length ≤ (requests signals).length := by
  rw [levels, List.length_map]
  exact List.length_filter_le _ _

def RisesAt (levels : List Bool) (position : Nat) : Prop :=
  levels[position]? = some true ∧ (position = 0 ∨ levels[position - 1]? = some false)

instance (levels : List Bool) (position : Nat) : Decidable (RisesAt levels position) :=
  inferInstanceAs (Decidable (_ ∧ _))

def rises (levels : List Bool) : Nat := (List.range levels.length).countP fun position => RisesAt levels position

theorem rises_le_length (levels : List Bool) : rises levels ≤ levels.length :=
  Nat.le_trans List.countP_le_length (Nat.le_of_eq List.length_range)

theorem risesAt_append {levels more : List Bool} {position : Nat} (h : position < levels.length) :
    RisesAt (levels ++ more) position ↔ RisesAt levels position := by
  have hbefore : position - 1 < levels.length := Nat.lt_of_le_of_lt (Nat.sub_le _ _) h
  rw [RisesAt, RisesAt, List.getElem?_append_left h, List.getElem?_append_left hbefore]

theorem risesAt_last (levels : List Bool) (level : Bool) :
    RisesAt (levels ++ [level]) levels.length ↔ level = true ∧ levels.getLast?.getD false = false := by
  rw [RisesAt, List.getElem?_concat_length, Option.some_inj, and_congr_right_iff]
  intro _
  cases levels with
  | nil => simp
  | cons first levels =>
    have hlast : levels.length < (first :: levels).length := Nat.lt_succ_self _
    rw [List.getLast?_eq_getElem?, List.length_cons, Nat.add_sub_cancel, List.getElem?_append_left hlast,
      List.getElem?_eq_getElem hlast]
    simp

theorem rises_concat (levels : List Bool) (level : Bool) :
    rises (levels ++ [level]) = rises levels + if level && !levels.getLast?.getD false then 1 else 0 := by
  have hbefore : (List.range levels.length).countP (fun position => RisesAt (levels ++ [level]) position) =
      rises levels := by
    apply List.countP_congr
    intro position hposition
    rw [decide_eq_true_iff, decide_eq_true_iff]
    exact risesAt_append (List.mem_range.mp hposition)
  rw [rises, List.length_append, List.length_singleton, List.range_succ, List.countP_append, hbefore,
    List.countP_singleton]
  simp [risesAt_last]

namespace Lines

theorem foldl_receive (lines : Lines) (signals : List Signal) :
    signals.foldl receive lines = (requests signals).foldl apply lines := by
  induction signals generalizing lines with
  | nil => rfl
  | cons signal signals ih =>
    cases signal with
    | request request => exact ih (lines.apply request)
    | notice notice => exact ih lines

theorem foldl_ask (levels : List Bool) :
    levels.foldl ask (false, 0) = (levels.getLast?.getD false, BitVec.ofNat 32 (rises levels)) := by
  induction levels using List.reverseRecOn with
  | nil => rfl
  | append_singleton levels level ih =>
    rw [List.foldl_append, ih, List.foldl_cons, List.foldl_nil, ask, rises_concat, List.getLast?_concat]
    split
    · rw [BitVec.ofNat_add]
      rfl
    · rfl

theorem view_new (source : Source) : new.view source = (false, 0) :=
  Prod.ext BitVec.getLsbD_zero (Vector.getElem_replicate _)

theorem view_history (signals : List Signal) (source : Source) :
    (signals.foldl receive new).view source =
      ((levels source.line signals).getLast?.getD false, BitVec.ofNat 32 (rises (levels source.line signals))) := by
  rw [foldl_receive, view_foldl_apply, view_new]
  exact foldl_ask (levels source.line signals)

theorem getLsbD_pending_foldl {line : Fin 32} (h : ∀ source : Source, source.line ≠ line) (lines : Lines)
    (requests : List Request) : (requests.foldl apply lines).pending.getLsbD line = lines.pending.getLsbD line := by
  induction requests generalizing lines with
  | nil => rfl
  | cons request requests ih =>
    rw [List.foldl_cons, ih, pending, getLsbD_asserted_apply, if_neg (h request.source)]
    rfl

theorem levels_of_timers {source : Source} {signals : List Signal} (hsource : source ∈ Source.timers)
    (htimers : ∀ request ∈ requests signals, request.source ∈ Source.timers) :
    levels source.line signals =
      ((requests signals).filter fun request => request.source = source).map Request.asserted := by
  rw [levels, filter_line fun request hrequest hline => Source.eq_of_line_eq (htimers request hrequest) hsource hline]

structure Told (signals : List Signal) (source : Source) : Prop where
  level : (signals.foldl receive new).isAsserted source = (levels source.line signals).getLast?.getD false
  edges : ((signals.foldl receive new).risingEdges source).toNat = rises (levels source.line signals)
  pending : (signals.foldl receive new).pending.getLsbD source.line = (levels source.line signals).getLast?.getD false
  sameLevel : ∀ others : List Signal, levels source.line others = levels source.line signals →
    (others.foldl receive new).isAsserted source = (signals.foldl receive new).isAsserted source
  sameEdges : ∀ others : List Signal, levels source.line others = levels source.line signals →
    (others.foldl receive new).risingEdges source = (signals.foldl receive new).risingEdges source

structure FollowsHistory (signals : List Signal) : Prop where
  requestsOnly : signals.foldl receive new = (requests signals).foldl apply new
  told : ∀ source, Told signals source
  unused : ∀ line : Fin 32, (∀ source : Source, source.line ≠ line) →
    (signals.foldl receive new).pending.getLsbD line = false
  timers : Source.timers.length = 12
  apart : (Source.timers.map Source.line).Nodup
  perSource : (∀ request ∈ requests signals, request.source ∈ Source.timers) → ∀ source ∈ Source.timers,
    levels source.line signals =
      ((requests signals).filter fun request => request.source = source).map Request.asserted

theorem told_history {signals : List Signal} (hfew : (requests signals).length < 4294967296) (source : Source) :
    Told signals source := by
  have hview := view_history signals source
  have hlevel : (signals.foldl receive new).isAsserted source = (levels source.line signals).getLast?.getD false :=
    congrArg Prod.fst hview
  have hedges : (signals.foldl receive new).risingEdges source = BitVec.ofNat 32 (rises (levels source.line signals)) :=
    congrArg Prod.snd hview
  have hrises : rises (levels source.line signals) < 4294967296 :=
    Nat.lt_of_le_of_lt (Nat.le_trans (rises_le_length _) (length_levels_le source.line signals)) hfew
  have hsame (others : List Signal) (h : levels source.line others = levels source.line signals) :
      (others.foldl receive new).view source = (signals.foldl receive new).view source := by
    rw [view_history, h, hview]
  exact {
    level := hlevel
    edges := by rw [hedges, BitVec.toNat_ofNat, Nat.mod_eq_of_lt hrises]
    pending := hlevel
    sameLevel := fun others h => congrArg Prod.fst (hsame others h)
    sameEdges := fun others h => congrArg Prod.snd (hsame others h) }

theorem lines_follow_history (signals : List Signal) (hfew : (requests signals).length < 4294967296) :
    FollowsHistory signals where
  requestsOnly := foldl_receive new signals
  told := told_history hfew
  unused := by
    intro line hline
    rw [foldl_receive, getLsbD_pending_foldl hline]
    exact BitVec.getLsbD_zero
  timers := rfl
  apart := Source.nodup_lines
  perSource := fun htimers _ hsource => levels_of_timers hsource htimers

theorem lines_follow_history_shared :
    let source : Source := .byteTimer .compareB
    let signals : List Signal :=
      [.request ⟨.channel 3 .compareA, true⟩, .notice (.fault .addressError), .request ⟨source, true⟩,
        .request ⟨.channel 0 .compareA, true⟩, .request ⟨source, false⟩, .notice (.softwareTrap 3),
        .request ⟨.channel 3 .compareA, true⟩]
    let lines := signals.foldl receive new
    (requests signals).length < 4294967296 ∧ levels source.line signals = [true, true, false, true] ∧
      lines.isAsserted source = true ∧ (lines.risingEdges source).toNat = 2 := by
  intro source signals lines
  have hfew : (requests signals).length < 4294967296 := by decide
  have told := (lines_follow_history signals hfew).told source
  exact ⟨hfew, by decide, told.level.trans (by decide), told.edges.trans (by decide)⟩

end Lines

end Microcontroller.Interrupt
