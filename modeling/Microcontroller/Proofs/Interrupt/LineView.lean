import Mathlib.Data.List.Nodup
import Microcontroller.Interrupt.Lines

namespace Microcontroller.Interrupt

namespace Source

def timers : List Source :=
  [0, 1, 2].flatMap (fun number => TimerEvent.all.map (channel number)) ++ TimerEvent.all.map byteTimer

theorem nodup_lines : (timers.map line).Nodup := by decide

theorem eq_of_line_eq {source other : Source} (hsource : source ∈ timers) (hother : other ∈ timers)
    (hline : source.line = other.line) : source = other := List.inj_on_of_nodup_map nodup_lines hsource hother hline

end Source

namespace Lines

def view (lines : Lines) (source : Source) : Bool × BitVec 32 :=
  (lines.isAsserted source, lines.risingEdges source)

def ask (line : Bool × BitVec 32) (asserted : Bool) : Bool × BitVec 32 :=
  (asserted, if asserted && !line.1 then line.2 + 1 else line.2)

theorem getLsbD_asserted_apply (lines : Lines) (request : Request) (line : Fin 32) :
    (lines.apply request).asserted.getLsbD line =
      if request.source.line = line then request.asserted else lines.asserted.getLsbD line := by
  have hbit : (BitVec.twoPow 32 request.source.line.val).getLsbD line.val = decide (request.source.line = line) := by
    rw [BitVec.getLsbD_twoPow, decide_eq_true (request.source.line.isLt), Bool.true_and]
    exact decide_eq_decide.mpr Fin.ext_iff.symm
  unfold apply
  cases hasserted : request.asserted with
  | true =>
    simp only [if_true, BitVec.getLsbD_or, hbit]
    split
    next h => simp [h]
    next h => simp [h]
  | false =>
    simp only [Bool.false_eq_true, if_false, BitVec.getLsbD_and, BitVec.getLsbD_not, hbit, line.isLt]
    split
    next h => simp [h]
    next h => simp [h]

theorem isAsserted_apply (lines : Lines) (request : Request) (source : Source) :
    (lines.apply request).isAsserted source =
      if request.source.line = source.line then request.asserted else lines.isAsserted source :=
  getLsbD_asserted_apply lines request source.line

theorem risingEdges_apply (lines : Lines) (request : Request) (source : Source) :
    (lines.apply request).risingEdges source =
      if request.source.line = source.line then
        if request.asserted && !lines.isAsserted source then lines.risingEdges source + 1
        else lines.risingEdges source
      else lines.risingEdges source := by
  unfold apply risingEdges
  cases hasserted : request.asserted with
  | true =>
    by_cases hline : request.source.line = source.line
    · have hlevel : lines.isAsserted request.source = lines.isAsserted source := by
        rw [isAsserted, isAsserted, hline]
      simp only [hlevel, hline, if_true]
      by_cases hhigh : lines.isAsserted source
      · simp [hhigh]
      · simp [hhigh]
    · have hval : request.source.line.val ≠ source.line.val := fun h => hline (Fin.ext h)
      simp only [hline, if_true, if_false]
      split
      · rfl
      · simp [Vector.getElem_set_ne, hval]
  | false => simp

theorem view_apply (lines : Lines) (request : Request) (source : Source) :
    (lines.apply request).view source =
      if request.source.line = source.line then ask (lines.view source) request.asserted
      else lines.view source := by
  unfold view ask
  rw [isAsserted_apply, risingEdges_apply]
  split <;> rfl

theorem view_foldl_apply (lines : Lines) (source : Source) (requests : List Request) :
    (requests.foldl apply lines).view source =
      ((requests.filter fun request => request.source.line = source.line).map Request.asserted).foldl ask
        (lines.view source) := by
  induction requests generalizing lines with
  | nil => rfl
  | cons request requests ih =>
    rw [List.foldl_cons, ih, view_apply, List.filter_cons]
    by_cases hline : request.source.line = source.line
    · simp [hline]
    · simp [hline]

theorem filter_line {source : Source} {requests : List Request}
    (howner : ∀ request ∈ requests, request.source.line = source.line → request.source = source) :
    (requests.filter fun request => request.source.line = source.line) =
      requests.filter fun request => request.source = source := by
  apply List.filter_congr
  intro request hrequest
  exact decide_eq_decide.mpr ⟨howner request hrequest, congrArg Source.line⟩

end Lines

end Microcontroller.Interrupt
