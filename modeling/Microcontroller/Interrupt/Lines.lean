import Microcontroller.Interrupt.Signal

namespace Microcontroller.Interrupt

structure Lines where
  asserted : BitVec 32
  edges : Vector (BitVec 32) 32
  deriving DecidableEq

namespace Lines

def new : Lines := ⟨0, Vector.replicate 32 0⟩

def isAsserted (lines : Lines) (source : Source) : Bool := lines.asserted.getLsbD source.line

def pending (lines : Lines) : BitVec 32 := lines.asserted

def risingEdges (lines : Lines) (source : Source) : BitVec 32 := lines.edges[source.line]

def apply (lines : Lines) (request : Request) : Lines :=
  let line := request.source.line
  if request.asserted then
    { asserted := lines.asserted ||| BitVec.twoPow 32 line
      edges :=
        if lines.isAsserted request.source then lines.edges
        else lines.edges.set line (lines.edges[line] + 1) }
  else { lines with asserted := lines.asserted &&& ~~~BitVec.twoPow 32 line }

def receive (lines : Lines) : Signal → Lines
  | .request request => lines.apply request
  | .notice _ => lines

end Lines

end Microcontroller.Interrupt
