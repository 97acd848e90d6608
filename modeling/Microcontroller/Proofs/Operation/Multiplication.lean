import Microcontroller.Memory
import Microcontroller.Proofs.Operation.Division

namespace Microcontroller

open Conduct Dialogue Processor

namespace Processor

section Multiplied

variable (p : Processor) (r : Register) {factor : Long} {size : Size} (hfits : factor.toNat < 2 ^ size.bits)

include hfits

end Multiplied

end Processor

namespace Operand

variable {σ : Type} [Host σ]

end Operand

end Microcontroller
