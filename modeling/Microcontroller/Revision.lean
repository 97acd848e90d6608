namespace Microcontroller

inductive Revision where
  | generic
  | mk1
  deriving DecidableEq

end Microcontroller
