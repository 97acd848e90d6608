import Microcontroller.Board
import Microcontroller.Proofs.Timer.Locations

namespace Microcontroller.Board

open Timer (registerAddress)

def window (number : Fin 3) (location : Timer.Location) : Address := 0xFF00 + registerAddress number location

theorem timer_foldl_receive (requests : List Interrupt.Request) (board : Board) :
    let final := requests.foldl (fun board request => board.receive (.request request)) board
    final.timer = board.timer ∧ final.timerMapped = board.timerMapped := by
  induction requests generalizing board with
  | nil => exact ⟨rfl, rfl⟩
  | cons request requests ih => exact ih (board.receive (.request request))

section Window

variable {board : Board} (h : board.timerMapped = true) (number : Fin 3) (location : Timer.Location)

include h

theorem timerRegister?_window :
    board.timerRegister? (window number location) = some (registerAddress number location) := by
  have hlt := Timer.registerAddress_lt number location
  have hrange : 0xFF00 ≤ window number location ∧ window number location ≤ 0xFF7F := by
    rw [window]
    bv_omega
  rw [timerRegister?, if_pos ⟨h, hrange⟩, window, BitVec.add_comm, BitVec.add_sub_cancel]

theorem read_window :
    let answer := board.timer.readChannel (registerAddress number location)
    let result := board.read (window number location)
    result.1 = answer.1 ∧ result.2.timer = answer.2 ∧ result.2.timerMapped = true := by
  have hlt := Timer.registerAddress_lt number location
  have hread : board.timer.read (registerAddress number location) =
      board.timer.readChannel (registerAddress number location) := if_pos (by bv_omega)
  rw [read, timerRegister?_window h]
  dsimp only
  rw [hread]
  exact ⟨rfl, rfl, h⟩

theorem write_window (byte : Byte) :
    let board' := board.write (window number location) byte
    board'.timer = (board.timer.writeChannel (registerAddress number location) byte).1 ∧ board'.timerMapped = true := by
  have hlt := Timer.registerAddress_lt number location
  have hwrite : board.timer.write (registerAddress number location) byte =
      board.timer.writeChannel (registerAddress number location) byte := if_pos (by bv_omega)
  rw [write, timerRegister?_window h]
  dsimp only
  rw [hwrite]
  obtain ⟨htimer, hmapped⟩ := timer_foldl_receive _ _
  exact ⟨htimer, hmapped.trans h⟩

end Window

end Microcontroller.Board
