import Lcom.Drivers.Mouse
import Lcom.Drivers.System

/-!
# The packet test of lab 4 — `lab4/lab4.c`

`mouse_test_packet` prints packets of the mouse until it has printed `cnt`. It runs over the drivers of
the project; its `mouse_ih` is `mouse_read_packet`. The loop takes a fuel.

What `mouse_print_packet` is called with is kept, together with a history variable that no function
reads: the number of the packet among the completed ones.
-/

namespace Lcom

open Lib

/-- A call of `mouse_print_packet(&packet)`, and how many packets had been completed by then: the
    driver holds the last of them. -/
structure PacketPrint where
  number : Nat
  packet : Packet
  deriving DecidableEq, Repr

/-- The driver, the locals of the loop, and the prints. -/
structure PacketTest where
  driver : MouseDriver
  packet : Packet
  cnt : UInt32
  printed : List PacketPrint
  deriving DecidableEq, Repr

namespace PacketTest

/-- The start of the loop; `packet` is an uninitialised local. -/
def start (driver : MouseDriver) (packet : Packet) (cnt : UInt32) : PacketTest where
  driver := driver
  packet := packet
  cnt := cnt
  printed := []

/-- The condition of the `while`. -/
def looping (s : PacketTest) : Bool := s.cnt != 0

/-- `mouse_ih`, which drops the code. -/
def mouseIh (s : PacketTest) : Driver PacketTest := do
  let (_, driver) ← mouseReadPacket s.driver
  pure { s with driver }

/-- `if (mouse_packet_ready())`, and its body. -/
def printPacket (s : PacketTest) : PacketTest :=
  if s.driver.packet_ready then
    let (_, driver, packet) := mouseGetPacket s.driver s.packet
    { driver, packet, cnt := s.cnt - 1, printed := s.printed ++ [⟨driver.completed.length, packet⟩] }
  else s

/-- `case HARDWARE`. The first `mouse_ih` stands before the `if` on the mouse's bit. -/
def handleInterrupts (s : PacketTest) (msg : Message) : Driver PacketTest := do
  let s ← s.mouseIh
  if msg.raises .mouse then do
    let s ← s.mouseIh
    pure s.printPacket
  else pure s

/-- The body of the `while`, with what `driver_receive` gave back. -/
def iterate (s : PacketTest) (r : SysReply) : Driver PacketTest :=
  if r.failed then pure s
  else if r.msg.notify && r.msg.hardware then s.handleInterrupts r.msg
  else pure s

end PacketTest

/-- `mouse_test_packet(cnt)`: the code once it has returned, and the variables. The drivers' locals
    `aknl` and the local `packet` are uninitialised. -/
def mouseTestPacket (driver : MouseDriver) (packet : Packet) (aknl aknl' : UInt8) (cnt : UInt32)
    (fuel : Nat) : Sys (Option Int × PacketTest) := do
  let s := PacketTest.start driver packet cnt
  if (← Driver.sys (mouseWriteCommand mouseCommEnableDataReporting aknl)) ≠ 0 then pure (some 1, s)
  else if (← mouseSubscribe) ≠ 0 then pure (some 1, s)
  else do
    let (ended, s) ← receiveLoop PacketTest.looping PacketTest.iterate fuel s
    if !ended then pure (none, s)
    else if (← mouseUnsubscribe) ≠ 0 then pure (some 1, s)
    else if (← Driver.sys (mouseWriteCommand mouseCommDisableDataReporting aknl')) ≠ 0 then
      pure (some 1, s)
    else pure (some 0, s)

end Lcom
