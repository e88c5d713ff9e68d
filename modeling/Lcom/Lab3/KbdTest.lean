import Lcom.Drivers.Keyboard
import Lcom.Drivers.System

/-!
# The scans of lab 3 — `lab3/lab3.c`

`kbd_test_scan` reads a scan code at every interrupt of the keyboard, `kbd_test_poll` in a busy loop;
both print what they read and stop at the break code of the escape key. They run over the drivers of
the project.

The loops take a fuel; a loop that is still going is told from one that has ended. Two history
variables, which no function reads, keep the calls of `kbd_print_scancode` and the bytes `kbc_ih` read
successfully.
-/

namespace Lcom

open Lib

/-- A call of `kbd_print_scancode(make, size, bytes)`, with the bytes it prints. -/
structure ScancodePrint where
  make : Bool
  bytes : List UInt8
  deriving DecidableEq, Repr

/-- `scan_code` and `kbd_ih_valid` when the program starts. -/
def KbdGlobals.startup : KbdGlobals := ⟨0, false⟩

/-- The globals and the locals of the two loops. -/
structure KbdTest where
  kbd : KbdGlobals
  byte0 : UInt8
  byte1 : UInt8
  printed : List ScancodePrint
  read : List UInt8
  deriving DecidableEq, Repr

namespace KbdTest

def start (kbd : KbdGlobals) : KbdTest where
  kbd := kbd
  byte0 := 0
  byte1 := 0
  printed := []
  read := []

/-- The condition of both loops. -/
def looping (s : KbdTest) : Bool := s.kbd.scan_code != escBreakcode

/-- `kbd_print_scancode(!(scan_code & BREAK_BIT), size, bytes)`. -/
def printScancode (size : Nat) (s : KbdTest) : KbdTest :=
  { s with printed := s.printed ++ [⟨!anyBit s.kbd.scan_code breakBit, [s.byte0, s.byte1].take size⟩] }

/-- The body of `if (kbd_ih_valid)`. Each `continue` in it leaves nothing out. -/
def handleScancode (s : KbdTest) : KbdTest :=
  let s := { s with read := s.read ++ [s.kbd.scan_code] }
  if s.kbd.scan_code = doubleByte then { s with byte0 := s.kbd.scan_code }
  else if s.byte0 = doubleByte then
    let s := printScancode 2 { s with byte1 := s.kbd.scan_code }
    { s with byte0 := 0 }
  else printScancode 1 { s with byte0 := s.kbd.scan_code }

/-- `kbd_ih_valid = 0; kbc_ih();`, and the `if` after it. -/
def readScancode (s : KbdTest) : Driver KbdTest := do
  let kbd ← kbcIh { s.kbd with kbd_ih_valid := false }
  let s := { s with kbd }
  pure (if s.kbd.kbd_ih_valid then s.handleScancode else s)

/-- The body of the `while` of `kbd_test_scan`, with what `driver_receive` gave back. -/
def iterate (s : KbdTest) (r : SysReply) : Driver KbdTest :=
  if r.failed then pure s
  else if r.msg.notify && r.msg.hardware then
    if r.msg.raises .keyboard then s.readScancode else pure s
  else pure s

end KbdTest

/-- The `while` of `kbd_test_scan`. -/
def kbdScanLoop : Nat → KbdTest → Sys (Bool × KbdTest) :=
  receiveLoop KbdTest.looping KbdTest.iterate

/-- `kbd_test_scan()`: the code once it has returned, and the variables. -/
def kbdTestScan (kbd : KbdGlobals) (fuel : Nat) : Sys (Option Int × KbdTest) := do
  let s := KbdTest.start kbd
  if (← keyboardSubscribe) ≠ 0 then pure (some 1, s)
  else do
    let (ended, s) ← kbdScanLoop fuel s
    if !ended then pure (none, s)
    else if (← keyboardUnsubscribe) ≠ 0 then pure (some 1, s)
    else pure (some 0, s)

/-- The `do … while` of `kbd_test_poll`. -/
def kbdPollLoop : Nat → KbdTest → Driver (Bool × KbdTest)
  | 0, s => pure (false, s)
  | fuel + 1, s => do
    let s ← s.readScancode
    if s.looping then kbdPollLoop fuel s else pure (true, s)

/-- `kbd_test_poll()`; `command` is what the uninitialised local of `keyboard_enable_interrupts` holds
    on entry. -/
def kbdTestPoll (command : UInt8) (kbd : KbdGlobals) (fuel : Nat) :
    Driver (Option Int × KbdTest) := do
  let (ended, s) ← kbdPollLoop fuel (KbdTest.start kbd)
  if !ended then pure (none, s)
  else if (← keyboardEnableInterrupts command) ≠ 0 then pure (some 1, s)
  else pure (some 0, s)

end Lcom
