import Lcom.Drivers.Keyboard
import Lcom.Drivers.System

/-!
# The timed scan of lab 3 — `lab3/lab3.c`

`kbd_test_timed_scan` waits for messages until the escape key is released or no key has come for `n`
seconds. It runs over the drivers of the project; its `extern` `counter`, which no file defines, is
taken to be the `timer_counter` that `timer_int_handler` advances. The ticks per second that `sys_hz`
reports are a parameter. What `kbd_print_scancode` prints is left out.

`while` takes a fuel, as in the main loop of the project. One history variable, which no function
reads, counts the calls of `timer_int_handler`.
-/

namespace Lcom

open Lib

/-- The globals and the locals of the loop. -/
structure TimedScan where
  kbd : KbdGlobals
  counter : UInt32
  count : UInt8
  elapsed : UInt8
  byte0 : UInt8
  byte1 : UInt8
  handled : Nat
  deriving DecidableEq, Repr

namespace TimedScan

/-- The locals at the start of `kbd_test_timed_scan(n)`. -/
def start (n : UInt8) (kbd : KbdGlobals) (counter : UInt32) : TimedScan where
  kbd := kbd
  counter := counter
  count := n
  elapsed := 0
  byte0 := 0
  byte1 := 0
  handled := 0

/-- The condition of the `while`. -/
def looping (n : UInt8) (s : TimedScan) : Bool :=
  s.kbd.scan_code != escBreakcode && decide (s.elapsed < n)

/-- `timer_int_handler`. -/
def timerIntHandler (s : TimedScan) : TimedScan :=
  { s with counter := s.counter + 1, handled := s.handled + 1 }

/-- The body of the `if` on the timer's bit. -/
def timerBranch (timer_freq : UInt16) (s : TimedScan) : TimedScan :=
  let s := s.timerIntHandler
  if s.counter % timer_freq.toUInt32 = 0 then { s with elapsed := s.elapsed + 1 } else s

/-- What is left of the body of the `if` on the keyboard's bit after `kbc_ih()`: the state, and
    whether a `continue` was met. -/
def storeScancode (n : UInt8) (s : TimedScan) : Bool × TimedScan :=
  if s.kbd.kbd_ih_valid then
    let s := { s with count := n }
    if s.kbd.scan_code = doubleByte then (true, { s with byte0 := s.kbd.scan_code })
    else if s.byte0 = doubleByte then (true, { s with byte1 := s.kbd.scan_code, byte0 := 0 })
    else (false, { s with byte0 := s.kbd.scan_code })
  else (false, s)

/-- The body of the `if` on the keyboard's bit. -/
def keyboardBranch (n : UInt8) (s : TimedScan) : Driver (Bool × TimedScan) := do
  let kbd ← kbcIh { s.kbd with kbd_ih_valid := false }
  pure ({ s with elapsed := 0, kbd }.storeScancode n)

/-- `case HARDWARE`. -/
def handleInterrupts (n : UInt8) (timer_freq : UInt16) (s : TimedScan) (msg : Message) :
    Driver TimedScan := do
  let (continued, s) ← (if msg.raises .keyboard then s.keyboardBranch n else pure (false, s))
  if continued then pure s
  else pure (if msg.raises .timer then s.timerBranch timer_freq else s)

/-- The body of the `while`, with what `driver_receive` gave back. -/
def iterate (n : UInt8) (timer_freq : UInt16) (s : TimedScan) (r : SysReply) : Driver TimedScan :=
  if r.failed then pure s
  else if r.msg.notify && r.msg.hardware then s.handleInterrupts n timer_freq r.msg
  else pure s

end TimedScan

/-- The `while`; nothing comes back while it is still going. -/
def timedScanLoop (n : UInt8) (timer_freq : UInt16) : Nat → TimedScan → Sys (Option TimedScan)
  | 0, s => if s.looping n then pure none else pure (some s)
  | fuel + 1, s =>
    if s.looping n then do
      let r ← Prog.query .driverReceive
      let s ← Driver.sys (s.iterate n timer_freq r)
      timedScanLoop n timer_freq fuel s
    else pure (some s)

/-- `kbd_test_timed_scan(n)`: the code, and the variables at the exit. -/
def kbdTestTimedScan (n : UInt8) (timer_freq : UInt16) (kbd : KbdGlobals) (counter : UInt32)
    (fuel : Nat) : Sys (Option (Int × TimedScan)) := do
  let s := TimedScan.start n kbd counter
  if (← keyboardSubscribe) ≠ 0 then pure (some (1, s))
  else if (← timerSubscribe) ≠ 0 then pure (some (1, s))
  else
    match ← timedScanLoop n timer_freq fuel s with
    | none => pure none
    | some s =>
      if (← keyboardUnsubscribe) ≠ 0 then pure (some (1, s))
      else if (← timerUnsubscribe) ≠ 0 then pure (some (1, s))
      else pure (some (0, s))

end Lcom
