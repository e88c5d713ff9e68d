import Lcom.Drivers.System
import Lcom.Drivers.Timer

/-!
# The timer tests of lab 2 — `lab2/lab2.c`

`timer_test_int` prints the elapsed time after every sixty ticks, a given number of times. It runs over
the timer driver of the project: its `extern` `counter`, which no file defines, is taken to be the
`timer_counter` that `timer_int_handler` advances. The loop takes a fuel, and a history variable,
which no function reads, keeps the count of `counter` at each print.
-/

namespace Lcom

open Lib

/-- The globals and the locals of the loop. -/
structure TimerTest where
  counter : UInt32
  time : UInt8
  printed : List UInt32
  deriving DecidableEq, Repr

namespace TimerTest

def start (time : UInt8) (counter : UInt32) : TimerTest where
  counter := counter
  time := time
  printed := []

/-- The condition of the `while`. -/
def looping (s : TimerTest) : Bool := decide (s.time > 0)

/-- The body of the `if` on the timer's bit: `timer_int_handler()`, which counts in `timer_counter`,
    and the print when it is due. -/
def tick (s : TimerTest) : TimerTest :=
  let s := { s with counter := s.counter + 1 }
  if s.counter % 60 = 0 then { s with printed := s.printed ++ [s.counter], time := s.time - 1 } else s

/-- The body of the `while`, with what `driver_receive` gave back. -/
def iterate (s : TimerTest) (r : SysReply) : Driver TimerTest :=
  if r.failed then pure s
  else if r.msg.notify && r.msg.hardware then pure (if r.msg.raises .timer then s.tick else s)
  else pure s

end TimerTest

/-- `timer_test_int(time)`: the code once it has returned, and the variables. -/
def timerTestInt (time : UInt8) (counter : UInt32) (fuel : Nat) : Sys (Option Int × TimerTest) := do
  let s := TimerTest.start time counter
  if (← timerSubscribe) ≠ 0 then pure (some 1, s)
  else do
    let (ended, s) ← receiveLoop TimerTest.looping TimerTest.iterate fuel s
    if !ended then pure (none, s)
    else if (← timerUnsubscribe) ≠ 0 then pure (some 1, s)
    else pure (some 0, s)

/-- `timer_test_time_base(timer, freq)`. -/
def timerTestTimeBase (timer : UInt8) (freq : UInt32) : Driver Int := do
  if (← timerSetFrequency timer freq) ≠ 0 then pure 1 else pure 0

/-- `timer_test_read_config(timer, field)`: the code, with what was printed. -/
def timerTestReadConfig (timerPrintConfig : UInt8 → TimerStatusField → TimerStatusFieldVal → Int)
    (timer : UInt8) (field : TimerStatusField) : Driver (Int × Option TimerStatusFieldVal) := do
  match ← timerGetConf timer with
  | none => pure (1, none)
  | some st =>
    let value := timerFieldVal st field
    if timerDisplayConf timerPrintConfig timer st field ≠ 0 then pure (1, some value)
    else pure (0, some value)

end Lcom
