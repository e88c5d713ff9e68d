import Lcom.Drivers.Ports

/-!
# The timer driver — `drivers/i8254.h`, `drivers/timer.c`
-/

namespace Lcom

/-! ## The i8254 -/

def timerFreq : UInt32 := 1193182

def timer0 : UInt8 := 0x40
def timerCtrl : UInt8 := 0x43

def timerRbCmd : UInt8 := 0xC0
def timerRbCount : UInt8 := 0x20
def timerLsbMsb : UInt8 := 0x30
def timerBcd : UInt8 := 0x01

/-- `TIMER_RB_SEL(n)`, an `int`; every use of it is narrowed to a byte. -/
def timerRbSel (n : UInt8) : UInt8 := ((1 : UInt32) <<< (n.toUInt32 + 1)).toUInt8

/-! ## `drivers/utils.c` -/

/-- `util_get_16_LSB(val, &lsb)`, with the code it returns. -/
def utilGet16Lsb (val : UInt16) : Int × UInt8 := (0, val.toUInt8)

/-- `util_get_16_MSB(val, &msb)`; nobody looks at its code. -/
def utilGet16Msb (val : UInt16) : Int × UInt8 := (1, (val >>> 8).toUInt8)

/-! ## `drivers/timer.c` -/

/-- `timer_get_conf(timer, &st)`: the status byte, or `none` when it returned 1. -/
def timerGetConf (timer : UInt8) : Driver (Option UInt8) := do
  let control := timerRbCmd ||| timerRbCount ||| timerRbSel timer
  let r ← sysOutb timerCtrl.toUInt16 control
  if r.failed then pure none
  else utilSysInb (timer0.toUInt16 + timer.toUInt16)

/-- `timer_set_frequency(timer, freq)`. -/
def timerSetFrequency (timer : UInt8) (freq : UInt32) : Driver Int := do
  if freq < 19 ∨ freq > timerFreq then pure 1
  else
    let timerADDR := timer0 + timer
    match ← timerGetConf timer with
    | none => pure 1
    | some st => do
      let control := timerLsbMsb ||| (timer.toUInt32 <<< 6).toUInt8 ||| (st &&& 0x0f)
      let f := (timerFreq / freq).toUInt16
      let lsb := (utilGet16Lsb f).2
      let msb := (utilGet16Msb f).2
      let r ← sysOutb timerCtrl.toUInt16 control
      if r.failed then pure 1
      else
        let r ← sysOutb timerADDR.toUInt16 lsb
        if r.failed then pure 1
        else
          let r ← sysOutb timerADDR.toUInt16 msb
          if r.failed then pure 1 else pure 0

/-! ## The status, field by field -/

/-- `enum timer_init`. -/
inductive TimerInit where
  | invalVal
  | lsbOnly
  | msbOnly
  | msbAfterLsb
  deriving DecidableEq, Repr

/-- The member of the enumeration that has this value. -/
def TimerInit.ofByte (v : UInt8) : TimerInit :=
  if v = 0 then .invalVal else if v = 1 then .lsbOnly else if v = 2 then .msbOnly else .msbAfterLsb

/-- `enum timer_status_field`. -/
inductive TimerStatusField where
  | tsfAll
  | tsfInitial
  | tsfMode
  | tsfBase
  deriving DecidableEq, Repr

/-- `union timer_status_field_val`, with the member that was stored in it. -/
inductive TimerStatusFieldVal where
  | byte (v : UInt8)
  | inMode (v : TimerInit)
  | countMode (v : UInt8)
  | bcd (v : Bool)
  deriving DecidableEq, Repr

/-- What `timer_display_conf` stores in `value`. -/
def timerFieldVal (st : UInt8) : TimerStatusField → TimerStatusFieldVal
  | .tsfAll => .byte st
  | .tsfInitial => .inMode (TimerInit.ofByte ((st >>> 4) &&& 0x3))
  | .tsfMode => .countMode ((st >>> 1) &&& 0x07)
  | .tsfBase => .bcd (anyBit st 0x01)

/-- `timer_display_conf(timer, st, field)`, over a `timer_print_config`. -/
def timerDisplayConf (timerPrintConfig : UInt8 → TimerStatusField → TimerStatusFieldVal → Int)
    (timer st : UInt8) (field : TimerStatusField) : Int :=
  if timerPrintConfig timer field (timerFieldVal st field) ≠ 0 then 1 else 0

end Lcom
