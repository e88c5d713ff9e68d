import Lcom.Drivers.Ports
import Lcom.Drivers.Rtc
import Lcom.Lib.Run

/-!
# Reading the clock — the register access of `drivers/rtc.c`

The driver side is a program over port accesses. The other side is the clock chip itself: its
address register, its time registers, and the updates that finish whenever they like, also in the
middle of a call. A run is a list of updates and port accesses in the order in which they happen.
-/

namespace Lcom

open Lib

/-! ## The driver -/

def rtcAddrReg : UInt16 := 0x70
def rtcDataReg : UInt16 := 0x71

def rtcSecondsReg : UInt8 := 0x00
def rtcMinutesReg : UInt8 := 0x02
def rtcHoursReg : UInt8 := 0x04
def rtcDayWeekReg : UInt8 := 0x06
def rtcDayMonthReg : UInt8 := 0x07
def rtcMonthReg : UInt8 := 0x08
def rtcYearReg : UInt8 := 0x09
def rtcStatusAReg : UInt8 := 0x0A

/-- `RTC_UPDATING`. -/
def rtcUpdating : Int := 1

/-- `rtc_read_register`: the data, or `none` for the return value 1. -/
def rtcReadRegister (register_addr : UInt8) : Driver (Option UInt8) := do
  let r ← sysOutb rtcAddrReg register_addr
  if r.failed then pure none else utilSysInb rtcDataReg

/-- `rtc_update_in_progress`. -/
def rtcUpdateInProgress : Driver Int := do
  match ← rtcReadRegister rtcStatusAReg with
  | none => pure 1
  | some rtc_status => pure (if anyBit rtc_status 0x80 then rtcUpdating else 0)

/-- `bcd_to_dec`. -/
def bcdToDec (bcd : UInt8) : UInt8 := (bcd >>> 4) * 10 + (bcd &&& 0x0F)

/-- `rtc_read_date_time(rtc_dt)`: the code, and what `rtc_dt` points to afterwards. -/
def rtcReadDateTime (rtc_dt : Option RtcDateTime) : Driver (Int × Option RtcDateTime) := do
  let updating ← rtcUpdateInProgress
  if updating = rtcUpdating then pure (1, rtc_dt)
  else if rtc_dt = none then pure (1, rtc_dt)
  else
    let some seconds ← rtcReadRegister rtcSecondsReg | pure (1, rtc_dt)
    let some minutes ← rtcReadRegister rtcMinutesReg | pure (1, rtc_dt)
    let some hours ← rtcReadRegister rtcHoursReg | pure (1, rtc_dt)
    let some day_of_week ← rtcReadRegister rtcDayWeekReg | pure (1, rtc_dt)
    let some day ← rtcReadRegister rtcDayMonthReg | pure (1, rtc_dt)
    let some month ← rtcReadRegister rtcMonthReg | pure (1, rtc_dt)
    let some year ← rtcReadRegister rtcYearReg | pure (1, rtc_dt)
    pure (0, some
      { rtc_seconds := bcdToDec seconds
        rtc_minutes := bcdToDec minutes
        rtc_hours := bcdToDec hours
        rtc_day_week := bcdToDec day_of_week
        rtc_day := bcdToDec day
        rtc_month := bcdToDec month
        rtc_year := (bcdToDec year).toUInt16 })

/-! ## The chip -/

/-- The time registers, in BCD. -/
structure RtcTime where
  seconds : UInt8
  minutes : UInt8
  hours : UInt8
  day_of_week : UInt8
  day : UInt8
  month : UInt8
  year : UInt8
  deriving DecidableEq, Repr

namespace RtcTime

/-- The time register at an address. -/
def register (time : RtcTime) (addr : UInt8) : Option UInt8 :=
  if addr = rtcSecondsReg then some time.seconds
  else if addr = rtcMinutesReg then some time.minutes
  else if addr = rtcHoursReg then some time.hours
  else if addr = rtcDayWeekReg then some time.day_of_week
  else if addr = rtcDayMonthReg then some time.day
  else if addr = rtcMonthReg then some time.month
  else if addr = rtcYearReg then some time.year
  else none

/-- The decoded value of a time. -/
def decoded (time : RtcTime) : RtcDateTime where
  rtc_seconds := bcdToDec time.seconds
  rtc_minutes := bcdToDec time.minutes
  rtc_hours := bcdToDec time.hours
  rtc_day_week := bcdToDec time.day_of_week
  rtc_day := bcdToDec time.day
  rtc_month := bcdToDec time.month
  rtc_year := (bcdToDec time.year).toUInt16

end RtcTime

/-- The chip: the address selected last, the time, and, for the statements, which registers have
    been handed out. -/
structure RtcChip where
  selected : UInt8
  time : RtcTime
  served : List UInt8
  deriving DecidableEq, Repr

/-- An update finishes, or the driver makes an access. -/
inductive RtcStep where
  | update (time : RtcTime)
  | access (e : PortEvent)
  deriving DecidableEq, Repr

/-- A successful read of a time register delivers that register; about everything else, the status
    registers included, nothing is assumed. -/
def rtcStep (chip : RtcChip) : RtcStep → Option RtcChip
  | .update time => some { chip with time }
  | .access (.outb port value, r) =>
    if port = rtcAddrReg ∧ r.failed = false then some { chip with selected := value }
    else some chip
  | .access (.inb port, r) =>
    if port = rtcDataReg ∧ r.failed = false then
      if chip.time.register chip.selected = none ∨
          chip.time.register chip.selected = some r.val.toUInt8 then
        some { chip with served := chip.selected :: chip.served }
      else none
    else some chip

def RtcStep.access? : RtcStep → Option PortEvent
  | .update _ => none
  | .access e => some e

/-- The accesses of a run. -/
def accesses (steps : List RtcStep) : List PortEvent := steps.filterMap RtcStep.access?

end Lcom
