import Lcom.Lib.Calendar
import Lcom.Lib.Memory

/-!
# Dates — the converters of `drivers/rtc.c`

`time_t` is the 64-bit integer the program prints as `%lld`. `gmtime` and `mktime` are the C
library's, on a machine whose local time is UTC; of `struct tm` the two functions of the source
set or read the fields given here (`mktime` ignores the weekday and the day of the year it is
handed).
-/

namespace Lcom

open Lib

/-- `struct tm`. -/
structure Tm where
  tm_sec : Int
  tm_min : Int
  tm_hour : Int
  tm_mday : Int
  tm_mon : Int
  tm_year : Int
  tm_isdst : Int
  deriving DecidableEq, Repr

/-- `gmtime(&t)`, NULL when the year does not fit in an `int`. -/
def gmtime (t : Int64) : Option Tm :=
  let date := civilFromDays (t.toInt / 86400)
  let secs := t.toInt % 86400
  if -2 ^ 31 ≤ date.year - 1900 ∧ date.year - 1900 < 2 ^ 31 then
    some
      { tm_sec := secs % 60
        tm_min := secs / 60 % 60
        tm_hour := secs / 3600
        tm_mday := date.day
        tm_mon := date.month
        tm_year := date.year - 1900
        tm_isdst := 0 }
  else none

/-- `mktime(&tm)`: the fields need not be in their ranges. -/
def mktime (tm : Tm) : Int64 :=
  Int64.ofInt (daysFromCivil ⟨tm.tm_year + 1900, tm.tm_mon, tm.tm_mday⟩ * 86400 +
    tm.tm_hour * 3600 + tm.tm_min * 60 + tm.tm_sec)

/-- `struct rtc_date_time`. -/
structure RtcDateTime where
  rtc_seconds : UInt8
  rtc_minutes : UInt8
  rtc_hours : UInt8
  rtc_day_week : UInt8
  rtc_day : UInt8
  rtc_month : UInt8
  rtc_year : UInt16
  deriving DecidableEq, Repr

/-- `rtc_date_time_to_unix(&rtc_dt)`. -/
def rtcDateTimeToUnix (rtc_dt : RtcDateTime) : Int64 :=
  mktime
    { tm_sec := rtc_dt.rtc_seconds.toNat
      tm_min := rtc_dt.rtc_minutes.toNat
      tm_hour := rtc_dt.rtc_hours.toNat
      tm_mday := rtc_dt.rtc_day.toNat
      tm_mon := rtc_dt.rtc_month.toNat - 1
      tm_year := rtc_dt.rtc_year.toNat + 100
      tm_isdst := -1 }

/-- `unix_to_rtc_date_time(unix_time, &rtc_dt)`: the weekday is left as it was. -/
def unixToRtcDateTime (unix_time : Int64) (rtc_dt : RtcDateTime) : Except Fault RtcDateTime :=
  match gmtime unix_time with
  | none => .error .nullDereference
  | some t =>
    .ok { rtc_dt with
      rtc_seconds := UInt8.ofInt t.tm_sec
      rtc_minutes := UInt8.ofInt t.tm_min
      rtc_hours := UInt8.ofInt t.tm_hour
      rtc_day := UInt8.ofInt t.tm_mday
      rtc_month := UInt8.ofInt (t.tm_mon + 1)
      rtc_year := UInt16.ofInt (t.tm_year + 1900) }

end Lcom
