import Lcom.Drivers.Rtc

/-!
# What the two date converters do to a time

`unix_to_rtc_date_time` stores the full year, and `rtc_date_time_to_unix` takes the year to be
two digits counted from 2000. So the two are not inverse: between them, `reload_toInt` shows, lie
2000 years, which is exactly 730485 days, whatever the date.
-/

namespace Lcom

open Lib

/-! ## Dates to times -/

theorem daysBeforeMonth_bounds (leap : Bool) {m : Int} (h0 : 0 ≤ m) (h12 : m < 12) :
    0 ≤ daysBeforeMonth leap m ∧ daysBeforeMonth leap m ≤ 335 := by
  have hall : ∀ leap : Bool, ∀ m < 12,
      0 ≤ daysBeforeMonth leap (m : Nat) ∧ daysBeforeMonth leap (m : Nat) ≤ 335 := by
    decide +kernel
  lift m to Nat using h0
  exact hall leap m (by omega)

/-- The day number of a stored date, with room to spare: it is after 1996, and before the year
    70000. -/
theorem daysFromCivil_bounds {c : Civil} (hyear : 2000 ≤ c.year ∧ c.year ≤ 67535)
    (hmonth : -1 ≤ c.month ∧ c.month ≤ 254) (hday : 0 ≤ c.day ∧ c.day ≤ 255) :
    10000 ≤ daysFromCivil c ∧ daysFromCivil c ≤ 25000000 := by
  have hm := daysBeforeMonth_bounds (isLeap (c.year + c.month / 12))
    (show 0 ≤ c.month % 12 by omega) (by omega)
  rw [daysFromCivil, daysBeforeYear]
  omega

theorem rtcDateTimeToUnix_toInt (dt : RtcDateTime) :
    (rtcDateTimeToUnix dt).toInt =
      daysFromCivil ⟨dt.rtc_year.toNat + 2000, dt.rtc_month.toNat - 1, dt.rtc_day.toNat⟩ * 86400 +
        dt.rtc_hours.toNat * 3600 + dt.rtc_minutes.toNat * 60 + dt.rtc_seconds.toNat ∧
      864000000 ≤ (rtcDateTimeToUnix dt).toInt ∧ (rtcDateTimeToUnix dt).toInt ≤ 2160001000000 := by
  have hyear := dt.rtc_year.toNat_lt
  have hmonth := dt.rtc_month.toNat_lt
  have hday := dt.rtc_day.toNat_lt
  have hhour := dt.rtc_hours.toNat_lt
  have hmin := dt.rtc_minutes.toNat_lt
  have hsec := dt.rtc_seconds.toNat_lt
  have hbounds := daysFromCivil_bounds
    (c := ⟨dt.rtc_year.toNat + 2000, dt.rtc_month.toNat - 1, dt.rtc_day.toNat⟩)
    (by constructor <;> dsimp only <;> omega) (by constructor <;> dsimp only <;> omega)
    (by constructor <;> dsimp only <;> omega)
  have hcivil : (dt.rtc_year.toNat : Int) + 100 + 1900 = dt.rtc_year.toNat + 2000 := by omega
  rw [rtcDateTimeToUnix, mktime]
  dsimp only
  rw [hcivil, Int64.toInt_ofInt_of_le (by omega) (by omega)]
  omega

theorem gmtime_rtcDateTimeToUnix (dt : RtcDateTime) : gmtime (rtcDateTimeToUnix dt) ≠ none := by
  obtain ⟨-, h0, hle⟩ := rtcDateTimeToUnix_toInt dt
  obtain ⟨hfirst, hlast⟩ := yearOf_bounds ((rtcDateTimeToUnix dt).toInt / 86400)
  have hleap : (isLeap (yearOf ((rtcDateTimeToUnix dt).toInt / 86400))).toNat ≤ 1 :=
    Bool.toNat_le _
  have hyear : -2 ^ 31 ≤ yearOf ((rtcDateTimeToUnix dt).toInt / 86400) - 1900 ∧
      yearOf ((rtcDateTimeToUnix dt).toInt / 86400) - 1900 < 2 ^ 31 := by
    rw [daysBeforeYear] at hfirst hlast
    omega
  rw [gmtime, civilFromDays]
  simp only [hyear, and_self, if_true]
  simp

/-! ## Times to dates and back -/

theorem toNat_ofInt_uint8 {n : Int} (h0 : 0 ≤ n) (h : n < 256) : ((UInt8.ofInt n).toNat : Int) = n := by
  simp only [UInt8.ofInt, UInt8.toNat_ofNat']
  omega

theorem toNat_ofInt_uint16 {n : Int} (h0 : 0 ≤ n) (h : n < 65536) :
    ((UInt16.ofInt n).toNat : Int) = n := by
  simp only [UInt16.ofInt, UInt16.toNat_ofNat']
  omega

/-- The year of a day from 1970 to 65535 fits in the field it is stored in. -/
theorem yearOf_fits {z : Int} (h0 : 0 ≤ z) (h : z ≤ 23217003) :
    0 ≤ yearOf z ∧ yearOf z < 65536 := by
  obtain ⟨hfirst, hlast⟩ := yearOf_bounds z
  have hleap : (isLeap (yearOf z)).toNat ≤ 1 := Bool.toNat_le _
  rw [daysBeforeYear] at hfirst hlast
  omega

/-- The times whose year fits in its field: 1970-01-01 to 65535-12-31. -/
def Storable (t : Int64) : Prop := 0 ≤ t.toInt ∧ t.toInt ≤ 2005949145599

/-- **A stored date is read back 2000 years late.** -/
theorem reload_toInt {t : Int64} (ht : Storable t) (old : RtcDateTime) :
    ∃ dt, unixToRtcDateTime t old = .ok dt ∧
      (rtcDateTimeToUnix dt).toInt = t.toInt + 730485 * 86400 := by
  obtain ⟨h0, hmax⟩ := ht
  obtain ⟨z, hz⟩ : ∃ z, z = t.toInt / 86400 := ⟨_, rfl⟩
  obtain ⟨secs, hsecs⟩ : ∃ secs, secs = t.toInt % 86400 := ⟨_, rfl⟩
  obtain ⟨⟨hm0, hm12⟩, hd1, hd31⟩ := civilFromDays_valid z
  obtain ⟨hy0, hy1⟩ := yearOf_fits (show 0 ≤ z by omega) (by omega)
  have hyear : (civilFromDays z).year = yearOf z := rfl
  have hrange : -2 ^ 31 ≤ (civilFromDays z).year - 1900 ∧
      (civilFromDays z).year - 1900 < 2 ^ 31 := by omega
  unfold unixToRtcDateTime gmtime
  rw [← hz, ← hsecs, if_pos hrange]
  refine ⟨_, rfl, ?_⟩
  rw [(rtcDateTimeToUnix_toInt _).1]
  dsimp only
  rw [toNat_ofInt_uint8 (n := secs % 60) (by omega) (by omega),
    toNat_ofInt_uint8 (n := secs / 60 % 60) (by omega) (by omega),
    toNat_ofInt_uint8 (n := secs / 3600) (by omega) (by omega),
    toNat_ofInt_uint8 (by omega) (by omega : (civilFromDays z).day < 256),
    toNat_ofInt_uint8 (by omega) (by omega : (civilFromDays z).month + 1 < 256),
    toNat_ofInt_uint16 (by omega) (by omega)]
  -- the stored year counts as two digits, so five cycles of 400 years are added
  have hlate : (⟨(civilFromDays z).year - 1900 + 1900 + 2000, (civilFromDays z).month + 1 - 1,
      (civilFromDays z).day⟩ : Civil) =
      ⟨(civilFromDays z).year + 400 * 5, (civilFromDays z).month, (civilFromDays z).day⟩ := by
    congr 1 <;> omega
  have hdays := daysFromCivil_add_cycles (civilFromDays z).year (civilFromDays z).month
    (civilFromDays z).day 5
  have hinv : daysFromCivil ⟨(civilFromDays z).year, (civilFromDays z).month,
      (civilFromDays z).day⟩ = z := daysFromCivil_civilFromDays z
  rw [hlate, hdays, hinv]
  omega

end Lcom
