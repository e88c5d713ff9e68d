import Mathlib.Tactic

/-!
# The proleptic Gregorian calendar

Days are counted from 1970-01-01, years are astronomical, months run from 0 to 11 and days of the
month from 1. `civilFromDays` splits a day number by cycles of 400, 100, 4 and 1 years;
`daysFromCivil` is the sum it undoes, and accepts months outside `0 .. 11`, which it carries into
the year.

* `daysFromCivil_civilFromDays` — the two are inverse on every day;
* `civilFromDays_valid` — the fields are in their ranges;
* `daysFromCivil_add_cycles` — the calendar repeats every 400 years, which are 146097 days.
-/

namespace Lcom
namespace Lib

structure Civil where
  year : Int
  month : Int
  day : Int
  deriving DecidableEq, Repr

def isLeap (y : Int) : Bool := y % 4 == 0 && (y % 100 != 0 || y % 400 == 0)

/-- The day number of 1 January. -/
def daysBeforeYear (y : Int) : Int :=
  365 * (y - 1) + (y - 1) / 4 - (y - 1) / 100 + (y - 1) / 400 - 719162

/-- The days of a year before its month `m`. -/
def daysBeforeMonth (leap : Bool) (m : Int) : Int :=
  let days := [0, 31, 59, 90, 120, 151, 181, 212, 243, 273, 304, 334].getD m.toNat 0
  if leap && decide (2 ≤ m) then days + 1 else days

def daysFromCivil (c : Civil) : Int :=
  let year := c.year + c.month / 12
  daysBeforeYear year + daysBeforeMonth (isLeap year) (c.month % 12) + (c.day - 1)

/-- The year a day is in. The last year of a 100-year and of a 4-year cycle may be a day longer
    than the others, hence the two cut-offs. -/
def yearOf (z : Int) : Int :=
  let days := z + 719162
  let n400 := days / 146097
  let days := days % 146097
  let n100 := min (days / 36524) 3
  let days := days - 36524 * n100
  let n4 := days / 1461
  let days := days % 1461
  let n1 := min (days / 365) 3
  400 * n400 + 100 * n100 + 4 * n4 + n1 + 1

/-- The month the `doy`-th day of a year is in. -/
def monthOf (leap : Bool) (doy : Int) : Int :=
  ((List.range 11).filter fun m => decide (daysBeforeMonth leap (m + 1) ≤ doy)).length

def civilFromDays (z : Int) : Civil :=
  let year := yearOf z
  let doy := z - daysBeforeYear year
  let month := monthOf (isLeap year) doy
  { year, month, day := doy - daysBeforeMonth (isLeap year) month + 1 }

/-! ## Years -/

/-- A year given by its cycles: `a` of 400 years, `b` of 100, `c` of 4, and `e` single years. -/
theorem daysBeforeYear_cycles {a b c e : Int} (hb : 0 ≤ b ∧ b ≤ 3) (hc : 0 ≤ c ∧ c ≤ 24)
    (he : 0 ≤ e ∧ e ≤ 3) :
    daysBeforeYear (400 * a + 100 * b + 4 * c + e + 1) =
      146097 * a + 36524 * b + 1461 * c + 365 * e - 719162 := by
  have h4 : (400 * a + 100 * b + 4 * c + e + 1 - 1) / 4 = 100 * a + 25 * b + c := by omega
  have h100 : (400 * a + 100 * b + 4 * c + e + 1 - 1) / 100 = 4 * a + b := by omega
  have h400 : (400 * a + 100 * b + 4 * c + e + 1 - 1) / 400 = a := by omega
  rw [daysBeforeYear, h4, h100, h400]
  omega

theorem isLeap_cycles {a b c e : Int} (hb : 0 ≤ b ∧ b ≤ 3) (hc : 0 ≤ c ∧ c ≤ 24)
    (he : 0 ≤ e ∧ e ≤ 3) :
    isLeap (400 * a + 100 * b + 4 * c + e + 1) = decide (e = 3 ∧ (c ≠ 24 ∨ b = 3)) := by
  have h4 : (400 * a + 100 * b + 4 * c + e + 1) % 4 = 0 ↔ e = 3 := by omega
  have h100 : (400 * a + 100 * b + 4 * c + e + 1) % 100 = 0 ↔ e = 3 ∧ c = 24 := by omega
  have h400 : (400 * a + 100 * b + 4 * c + e + 1) % 400 = 0 ↔ e = 3 ∧ c = 24 ∧ b = 3 := by omega
  rw [Bool.eq_iff_iff]
  simp only [isLeap, Bool.and_eq_true, Bool.or_eq_true, beq_iff_eq, bne_iff_ne, ne_eq, h4, h100,
    h400, decide_eq_true_eq]
  omega

theorem yearOf_bounds (z : Int) :
    daysBeforeYear (yearOf z) ≤ z ∧
      z - daysBeforeYear (yearOf z) < 365 + (isLeap (yearOf z)).toNat := by
  obtain ⟨a, ha⟩ : ∃ a, a = (z + 719162) / 146097 := ⟨_, rfl⟩
  obtain ⟨r, hr⟩ : ∃ r, r = (z + 719162) % 146097 := ⟨_, rfl⟩
  obtain ⟨b, hb⟩ : ∃ b, b = min (r / 36524) 3 := ⟨_, rfl⟩
  obtain ⟨c, hc⟩ : ∃ c, c = (r - 36524 * b) / 1461 := ⟨_, rfl⟩
  obtain ⟨r', hr'⟩ : ∃ r', r' = (r - 36524 * b) % 1461 := ⟨_, rfl⟩
  obtain ⟨e, he⟩ : ∃ e, e = min (r' / 365) 3 := ⟨_, rfl⟩
  have hyear : yearOf z = 400 * a + 100 * b + 4 * c + e + 1 := by
    rw [yearOf, ha, hb, hc, he, hr', hr, hb, hr]
  -- the cut-offs keep the 4-year and 1-year quotients inside their cycles
  have hb3 : 0 ≤ b ∧ b ≤ 3 := by omega
  have hc24 : 0 ≤ c ∧ c ≤ 24 := by omega
  have he3 : 0 ≤ e ∧ e ≤ 3 := by omega
  rw [hyear, daysBeforeYear_cycles hb3 hc24 he3, isLeap_cycles hb3 hc24 he3]
  have hz : z = 146097 * a + 36524 * b + 1461 * c + r' - 719162 := by omega
  refine ⟨by omega, ?_⟩
  by_cases hleap : e = 3 ∧ (c ≠ 24 ∨ b = 3)
  · rw [decide_eq_true hleap, Bool.toNat_true]
    omega
  · rw [decide_eq_false hleap, Bool.toNat_false]
    omega

theorem daysBeforeYear_add_cycles (y k : Int) :
    daysBeforeYear (y + 400 * k) = daysBeforeYear y + 146097 * k := by
  unfold daysBeforeYear
  omega

theorem isLeap_add_cycles (y k : Int) : isLeap (y + 400 * k) = isLeap y := by
  have h4 : (y + 400 * k) % 4 = y % 4 := by omega
  have h100 : (y + 400 * k) % 100 = y % 100 := by omega
  have h400 : (y + 400 * k) % 400 = y % 400 := by omega
  rw [isLeap, h4, h100, h400, isLeap]

/-! ## Months -/

theorem monthOf_bounds (leap : Bool) {doy : Int} (h0 : 0 ≤ doy) (h : doy < 365 + leap.toNat) :
    0 ≤ monthOf leap doy ∧ monthOf leap doy < 12 ∧
      daysBeforeMonth leap (monthOf leap doy) ≤ doy ∧
      doy < daysBeforeMonth leap (monthOf leap doy) + 31 := by
  have hall : ∀ leap : Bool, ∀ n < 365 + leap.toNat,
      0 ≤ monthOf leap n ∧ monthOf leap n < 12 ∧ daysBeforeMonth leap (monthOf leap n) ≤ n ∧
        (n : Int) < daysBeforeMonth leap (monthOf leap n) + 31 := by
    decide +kernel
  lift doy to Nat using h0
  exact hall leap doy (by exact_mod_cast h)

/-! ## Dates -/

theorem civilFromDays_valid (z : Int) :
    (0 ≤ (civilFromDays z).month ∧ (civilFromDays z).month < 12) ∧
      1 ≤ (civilFromDays z).day ∧ (civilFromDays z).day ≤ 31 := by
  obtain ⟨hle, hlt⟩ := yearOf_bounds z
  obtain ⟨h0, h12, hday, hday'⟩ := monthOf_bounds (isLeap (yearOf z)) (by omega) hlt
  refine ⟨⟨h0, h12⟩, ?_, ?_⟩
  · simp only [civilFromDays]
    omega
  · simp only [civilFromDays]
    omega

/-- **Every day is the day its date names.** -/
theorem daysFromCivil_civilFromDays (z : Int) : daysFromCivil (civilFromDays z) = z := by
  obtain ⟨⟨h0, h12⟩, -⟩ := civilFromDays_valid z
  have hdiv : (civilFromDays z).month / 12 = 0 := by omega
  have hmod : (civilFromDays z).month % 12 = (civilFromDays z).month := by omega
  rw [daysFromCivil, hdiv, hmod]
  simp only [civilFromDays, add_zero]
  omega

/-- **The calendar repeats every 400 years.** -/
theorem daysFromCivil_add_cycles (y m d k : Int) :
    daysFromCivil ⟨y + 400 * k, m, d⟩ = daysFromCivil ⟨y, m, d⟩ + 146097 * k := by
  have hyear : y + 400 * k + m / 12 = y + m / 12 + 400 * k := by omega
  simp only [daysFromCivil, hyear, daysBeforeYear_add_cycles, isLeap_add_cycles]
  omega

end Lib
end Lcom
