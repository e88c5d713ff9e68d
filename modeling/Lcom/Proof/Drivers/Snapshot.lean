import Lcom.Drivers.RtcRead

/-!
# Is the date that was read ever the time?

`rtc_read_date_time` looks for an update in progress once and then reads seven registers. An update
that finishes in between is harmless as long as it leaves the registers alone that are still to be
read (`KeepsUnread`); then everything stored is the time of the instant at which the seconds were
read (`readDateTime_one_instant`). A carry past the register read last is the failing case.
-/

namespace Lcom

open Lib Prog

/-- An update after the seconds have been read does not change what is still to be read. -/
def KeepsUnread (chip : RtcChip) (step : RtcStep) : Prop :=
  ∀ time, step = .update time → rtcSecondsReg ∈ chip.served → ∀ addr ∉ chip.served,
    (time.register addr).map bcdToDec = (chip.time.register addr).map bcdToDec

/-- What is still to be read decodes as it did at `time`. -/
def UnreadAs (time : RtcTime) (chip : RtcChip) : Prop :=
  ∀ addr ∉ chip.served,
    (chip.time.register addr).map bcdToDec = (time.register addr).map bcdToDec

/-! ## Updates between two accesses -/

/-- Updates touch the time only, and of it only what has been read. -/
theorem run_updates {us : List RtcStep} (hus : ∀ u ∈ us, u.access? = none) {chip chip' : RtcChip}
    (hrun : run rtcStep chip us = some chip') (hkeeps : EveryStep rtcStep KeepsUnread chip us) :
    chip'.selected = chip.selected ∧ chip'.served = chip.served ∧
      ∀ time, rtcSecondsReg ∈ chip.served → UnreadAs time chip → UnreadAs time chip' := by
  induction us generalizing chip with
  | nil =>
    cases hrun
    exact ⟨rfl, rfl, fun _ _ h => h⟩
  | cons u us ih =>
    obtain ⟨chip₁, hstep, hrest⟩ := run_cons_eq_some.mp hrun
    obtain ⟨hkeep, hkeeps⟩ := (everyStep_cons hstep).mp hkeeps
    cases u with
    | update time' =>
      cases hstep
      obtain ⟨hselected, hserved, hunread⟩ :=
        ih (fun u hu => hus u (List.mem_cons_of_mem _ hu)) hrest hkeeps
      refine ⟨hselected, hserved, fun time hseconds h => hunread time hseconds ?_⟩
      intro addr haddr
      exact (hkeep time' rfl hseconds addr haddr).trans (h addr haddr)
    | access e => exact absurd (hus _ List.mem_cons_self) (by simp [RtcStep.access?])

/-- The next access of a program, and the run up to it and from it on. -/
theorem next_access {α : Type} {q : PortOp} {k : Reply → Driver α} {a : α} {steps : List RtcStep}
    {chip chip' : RtcChip} (hp : (Prog.ask q k).Runs (accesses steps) a)
    (hrun : run rtcStep chip steps = some chip')
    (hkeeps : EveryStep rtcStep KeepsUnread chip steps) :
    ∃ us r rest chip₁ chip₂, steps = us ++ .access (q, r) :: rest ∧
      run rtcStep chip us = some chip₁ ∧ rtcStep chip₁ (.access (q, r)) = some chip₂ ∧
      run rtcStep chip₂ rest = some chip' ∧ EveryStep rtcStep KeepsUnread chip₂ rest ∧
      (k r).Runs (accesses rest) a ∧ chip₁.selected = chip.selected ∧
      chip₁.served = chip.served ∧
      ∀ time, rtcSecondsReg ∈ chip.served → UnreadAs time chip → UnreadAs time chip₁ := by
  obtain ⟨r, tr, htr, hk⟩ := runs_ask.mp hp
  obtain ⟨us, step, rest, rfl, hus, hstep, hrest⟩ := List.filterMap_eq_cons_iff.mp htr
  cases step with
  | update time => cases hstep
  | access e =>
    cases hstep
    obtain ⟨chip₁, hrun₁, hrun⟩ := run_append_eq_some.mp hrun
    obtain ⟨chip₂, hstep, hrun₂⟩ := run_cons_eq_some.mp hrun
    have hkeeps₂ := ((everyStep_cons hstep).mp (hkeeps.right hrun₁)).2
    obtain ⟨hselected, hserved, hunread⟩ := run_updates hus hrun₁ hkeeps.left
    exact ⟨us, r, rest, chip₁, chip₂, rfl, hrun₁, hstep, hrun₂, hkeeps₂, by rw [accesses, hrest]; exact hk,
      hselected, hserved, hunread⟩

/-! ## One register -/

theorem rtcStep_address {chip : RtcChip} {r : Reply} (hr : r.failed = false) (addr : UInt8) :
    rtcStep chip (.access (.outb rtcAddrReg addr, r)) = some { chip with selected := addr } :=
  if_pos ⟨rfl, hr⟩

theorem rtcStep_data {chip chip' : RtcChip} {r : Reply} (hr : r.failed = false) :
    rtcStep chip (.access (.inb rtcDataReg, r)) = some chip' ↔
      (chip.time.register chip.selected = none ∨
        chip.time.register chip.selected = some r.val.toUInt8) ∧
      { chip with served := chip.selected :: chip.served } = chip' := by
  have hstep : rtcStep chip (.access (.inb rtcDataReg, r)) =
      if chip.time.register chip.selected = none ∨
          chip.time.register chip.selected = some r.val.toUInt8 then
        some { chip with served := chip.selected :: chip.served }
      else none := if_pos ⟨rfl, hr⟩
  rw [hstep]
  by_cases h : chip.time.register chip.selected = none ∨
      chip.time.register chip.selected = some r.val.toUInt8
  · rw [if_pos h, Option.some.injEq, and_iff_right h]
  · rw [if_neg h]
    exact iff_of_false (fun h => nomatch h) fun hand => h hand.1

/-- What reading a register does to a run: the run up to the data, the state there, and the rest. -/
theorem read_register {β : Type} {addr : UInt8} {f : Option UInt8 → Driver β} {b : β}
    {steps : List RtcStep} {chip chip' : RtcChip}
    (hp : (rtcReadRegister addr >>= f).Runs (accesses steps) b)
    (hfail : ∀ tr, ¬ (f none).Runs tr b) (hrun : run rtcStep chip steps = some chip')
    (hkeeps : EveryStep rtcStep KeepsUnread chip steps) :
    ∃ pre rest chip₁ v, steps = pre ++ rest ∧ run rtcStep chip pre = some chip₁ ∧
      run rtcStep chip₁ rest = some chip' ∧ EveryStep rtcStep KeepsUnread chip₁ rest ∧
      (f (some v)).Runs (accesses rest) b ∧ chip₁.served = addr :: chip.served ∧
      (chip₁.time.register addr = none ∨ chip₁.time.register addr = some v) ∧
      ∀ time, rtcSecondsReg ∈ chip.served → UnreadAs time chip → ∀ a ∉ chip.served,
        (chip₁.time.register a).map bcdToDec = (time.register a).map bcdToDec := by
  obtain ⟨us, r, rest, chip₁, chip₂, rfl, hrun₁, hstep₁, hrun₂, hkeeps₂, hk, -, hserved₁, hunread₁⟩ :=
    next_access hp hrun hkeeps
  change ((if r.failed then pure none else utilSysInb rtcDataReg) >>= f).Runs (accesses rest) b at hk
  cases hr : r.failed with
  | true =>
    rw [if_pos hr] at hk
    exact absurd hk (hfail _)
  | false =>
    rw [if_neg (by rw [hr]; decide)] at hk
    rw [rtcStep_address hr] at hstep₁
    cases hstep₁
    obtain ⟨us', r', rest', chip₃, chip₄, rfl, hrun₃, hstep₃, hrun₄, hkeeps₄, hk', hselected₃,
      hserved₃, hunread₃⟩ := next_access hk hrun₂ hkeeps₂
    change ((if r'.failed then pure none else pure (some r'.val.toUInt8)) >>= f).Runs
      (accesses rest') b at hk'
    cases hr' : r'.failed with
    | true =>
      rw [if_pos hr'] at hk'
      exact absurd hk' (hfail _)
    | false =>
      rw [if_neg (by rw [hr']; decide)] at hk'
      obtain ⟨hregister, rfl⟩ := (rtcStep_data hr').mp hstep₃
      have hselected : chip₃.selected = addr := hselected₃
      have hserved : chip₃.served = chip.served := hserved₃.trans hserved₁
      refine ⟨us ++ .access (.outb rtcAddrReg addr, r) :: (us' ++
          [.access (.inb rtcDataReg, r')]), rest', _, r'.val.toUInt8, by simp, ?_, hrun₄, hkeeps₄,
        hk', ?_, hselected ▸ hregister, fun time hseconds h a ha => ?_⟩
      · refine run_append_eq_some.mpr ⟨chip₁, hrun₁, run_cons_eq_some.mpr
          ⟨_, rtcStep_address hr addr, run_append_eq_some.mpr ⟨chip₃, hrun₃, ?_⟩⟩⟩
        exact run_cons_eq_some.mpr ⟨_, hstep₃, rfl⟩
      · rw [hselected, hserved]
      · rw [hserved₁] at hunread₃
        exact hunread₃ time hseconds (fun b hb => hunread₁ time hseconds h b (hserved₁ ▸ hb)) a
          (hserved ▸ ha)

/-- The same for a time register, once the seconds have been read at `time`. -/
theorem read_time_register {β : Type} {addr : UInt8} {f : Option UInt8 → Driver β} {b : β}
    {steps : List RtcStep} {chip chip' : RtcChip} {time : RtcTime}
    (hp : (rtcReadRegister addr >>= f).Runs (accesses steps) b)
    (hfail : ∀ tr, ¬ (f none).Runs tr b) (hrun : run rtcStep chip steps = some chip')
    (hkeeps : EveryStep rtcStep KeepsUnread chip steps) (hseconds : rtcSecondsReg ∈ chip.served)
    (hunread : UnreadAs time chip) (haddr : addr ∉ chip.served) {t : UInt8}
    (ht : time.register addr = some t) :
    ∃ rest chip₁ v, run rtcStep chip₁ rest = some chip' ∧
      EveryStep rtcStep KeepsUnread chip₁ rest ∧ (f (some v)).Runs (accesses rest) b ∧
      chip₁.served = addr :: chip.served ∧ UnreadAs time chip₁ ∧ bcdToDec v = bcdToDec t := by
  obtain ⟨pre, rest, chip₁, v, -, -, hrun₁, hkeeps₁, hf, hserved, hregister, hdecoded⟩ :=
    read_register hp hfail hrun hkeeps
  have hsame := hdecoded time hseconds hunread
  refine ⟨rest, chip₁, v, hrun₁, hkeeps₁, hf, hserved, fun a ha => hsame a fun hmem => ha ?_, ?_⟩
  · rw [hserved]
    exact List.mem_cons_of_mem _ hmem
  · have heq := hsame addr haddr
    rw [ht] at heq
    rcases hregister with hnone | hv
    · rw [hnone] at heq
      cases heq
    · rw [hv] at heq
      exact Option.some.inj heq

/-! ## The whole date -/

theorem not_runs_failure {rtc_dt : Option RtcDateTime} {stored : RtcDateTime}
    (tr : List PortEvent) :
    ¬ (pure (1, rtc_dt) : Driver (Int × Option RtcDateTime)).Runs tr (0, some stored) := by
  intro h
  have hcode := (runs_ret.mp h).2
  exact absurd (Prod.mk.inj hcode).1 (by decide)

/-- **A date is read at one instant** in every run in which the updates between the seconds and the
    year leave the registers that are still to be read as they were. -/
theorem readDateTime_one_instant {steps : List RtcStep} {chip chip' : RtcChip}
    {rtc_dt : Option RtcDateTime} {stored : RtcDateTime} (hserved : chip.served = [])
    (hrun : run rtcStep chip steps = some chip')
    (hret : (rtcReadDateTime rtc_dt).Runs (accesses steps) (0, some stored))
    (hkeeps : EveryStep rtcStep KeepsUnread chip steps) :
    ∃ pre post chip₀, steps = pre ++ post ∧ run rtcStep chip pre = some chip₀ ∧
      stored = chip₀.time.decoded := by
  unfold rtcReadDateTime rtcUpdateInProgress at hret
  rw [bind_assoc] at hret
  -- the flag is read, and then the seconds at the instant that counts
  obtain ⟨pre, rest, chipA, status, rfl, hrunA, hrun, hkeeps, hret, hservedA, -, -⟩ :=
    read_register hret not_runs_failure hrun hkeeps
  cases hflag : anyBit status 0x80 with
  | true =>
    dsimp only at hret
    rw [if_pos hflag, pure_eq, ret_bind, if_pos rfl] at hret
    exact absurd hret (not_runs_failure _)
  | false =>
    dsimp only at hret
    rw [if_neg (by rw [hflag]; decide), pure_eq, ret_bind, if_neg (by decide)] at hret
    split at hret
    · exact absurd hret (not_runs_failure _)
    rw [hserved] at hservedA
    obtain ⟨preS, rest, chip₀, seconds, rfl, hrunS, hrun, hkeeps, hret, hserved₀, hseconds, -⟩ :=
      read_register hret not_runs_failure hrun hkeeps
    refine ⟨pre ++ preS, rest, chip₀, (List.append_assoc _ _ _).symm,
      run_append_eq_some.mpr ⟨chipA, hrunA, hrunS⟩, ?_⟩
    rw [hservedA] at hserved₀
    have hunread : UnreadAs chip₀.time chip₀ := fun _ _ => rfl
    -- from here on every register decodes as it does at that instant
    obtain ⟨rest, chip₁, minutes, hrun, hkeeps, hret, hserved₁, hunread, hminutes⟩ :=
      read_time_register hret not_runs_failure hrun hkeeps (by rw [hserved₀]; decide) hunread
        (by rw [hserved₀]; decide) (rfl : _ = some chip₀.time.minutes)
    rw [hserved₀] at hserved₁
    obtain ⟨rest, chip₂, hours, hrun, hkeeps, hret, hserved₂, hunread, hhours⟩ :=
      read_time_register hret not_runs_failure hrun hkeeps (by rw [hserved₁]; decide) hunread
        (by rw [hserved₁]; decide) (rfl : _ = some chip₀.time.hours)
    rw [hserved₁] at hserved₂
    obtain ⟨rest, chip₃, day_of_week, hrun, hkeeps, hret, hserved₃, hunread, hday_of_week⟩ :=
      read_time_register hret not_runs_failure hrun hkeeps (by rw [hserved₂]; decide) hunread
        (by rw [hserved₂]; decide) (rfl : _ = some chip₀.time.day_of_week)
    rw [hserved₂] at hserved₃
    obtain ⟨rest, chip₄, day, hrun, hkeeps, hret, hserved₄, hunread, hday⟩ :=
      read_time_register hret not_runs_failure hrun hkeeps (by rw [hserved₃]; decide) hunread
        (by rw [hserved₃]; decide) (rfl : _ = some chip₀.time.day)
    rw [hserved₃] at hserved₄
    obtain ⟨rest, chip₅, month, hrun, hkeeps, hret, hserved₅, hunread, hmonth⟩ :=
      read_time_register hret not_runs_failure hrun hkeeps (by rw [hserved₄]; decide) hunread
        (by rw [hserved₄]; decide) (rfl : _ = some chip₀.time.month)
    rw [hserved₄] at hserved₅
    obtain ⟨rest, chip₆, year, hrun, hkeeps, hret, hserved₆, hunread, hyear⟩ :=
      read_time_register hret not_runs_failure hrun hkeeps (by rw [hserved₅]; decide) hunread
        (by rw [hserved₅]; decide) (rfl : _ = some chip₀.time.year)
    rw [hserved₅] at hserved₆
    obtain ⟨-, hstored⟩ := runs_ret.mp hret
    have hseconds' : chip₀.time.seconds = seconds := by
      rcases hseconds with hnone | hsome
      · cases hnone
      · exact Option.some.inj hsome
    obtain ⟨-, hstored⟩ := Prod.mk.inj hstored
    rw [← Option.some.inj hstored, hminutes, hhours, hday_of_week, hday, hmonth, hyear, ← hseconds']
    rfl

/-- A register that is selected and read without a failure. -/
def readSteps (addr v : UInt8) : List RtcStep :=
  [.access (.outb rtcAddrReg addr, ⟨false, 0⟩), .access (.inb rtcDataReg, ⟨false, v.toUInt32⟩)]

/-- One second before one o'clock, and one o'clock. -/
def beforeOne : RtcTime := ⟨0x59, 0x59, 0x12, 0x01, 0x01, 0x06, 0x25⟩
def oneOClock : RtcTime := ⟨0x00, 0x00, 0x13, 0x01, 0x01, 0x06, 0x25⟩

/-- The seconds are read before the update `us`, everything else after it, at `time`. -/
def readAround (us : List RtcStep) (time : RtcTime) : List RtcStep :=
  readSteps rtcStatusAReg 0x26 ++ readSteps rtcSecondsReg 0x59 ++ us ++
    readSteps rtcMinutesReg time.minutes ++ readSteps rtcHoursReg time.hours ++
    readSteps rtcDayWeekReg time.day_of_week ++ readSteps rtcDayMonthReg time.day ++
    readSteps rtcMonthReg time.month ++ readSteps rtcYearReg time.year

theorem keepsUnread_of_accesses {steps : List RtcStep} (h : ∀ s ∈ steps, s.access? ≠ none)
    (chip : RtcChip) : EveryStep rtcStep KeepsUnread chip steps := by
  intro pre step post chip₁ hsteps _ time hstep
  subst hsteps hstep
  exact absurd rfl (h (.update time) (by simp))

/-- Without an update the call stores the time. -/
theorem readDateTime_quiet :
    ∃ pre post chip₀, readAround [] beforeOne = pre ++ post ∧
      run rtcStep ⟨0, beforeOne, []⟩ pre = some chip₀ ∧
      (⟨59, 59, 12, 1, 1, 6, 25⟩ : RtcDateTime) = chip₀.time.decoded :=
  @readDateTime_one_instant (readAround [] beforeOne) ⟨0, beforeOne, []⟩
    ⟨9, beforeOne, [9, 8, 7, 6, 4, 2, 0, 10]⟩ (some ⟨0, 0, 0, 0, 0, 0, 0⟩) _ rfl
    (by decide +kernel) (by decide +kernel) (keepsUnread_of_accesses (by decide +kernel) _)

/-- At the turn of the hour: 13:00:59 is stored, which is neither of the two times. -/
theorem readDateTime_torn :
    ¬ ∀ steps chip chip' rtc_dt stored, chip.served = [] → run rtcStep chip steps = some chip' →
      (rtcReadDateTime rtc_dt).Runs (accesses steps) (0, some stored) →
      ∃ pre post chip₀, steps = pre ++ post ∧ run rtcStep chip pre = some chip₀ ∧
        stored = chip₀.time.decoded := by
  intro h
  obtain ⟨pre, post, chip₀, hsteps, hrun, hstored⟩ :=
    h (readAround [.update oneOClock] oneOClock) ⟨0, beforeOne, []⟩
      ⟨9, oneOClock, [9, 8, 7, 6, 4, 2, 0, 10]⟩ (some ⟨0, 0, 0, 0, 0, 0, 0⟩)
      ⟨59, 0, 13, 1, 1, 6, 25⟩ rfl (by decide +kernel) (by decide +kernel)
  have hall : ∀ n < 18, ∀ chip ∈ run rtcStep ⟨0, beforeOne, []⟩
      ((readAround [.update oneOClock] oneOClock).take n),
        (⟨59, 0, 13, 1, 1, 6, 25⟩ : RtcDateTime) ≠ chip.time.decoded := by decide +kernel
  have hlen : pre.length < 18 := by
    have hlength := congrArg List.length hsteps
    rw [List.length_append] at hlength
    have htotal : (readAround [.update oneOClock] oneOClock).length = 17 := by decide
    omega
  refine hall pre.length hlen chip₀ ?_ hstored
  rw [hsteps, List.take_left]
  exact hrun

end Lcom
