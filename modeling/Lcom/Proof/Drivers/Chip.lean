import Lcom.Lab2.TimerTest
import Lcom.Lib.Refine
import Lcom.Proof.Drivers.Timer

/-!
# The timers behind the driver

`Chip` is the i8254 as its four ports show it: control words, read-back commands and the bytes of a
count are written to it, and a status that was latched is read from it. Of the other reads, which give
the count, nothing is assumed. `Timers` is what the driver makes of it: three timers with a mode and a
divisor.

The read-back command of a call whose read fails leaves a status latched, the chip ignores the next
one, and the call after it is given that old status. It does no harm, since the driver writes a control
word only after it has taken the status of that timer (`Chip.Settled`).
-/

namespace Lcom

open Lib

/-! ## The chip -/

/-- A counter: the six low bits of the last control word, the first byte of a count whose second is
    awaited, the bytes of the last count since that control word, and the latched status. -/
structure Counter where
  control : UInt8
  first : Option UInt8
  count : Option (UInt8 × UInt8)
  status : Option UInt8
  deriving DecidableEq, Repr

namespace Counter

/-- A status that is latched already stays. -/
def latch (c : Counter) : Counter := { c with status := some (c.status.getD c.control) }

/-- A byte of the count, as the last control word has announced it. -/
def load (c : Counter) (value : UInt8) : Counter :=
  if c.control &&& 0x30 = 0x10 then { c with count := some (value, 0) }
  else if c.control &&& 0x30 = 0x20 then { c with count := some (0, value) }
  else
    match c.first with
    | none => { c with first := some value }
    | some lsb => { c with first := none, count := some (lsb, value) }

end Counter

/-- The counters by their numbers, which are 0 to 2. -/
abbrev Chip := UInt8 → Counter

namespace Chip

/-- The counter that a port belongs to. -/
def counterOf (port : UInt16) : Option UInt8 :=
  if 0x40 ≤ port ∧ port ≤ 0x42 then some (port.toUInt8 - 0x40) else none

/-- A byte in the control register: a read-back command, of which bit 4 is low if it latches the
    status and bits 1 to 3 select the counters, a command that latches a count, or a control word. -/
def command (chip : Chip) (value : UInt8) : Chip :=
  if value >>> 6 = 3 then
    if anyBit value 0x10 then chip
    else fun timer =>
      if timer ≤ 2 ∧ anyBit value (1 <<< (timer + 1)) then (chip timer).latch else chip timer
  else if value &&& 0x30 = 0 then chip
  else Function.update chip (value >>> 6)
    { chip (value >>> 6) with control := value &&& 0x3f, first := none, count := none }

/-- A byte written to a port. -/
def write (chip : Chip) (port : UInt16) (value : UInt8) : Chip :=
  if port = 0x43 then chip.command value
  else
    match counterOf port with
    | none => chip
    | some timer => Function.update chip timer ((chip timer).load value)

/-- A byte read from a port: a latched status comes first, under the two bits that show the output and
    whether the count has been taken. -/
def read (chip : Chip) (port : UInt16) (value : UInt8) : Option Chip :=
  match counterOf port with
  | none => some chip
  | some timer =>
    match (chip timer).status with
    | none => some chip
    | some st =>
      if value &&& 0x3f = st &&& 0x3f then
        some (Function.update chip timer { chip timer with status := none })
      else none

/-- An access with its answer; one that fails does not reach the chip. -/
def step (chip : Chip) : PortEvent → Option Chip
  | (.outb port value, r) => if r.failed then some chip else some (chip.write port value)
  | (.inb port, r) => if r.failed then some chip else chip.read port r.val.toUInt8

/-- A latched status is the one the counter has now. -/
def Settled (chip : Chip) : Prop :=
  ∀ timer st, (chip timer).status = some st → st = (chip timer).control

end Chip

/-! ## The timers -/

/-- How a timer is loaded, its counting mode and its base, as a control word has them, and what it
    divides the clock by. -/
structure TimerSetting where
  control : UInt8
  divisor : Option Nat
  deriving DecidableEq, Repr

/-- The timers by their numbers. -/
abbrev Timers := UInt8 → TimerSetting

/-- What a counter of the chip comes to. -/
def Counter.setting (c : Counter) : TimerSetting where
  control := c.control
  divisor := c.count.bind fun count => divisor (anyBit c.control timerBcd) count.1 count.2

def Chip.timers (chip : Chip) : Timers := Counter.setting ∘ chip

/-- The control word of a timer whose counting mode and base are kept. -/
def reloaded (control : UInt8) : UInt8 := timerLsbMsb ||| (control &&& 0x0f)

/-- The divisor for a frequency. Of a timer that counts in BCD nothing is promised, except where the
    quotient has one digit: the driver writes it in binary (`divisor_bytes_iff`). -/
def DividesFor (control : UInt8) (freq : UInt32) (divisor : Option Nat) : Prop :=
  anyBit control timerBcd = false ∨ 1193182 / freq.toNat ≤ 9 →
    divisor = some (1193182 / freq.toNat)

def Timers.program (s : Timers) (timer : UInt8) (divisor : Option Nat) : Timers :=
  Function.update s timer ⟨reloaded (s timer).control, divisor⟩

/-- The calls of lab 2 that touch the timers. -/
inductive TimerCall where
  | readConfig (timer : UInt8) (field : TimerStatusField)
  | timeBase (timer : UInt8) (freq : UInt32)
  deriving DecidableEq, Repr

def TimerCall.timer : TimerCall → UInt8
  | .readConfig timer _ => timer
  | .timeBase timer _ => timer

/-- The code of a call, and what it printed. -/
abbrev TimerResult := Int × Option TimerStatusFieldVal

section
variable (timerPrintConfig : UInt8 → TimerStatusField → TimerStatusFieldVal → Int)

def TimerCall.perform : TimerCall → Driver TimerResult
  | .readConfig timer field => timerTestReadConfig timerPrintConfig timer field
  | .timeBase timer freq => do
    let r ← timerTestTimeBase timer freq
    pure (r, none)

/-- What a call does to the timers, and what it says. Only a frequency that some divisor gives is ever
    programmed; a call that fails on the way has left the timer as it was, or without a count. -/
inductive Timers.Next (s : Timers) : TimerCall × TimerResult → Timers → Prop
  | unread (timer : UInt8) (field : TimerStatusField) :
    s.Next (.readConfig timer field, 1, none) s
  | shown (timer : UInt8) (field : TimerStatusField) (st : UInt8)
    (same : st &&& 0x3f = (s timer).control &&& 0x3f) :
    s.Next (.readConfig timer field, timerDisplayConf timerPrintConfig timer st field,
      some (timerFieldVal st field)) s
  | untouched (timer : UInt8) (freq : UInt32) : s.Next (.timeBase timer freq, 1, none) s
  | stopped (timer : UInt8) (freq : UInt32) (lo : 19 ≤ freq.toNat) (hi : freq.toNat ≤ 1193182) :
    s.Next (.timeBase timer freq, 1, none) (s.program timer none)
  | programmed (timer : UInt8) (freq : UInt32) (lo : 19 ≤ freq.toNat) (hi : freq.toNat ≤ 1193182)
    (divisor : Option Nat) (divides : DividesFor (s timer).control freq divisor) :
    s.Next (.timeBase timer freq, 0, none) (s.program timer divisor)

end

/-! ## What the driver's accesses do -/

section
variable {timer : UInt8} {chip : Chip}

/-- A property of bytes, from all of them. -/
theorem forall_byte {P : UInt8 → Prop} (h : ∀ b : BitVec 8, P (UInt8.ofBitVec b)) (v : UInt8) : P v :=
  h v.toBitVec

theorem timer_cases (h : timer ≤ 2) : timer = 0 ∨ timer = 1 ∨ timer = 2 := by
  have hall : ∀ t ≤ 2, UInt8.ofNat t = 0 ∨ UInt8.ofNat t = 1 ∨ UInt8.ofNat t = 2 := by decide
  rw [← UInt8.ofNat_toNat (x := timer)]
  exact hall _ (UInt8.le_iff_toNat_le.mp h)

/-- The ports of a timer. -/
theorem timer_port (h : timer ≤ 2) :
    (timer0 + timer).toUInt16 = timer0.toUInt16 + timer.toUInt16 ∧
      (timer0 + timer).toUInt16 ≠ 0x43 ∧ Chip.counterOf (timer0 + timer).toUInt16 = some timer := by
  rcases timer_cases h with rfl | rfl | rfl <;> decide

/-- The read-back command latches the status of its timer, and of no other. -/
theorem write_readBack (h : timer ≤ 2) :
    chip.write timerCtrl.toUInt16 (timerRbCmd ||| timerRbCount ||| timerRbSel timer) =
      Function.update chip timer (chip timer).latch := by
  have hselects : ∀ other : UInt8, (other ≤ 2 ∧
      anyBit (timerRbCmd ||| timerRbCount ||| timerRbSel timer) (1 <<< (other + 1)) = true) ↔
        other = timer := by
    intro other
    constructor
    · rintro ⟨hother, hbit⟩
      revert hbit
      rcases timer_cases h with rfl | rfl | rfl <;>
        rcases timer_cases hother with rfl | rfl | rfl <;> decide
    · rintro rfl
      refine ⟨h, ?_⟩
      rcases timer_cases h with rfl | rfl | rfl <;> decide
  have hcommand : (timerRbCmd ||| timerRbCount ||| timerRbSel timer) >>> 6 = 3 ∧
      anyBit (timerRbCmd ||| timerRbCount ||| timerRbSel timer) 0x10 = false := by
    rcases timer_cases h with rfl | rfl | rfl <;> decide
  unfold Chip.write Chip.command
  rw [if_pos (by decide), if_pos hcommand.1, if_neg (by rw [hcommand.2]; decide)]
  funext other
  by_cases hother : other = timer
  · subst hother
    rw [if_pos ((hselects other).mpr rfl), Function.update_self]
  · rw [if_neg (mt (hselects other).mp hother), Function.update_of_ne hother]

/-- The control word of the driver, field by field as the chip takes it. -/
theorem control_command (h : timer ≤ 2) (st : UInt8) :
    let control := timerLsbMsb ||| (timer.toUInt32 <<< 6).toUInt8 ||| (st &&& 0x0f)
    control >>> 6 = timer ∧ control >>> 6 ≠ 3 ∧ control &&& 0x30 ≠ 0 ∧
      control &&& 0x3f = reloaded st := by
  revert st
  rcases timer_cases h with rfl | rfl | rfl
  all_goals
    refine forall_byte ?_
    decide +kernel

/-- A control word takes the count away. -/
theorem write_control (h : timer ≤ 2) (st : UInt8) :
    chip.write timerCtrl.toUInt16
        (timerLsbMsb ||| (timer.toUInt32 <<< 6).toUInt8 ||| (st &&& 0x0f)) =
      Function.update chip timer ⟨reloaded st, none, none, (chip timer).status⟩ := by
  obtain ⟨htimer, hselects, hload, hcontrol⟩ := control_command h st
  unfold Chip.write Chip.command
  rw [if_pos (by decide), if_neg hselects, if_neg hload, htimer, hcontrol]

/-- A control word of the driver announces two bytes. -/
theorem reloaded_both (control : UInt8) :
    reloaded control &&& 0x30 ≠ 0x10 ∧ reloaded control &&& 0x30 ≠ 0x20 ∧
      reloaded control &&& 0x0f = control &&& 0x0f := by
  revert control
  refine forall_byte ?_
  decide +kernel

theorem Counter.load_first (control lsb : UInt8) :
    Counter.load ⟨reloaded control, none, none, none⟩ lsb =
      ⟨reloaded control, some lsb, none, none⟩ := by
  obtain ⟨hlsb, hmsb, -⟩ := reloaded_both control
  unfold Counter.load
  rw [if_neg hlsb, if_neg hmsb]

theorem Counter.load_second (control lsb msb : UInt8) :
    Counter.load ⟨reloaded control, some lsb, none, none⟩ msb =
      ⟨reloaded control, none, some (lsb, msb), none⟩ := by
  obtain ⟨hlsb, hmsb, -⟩ := reloaded_both control
  unfold Counter.load
  rw [if_neg hlsb, if_neg hmsb]

/-- A byte for the timer that was written to before. -/
theorem write_count (h : timer ≤ 2) (c : Counter) (value : UInt8) :
    Chip.write (Function.update chip timer c) (timer0 + timer).toUInt16 value =
      Function.update chip timer (c.load value) := by
  obtain ⟨-, hport, hcounter⟩ := timer_port h
  unfold Chip.write
  rw [if_neg hport, hcounter]
  dsimp only
  rw [Function.update_self, Function.update_idem]

end

/-! ## The driver on the chip -/

section
variable {α : Type} {post : Chip → α → Prop} {timer : UInt8} {chip : Chip}

theorem under_outb {port : UInt16} {value : UInt8} {bad rest : Driver α}
    (hbad : bad.Under Chip.step post chip)
    (hrest : rest.Under Chip.step post (chip.write port value)) :
    (sysOutb port value >>= fun r => if r.failed then bad else rest).Under Chip.step post chip := by
  intro r chip' hstep
  change (if r.failed = true then bad else rest).Under Chip.step post chip'
  unfold Chip.step at hstep
  dsimp only at hstep
  split at hstep
  · next hfailed =>
    obtain rfl := Option.some.inj hstep
    rw [if_pos hfailed]
    exact hbad
  · next hfailed =>
    obtain rfl := Option.some.inj hstep
    rw [if_neg hfailed]
    exact hrest

theorem under_utilSysInb {port : UInt16} {post : Chip → Option UInt8 → Prop} (hnone : post chip none)
    (hsome : ∀ value chip', chip.read port value = some chip' → post chip' (some value)) :
    (utilSysInb port).Under Chip.step post chip := by
  intro r chip' hstep
  change Prog.Under Chip.step post chip' (if r.failed = true then Prog.ret none else Prog.ret _)
  unfold Chip.step at hstep
  dsimp only at hstep
  split at hstep
  · next hfailed =>
    obtain rfl := Option.some.inj hstep
    rw [if_pos hfailed]
    exact hnone
  · next hfailed =>
    rw [if_neg hfailed]
    exact hsome _ _ hstep

/-- A counter whose setting stays leaves the timers as they were. -/
theorem timers_update_same {c : Counter} (h : c.setting = (chip timer).setting) :
    Chip.timers (Function.update chip timer c) = chip.timers := by
  unfold Chip.timers
  rw [Function.comp_update, h]
  exact Function.update_eq_self timer _

theorem Chip.Settled.update {c : Counter} (h : chip.Settled)
    (hc : ∀ st, c.status = some st → st = c.control) :
    Chip.Settled (Function.update chip timer c) := by
  intro other st hst
  by_cases hother : other = timer
  · subst hother
    rw [Function.update_self] at hst ⊢
    exact hc st hst
  · rw [Function.update_of_ne hother] at hst ⊢
    exact h other st hst

theorem Chip.Settled.latch (h : chip.Settled) (timer : UInt8) :
    (chip timer).latch.status = some (chip timer).control := by
  unfold Counter.latch
  cases hst : (chip timer).status with
  | none => rfl
  | some st =>
    rw [← h timer st hst]
    rfl

/-- **`timer_get_conf`** changes no timer, and what it gives is the status the timer has now. -/
theorem under_timerGetConf (htimer : timer ≤ 2) (h : chip.Settled) :
    (timerGetConf timer).Under Chip.step (fun chip' o => chip'.Settled ∧ chip'.timers = chip.timers ∧
      ∀ st, o = some st → (chip' timer).status = none ∧
        st &&& 0x3f = (chip timer).control &&& 0x3f) chip := by
  obtain ⟨hsame, -, hcounter⟩ := timer_port htimer
  unfold timerGetConf
  refine under_outb ⟨h, rfl, fun st hst => by cases hst⟩ ?_
  rw [write_readBack htimer, ← hsame]
  have hlatched := h.latch timer
  have hsettled : Chip.Settled (Function.update chip timer (chip timer).latch) :=
    h.update fun st hst => Option.some.inj (hst.symm.trans hlatched)
  have htimers : Chip.timers (Function.update chip timer (chip timer).latch) = chip.timers :=
    timers_update_same rfl
  refine under_utilSysInb ⟨hsettled, htimers, fun st hst => by cases hst⟩ fun value chip' hread => ?_
  unfold Chip.read at hread
  rw [hcounter] at hread
  dsimp only at hread
  rw [Function.update_self, hlatched, Function.update_idem] at hread
  dsimp only at hread
  split at hread
  · next hstatus =>
    obtain rfl := Option.some.inj hread
    refine ⟨h.update fun st hst => (by cases hst), timers_update_same rfl, fun st hst => ?_⟩
    obtain rfl := Option.some.inj hst
    rw [Function.update_self]
    exact ⟨rfl, hstatus⟩
  · cases hread

/-- What the chip makes of the two bytes of the quotient. -/
theorem dividesFor_quotient {control : UInt8} {freq : UInt32} (lo : 19 ≤ freq.toNat)
    (hi : freq.toNat ≤ 1193182) :
    DividesFor control freq (divisor (anyBit control timerBcd)
      (utilGet16Lsb (timerFreq / freq).toUInt16).2 (utilGet16Msb (timerFreq / freq).toUInt16).2) :=
  (divisor_bytes_iff lo hi).mpr

theorem reloaded_of_same {control st : UInt8} (h : st &&& 0x3f = control &&& 0x3f) :
    reloaded st = reloaded control := by
  have hmask : (0x0f : UInt8) = 0x3f &&& 0x0f := rfl
  unfold reloaded
  rw [hmask, ← UInt8.and_assoc, ← UInt8.and_assoc, h]

theorem base_reloaded (control : UInt8) :
    anyBit (reloaded control) timerBcd = anyBit control timerBcd :=
  anyBit_of_keeps (reloaded_both control).2.2

/-- A counter that has been given a control word of the driver, and then a count or a part of it. -/
theorem timers_reloaded {control st : UInt8} (hsame : st &&& 0x3f = control &&& 0x3f)
    (hcontrol : (chip timer).control = control) (first : Option UInt8) (count : Option (UInt8 × UInt8)) :
    Chip.timers (Function.update chip timer ⟨reloaded st, first, count, none⟩) =
      chip.timers.program timer
        (count.bind fun count => divisor (anyBit control timerBcd) count.1 count.2) := by
  unfold Chip.timers Timers.program
  rw [Function.comp_update]
  refine congrArg (Function.update (Counter.setting ∘ chip) timer) ?_
  unfold Counter.setting
  dsimp only [Function.comp_apply]
  rw [hcontrol, reloaded_of_same hsame, base_reloaded]

/-- **`timer_set_frequency`** programs its timer, or fails on the way. -/
theorem under_timerSetFrequency (htimer : timer ≤ 2) (freq : UInt32) (h : chip.Settled) :
    (timerSetFrequency timer freq).Under Chip.step (fun chip' o => chip'.Settled ∧
      ((o = 1 ∧ chip'.timers = chip.timers) ∨
        (19 ≤ freq.toNat ∧ freq.toNat ≤ 1193182 ∧
          ((o = 1 ∧ chip'.timers = chip.timers.program timer none) ∨
            (o = 0 ∧ ∃ divisor, DividesFor (chip timer).control freq divisor ∧
              chip'.timers = chip.timers.program timer divisor))))) chip := by
  unfold timerSetFrequency
  by_cases hrange : freq < 19 ∨ freq > timerFreq
  · rw [if_pos hrange]
    exact ⟨h, .inl ⟨rfl, rfl⟩⟩
  · rw [if_neg hrange]
    have hrange' : 19 ≤ freq.toNat ∧ freq.toNat ≤ 1193182 := by
      rw [not_or, UInt32.not_lt, gt_iff_lt, UInt32.not_lt] at hrange
      exact ⟨UInt32.le_iff_toNat_le.mp hrange.1, UInt32.le_iff_toNat_le.mp hrange.2⟩
    obtain ⟨lo, hi⟩ := hrange'
    refine (under_timerGetConf htimer h).bind fun chip₁ o hgot => ?_
    obtain ⟨hsettled, htimers, hstatus⟩ := hgot
    cases o with
    | none => exact ⟨hsettled, .inl ⟨rfl, htimers⟩⟩
    | some st =>
      obtain ⟨hnone, hsame⟩ := hstatus st rfl
      have hcontrol : (chip₁ timer).control = (chip timer).control :=
        congrArg TimerSetting.control (congrFun htimers timer)
      have hafter : ∀ first count,
          Chip.Settled (Function.update chip₁ timer ⟨reloaded st, first, count, none⟩) ∧
            Chip.timers (Function.update chip₁ timer ⟨reloaded st, first, count, none⟩) =
              chip.timers.program timer (count.bind fun count =>
                divisor (anyBit (chip timer).control timerBcd) count.1 count.2) := by
        intro first count
        refine ⟨hsettled.update fun st hst => (by cases hst), ?_⟩
        rw [timers_reloaded hsame hcontrol, htimers]
      -- the control word, the low byte and the high byte
      refine under_outb ⟨hsettled, .inl ⟨rfl, htimers⟩⟩ ?_
      rw [write_control htimer, hnone]
      refine under_outb ⟨(hafter _ _).1, .inr ⟨lo, hi, .inl ⟨rfl, (hafter _ _).2⟩⟩⟩ ?_
      rw [write_count htimer, Counter.load_first]
      refine under_outb ⟨(hafter _ _).1, .inr ⟨lo, hi, .inl ⟨rfl, (hafter _ _).2⟩⟩⟩ ?_
      rw [write_count htimer, Counter.load_second]
      obtain ⟨hsettled', htimers'⟩ := hafter none (some (_, _))
      exact ⟨hsettled', .inr ⟨lo, hi, .inr ⟨rfl, _, dividesFor_quotient lo hi, htimers'⟩⟩⟩

end

/-! ## Any number of calls -/

section
variable {timerPrintConfig : UInt8 → TimerStatusField → TimerStatusFieldVal → Int}

/-- **One call** is a step of the timers. -/
theorem under_perform {call : TimerCall} (htimer : call.timer ≤ 2) {chip : Chip}
    (h : chip.Settled) :
    (call.perform timerPrintConfig).Under Chip.step (fun chip' o =>
      ∃ s', chip.timers.Next timerPrintConfig (call, o) s' ∧ chip'.Settled ∧ chip'.timers = s')
      chip := by
  cases call with
  | readConfig timer field =>
    refine (under_timerGetConf htimer h).bind fun chip' o hgot => ?_
    obtain ⟨hsettled, htimers, hstatus⟩ := hgot
    cases o with
    | none => exact ⟨_, .unread timer field, hsettled, htimers⟩
    | some st =>
      have hshown : chip.timers.Next timerPrintConfig (.readConfig timer field,
          timerDisplayConf timerPrintConfig timer st field, some (timerFieldVal st field))
          chip.timers := .shown timer field st (hstatus st rfl).2
      dsimp only
      split
      · next hcode =>
        have hone : timerDisplayConf timerPrintConfig timer st field = 1 := by
          unfold timerDisplayConf at hcode ⊢
          split
          · rfl
          · next hzero => exact absurd (if_neg hzero) hcode
        rw [hone] at hshown
        exact ⟨_, hshown, hsettled, htimers⟩
      · next hcode =>
        rw [not_not.mp hcode] at hshown
        exact ⟨_, hshown, hsettled, htimers⟩
  | timeBase timer freq =>
    unfold TimerCall.perform timerTestTimeBase
    dsimp only
    rw [Prog.bind_assoc]
    refine (under_timerSetFrequency htimer freq h).bind fun chip' r hset => ?_
    obtain ⟨hsettled, ⟨rfl, htimers⟩ | ⟨lo, hi, ⟨rfl, htimers⟩ | ⟨rfl, _, hdivides, htimers⟩⟩⟩ := hset
    · exact ⟨_, .untouched timer freq, hsettled, htimers⟩
    · exact ⟨_, .stopped timer freq lo hi, hsettled, htimers⟩
    · exact ⟨_, .programmed timer freq lo hi _ hdivides, hsettled, htimers⟩

/-- Any number of calls is a run of the timers. -/
theorem under_calls {calls : List TimerCall} (hcalls : ∀ call ∈ calls, call.timer ≤ 2) {chip : Chip}
    (h : chip.Settled) :
    (Prog.each (TimerCall.perform timerPrintConfig) calls).Under Chip.step (fun chip' done =>
      done.map Prod.fst = calls ∧ ∃ s', Follows (Timers.Next timerPrintConfig) chip.timers done s' ∧
        chip'.Settled ∧ chip'.timers = s') chip := by
  have hcall : ∀ call ∈ calls, ∀ (m : Chip) (s : Timers), m.Settled ∧ m.timers = s →
      (call.perform timerPrintConfig).Under Chip.step (fun m' o =>
        ∃ s', s.Next timerPrintConfig (call, o) s' ∧ m'.Settled ∧ m'.timers = s') m := by
    rintro call hcall m s ⟨hm, rfl⟩
    exact under_perform (hcalls call hcall) hm
  exact Prog.under_each calls hcall ⟨h, rfl⟩

end

/-- **The driver refines the timers.** Whatever calls are made in whatever order, and whatever fails in
    them, a chip that answers for itself comes to what the timers come to, and every call says what
    they say. -/
theorem driver_refines_timers (timerPrintConfig : UInt8 → TimerStatusField → TimerStatusFieldVal → Int)
    (calls : List TimerCall) (hcalls : ∀ call ∈ calls, call.timer ≤ 2) (chip chip' : Chip)
    (hsettled : chip.Settled) (tr : List PortEvent) (done : List (TimerCall × TimerResult))
    (h : (Prog.each (TimerCall.perform timerPrintConfig) calls).Runs tr done)
    (hchip : run Chip.step chip tr = some chip') :
    done.map Prod.fst = calls ∧ chip'.Settled ∧
      Follows (Timers.Next timerPrintConfig) chip.timers done chip'.timers := by
  obtain ⟨hsame, s', hfollows, hsettled', rfl⟩ := (under_calls hcalls hsettled).runs h hchip
  exact ⟨hsame, hsettled', hfollows⟩

/-- The timers as the boot code leaves them. -/
def bootChip : Chip := fun _ => ⟨0x34, none, none, none⟩

theorem settled_bootChip : bootChip.Settled := fun _ _ hst => by cases hst

def lateCalls : List TimerCall := [.readConfig 0 .tsfMode, .timeBase 0 60]

/-- The read of the first call fails; the second call is given the status the first has latched. -/
def lateTrace : List PortEvent :=
  [(.outb 0x43 0xE2, ⟨false, 0⟩), (.inb 0x40, ⟨true, 0⟩), (.outb 0x43 0xE2, ⟨false, 0⟩),
    (.inb 0x40, ⟨false, 0x34⟩), (.outb 0x43 0x34, ⟨false, 0⟩), (.outb 0x40 0xAE, ⟨false, 0⟩),
    (.outb 0x40 0x4D, ⟨false, 0⟩)]

theorem runs_lateCalls : (Prog.each (TimerCall.perform fun _ _ _ => 0) lateCalls).Runs lateTrace
    [(.readConfig 0 .tsfMode, 1, none), (.timeBase 0 60, 0, none)] := by decide +kernel

theorem driver_refines_timers_late : ∃ chip', run Chip.step bootChip lateTrace = some chip' ∧
    Follows (Timers.Next fun _ _ _ => 0) bootChip.timers
      [(.readConfig 0 .tsfMode, 1, none), (.timeBase 0 60, 0, none)] chip'.timers := by
  obtain ⟨chip', hchip⟩ : ∃ chip', run Chip.step bootChip lateTrace = some chip' := ⟨_, rfl⟩
  obtain ⟨-, -, hfollows⟩ := driver_refines_timers _ lateCalls (by decide) bootChip chip'
    settled_bootChip lateTrace _ runs_lateCalls hchip
  exact ⟨chip', hchip, hfollows⟩

/-! ## What lasts -/

section
variable {timerPrintConfig : UInt8 → TimerStatusField → TimerStatusFieldVal → Int}

/-- No call touches the counting mode or the base of a timer. -/
theorem Timers.Next.keeps {s s' : Timers} {e : TimerCall × TimerResult}
    (h : s.Next timerPrintConfig e s') (timer : UInt8) :
    (s' timer).control &&& 0x0f = (s timer).control &&& 0x0f := by
  have hprogram : ∀ other divisor,
      (s.program other divisor timer).control &&& 0x0f = (s timer).control &&& 0x0f := by
    intro other divisor
    unfold Timers.program
    by_cases htimer : timer = other
    · subst htimer
      rw [Function.update_self]
      exact (reloaded_both _).2.2
    · rw [Function.update_of_ne htimer]
  cases h with
  | unread => rfl
  | shown => rfl
  | untouched => rfl
  | stopped => exact hprogram _ _
  | programmed => exact hprogram _ _

/-- A call that programs another timer, or none, leaves this one alone. -/
theorem Timers.Next.other {s s' : Timers} {e : TimerCall × TimerResult}
    (h : s.Next timerPrintConfig e s') {timer : UInt8}
    (hother : ∀ freq, e.1 = .timeBase timer freq → freq.toNat < 19 ∨ 1193182 < freq.toNat) :
    s' timer = s timer := by
  have hprogram : ∀ other (freq : UInt32) divisor, e.1 = .timeBase other freq → 19 ≤ freq.toNat →
      freq.toNat ≤ 1193182 → s.program other divisor timer = s timer := by
    intro other freq divisor he lo hi
    refine Function.update_of_ne (fun htimer => ?_) _ _
    subst htimer
    have hout := hother freq he
    omega
  cases h with
  | unread => rfl
  | shown => rfl
  | untouched => rfl
  | stopped other freq lo hi => exact hprogram other freq _ rfl lo hi
  | programmed other freq lo hi _ _ => exact hprogram other freq _ rfl lo hi

/-- The fields that no call changes are read from the four low bits. -/
theorem timerFieldVal_of_keeps {control st : UInt8} (h : st &&& 0x0f = control &&& 0x0f)
    {field : TimerStatusField} (hfield : field = .tsfMode ∨ field = .tsfBase) :
    timerFieldVal st field = timerFieldVal control field := by
  have hmode : ∀ v : UInt8, v >>> 1 &&& (0x07 : UInt8) = (v &&& 0x0f) >>> 1 &&& (0x07 : UInt8) := by
    refine forall_byte ?_
    decide +kernel
  rcases hfield with rfl | rfl
  · unfold timerFieldVal
    rw [hmode st, hmode control, h]
  · exact congrArg TimerStatusFieldVal.bcd (anyBit_of_keeps h)

end

/-- **What lab 2 can rely on.** However the calls are mixed and whatever fails: the counting mode and
    the base of every timer are at the end what they were, each print of one of them shows that, and a
    timer that counts in binary divides by the quotient of the last call that programmed it. -/
theorem timers_keep_frequency (timerPrintConfig : UInt8 → TimerStatusField → TimerStatusFieldVal → Int)
    (calls : List TimerCall) (hcalls : ∀ call ∈ calls, call.timer ≤ 2) (chip chip' : Chip)
    (hsettled : chip.Settled) (tr : List PortEvent) (done : List (TimerCall × TimerResult))
    (h : (Prog.each (TimerCall.perform timerPrintConfig) calls).Runs tr done)
    (hchip : run Chip.step chip tr = some chip') :
    (∀ timer, (chip' timer).control &&& 0x0f = (chip timer).control &&& 0x0f) ∧
      (∀ timer field code val, field = .tsfMode ∨ field = .tsfBase →
        (TimerCall.readConfig timer field, code, some val) ∈ done →
        val = timerFieldVal (chip timer).control field) ∧
      ∀ before timer freq after, done = before ++ (.timeBase timer freq, 0, none) :: after →
        (∀ e ∈ after, ∀ freq', e.1 = .timeBase timer freq' →
          freq'.toNat < 19 ∨ 1193182 < freq'.toNat) →
        (chip' timer).control = reloaded (chip timer).control ∧
          DividesFor (chip timer).control freq (chip' timer).setting.divisor := by
  obtain ⟨-, s', hfollows, -, rfl⟩ := (under_calls hcalls hsettled).runs h hchip
  have hkeeps : ∀ {s s' : Timers} {es : List (TimerCall × TimerResult)},
      Follows (Timers.Next timerPrintConfig) s es s' → ∀ timer,
        (s' timer).control &&& 0x0f = (s timer).control &&& 0x0f := by
    intro s s' es hrun timer
    exact hrun.invariant (fun s₁ e s₂ _ hnext h => (hnext.keeps timer).trans h) rfl
  refine ⟨hkeeps hfollows, ?_, ?_⟩
  · intro timer field code val hfield hmem
    obtain ⟨before, after, rfl⟩ := List.append_of_mem hmem
    obtain ⟨s₁, hbefore, s₂, hnext, -⟩ := follows_append.mp hfollows
    cases hnext with
    | shown _ _ st hsame =>
      have hmask : (0x0f : UInt8) = 0x3f &&& 0x0f := rfl
      have hcontrol : (s₁ timer).control &&& 0x0f = (chip timer).control &&& 0x0f :=
        hkeeps hbefore timer
      refine timerFieldVal_of_keeps ?_ hfield
      rw [← hcontrol, hmask, ← UInt8.and_assoc, ← UInt8.and_assoc, hsame]
  · rintro before timer freq after rfl hlast
    obtain ⟨s₁, hbefore, s₂, hnext, hafter⟩ := follows_append.mp hfollows
    have hsetting : chip'.timers timer = s₂ timer :=
      hafter.invariant (fun s e s' he hnext h => (hnext.other (hlast e he)).trans h) rfl
    cases hnext with
    | programmed _ _ lo hi divisor hdivides =>
      have hcontrol : (s₁ timer).control &&& 0x0f = (chip timer).control &&& 0x0f :=
        hkeeps hbefore timer
      have hfinal : (chip' timer).setting = ⟨reloaded (s₁ timer).control, divisor⟩ := by
        change chip'.timers timer = _
        rw [hsetting]
        exact Function.update_self _ _ _
      refine ⟨(congrArg TimerSetting.control hfinal).trans ?_, fun hplain => ?_⟩
      · unfold reloaded
        rw [hcontrol]
      · rw [hfinal]
        exact hdivides (by rwa [anyBit_of_keeps hcontrol])

theorem timers_keep_frequency_late : ∃ chip', run Chip.step bootChip lateTrace = some chip' ∧
    (chip' 0).control = 0x34 ∧ (chip' 0).setting.divisor = some 19886 := by
  obtain ⟨chip', hchip⟩ : ∃ chip', run Chip.step bootChip lateTrace = some chip' := ⟨_, rfl⟩
  obtain ⟨-, -, hset⟩ := timers_keep_frequency _ lateCalls (by decide) bootChip chip'
    settled_bootChip lateTrace _ runs_lateCalls hchip
  obtain ⟨hcontrol, hdivides⟩ := hset [_] 0 60 [] rfl fun e he => absurd he List.not_mem_nil
  exact ⟨chip', hchip, hcontrol, hdivides (.inl (by decide))⟩

end Lcom
