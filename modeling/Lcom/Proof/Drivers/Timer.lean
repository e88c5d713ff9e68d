import Lcom.Drivers.Timer
import Lcom.Proof.Drivers.WriteCommand

/-!
# What `timer_set_frequency` programs

The control word keeps the mode and the counting base it finds, as the driver is asked to. The two
bytes behind it are always the binary digits of the divisor, so a timer that counts in BCD gets the
frequency that was asked for only where the two bases write the divisor alike.
-/

namespace Lcom

open Lib

/-! ## The counter -/

/-- The number four BCD digits stand for, if they are decimal. -/
def bcdValue (n : Nat) : Option Nat :=
  if n % 16 ≤ 9 ∧ n / 16 % 16 ≤ 9 ∧ n / 256 % 16 ≤ 9 ∧ n / 4096 ≤ 9 then
    some (n / 4096 * 1000 + n / 256 % 16 * 100 + n / 16 % 16 * 10 + n % 16)
  else none

/-- The divisor the i8254 takes from its count register; zero is the largest one. -/
def divisor (bcd : Bool) (lsb msb : UInt8) : Option Nat :=
  let n := msb.toNat * 256 + lsb.toNat
  if bcd then if n = 0 then some 10000 else bcdValue n
  else if n = 0 then some 65536 else some n

/-- Where decimal and hexadecimal weights give the same number, there is one digit only. -/
theorem le_nine_of_digits {n d₀ d₁ d₂ d₃ : Nat} (hhex : n = d₃ * 4096 + d₂ * 256 + d₁ * 16 + d₀)
    (hdec : d₃ * 1000 + d₂ * 100 + d₁ * 10 + d₀ = n) (hd : d₀ ≤ 9) : n ≤ 9 := by
  omega

theorem hex_digits (n : Nat) :
    n = n / 4096 * 4096 + n / 256 % 16 * 256 + n / 16 % 16 * 16 + n % 16 := by
  have h₀ := Nat.div_add_mod n 16
  have h₁ : 16 * (n / 256) + n / 16 % 16 = n / 16 := by
    have h := Nat.div_add_mod (n / 16) 16
    rwa [Nat.div_div_eq_div_mul] at h
  have h₂ : 16 * (n / 4096) + n / 256 % 16 = n / 256 := by
    have h := Nat.div_add_mod (n / 256) 16
    rwa [Nat.div_div_eq_div_mul] at h
  linarith only [h₀, h₁, h₂]

/-- A number that does not need the second digit looks the same in both bases; any other does
    not. -/
theorem bcdValue_eq_self_iff {n : Nat} : bcdValue n = some n ↔ n ≤ 9 := by
  unfold bcdValue
  constructor
  · intro h
    split at h
    · rename_i hdigits
      exact le_nine_of_digits (hex_digits n) (Option.some.inj h) hdigits.1
    · cases h
  · intro h
    rw [if_pos (by omega)]
    congr 1
    omega

/-! ## The bytes -/

/-- The two bytes of a count that fits. -/
theorem count_bytes {n : UInt32} (h : n.toNat < 65536) :
    (utilGet16Msb n.toUInt16).2.toNat * 256 + (utilGet16Lsb n.toUInt16).2.toNat = n.toNat := by
  have hlsb : (utilGet16Lsb n.toUInt16).2.toNat = n.toNat % 65536 % 256 := rfl
  have hmsb : (utilGet16Msb n.toUInt16).2.toNat = (n.toNat % 65536) >>> 8 % 256 := rfl
  rw [hlsb, hmsb, Nat.shiftRight_eq_div_pow]
  omega

/-- The admitted frequencies are those whose divisor fits in the counter and is not zero. -/
theorem divisor_range {freq : UInt32} (hlo : 19 ≤ freq.toNat) (hhi : freq.toNat ≤ 1193182) :
    (timerFreq / freq).toNat = 1193182 / freq.toNat ∧ 1 ≤ 1193182 / freq.toNat ∧
      1193182 / freq.toNat < 65536 := by
  refine ⟨UInt32.toNat_div _ _, Nat.div_pos hhi (by omega), ?_⟩
  rw [Nat.div_lt_iff_lt_mul (by omega)]
  omega

/-- The control word: two selections, and the four low bits of the status. -/
theorem control_fields {timer : UInt8} (htimer : timer ≤ 2) (st : UInt8) :
    let control := timerLsbMsb ||| (timer.toUInt32 <<< 6).toUInt8 ||| (st &&& 0x0f)
    control &&& 0x0f = st &&& 0x0f ∧ control &&& 0x30 = timerLsbMsb ∧ control >>> 6 = timer := by
  have hall : ∀ t ≤ 2, ∀ b : BitVec 8,
      let control := timerLsbMsb ||| ((UInt8.ofNat t).toUInt32 <<< 6).toUInt8 |||
        (UInt8.ofBitVec b &&& 0x0f)
      control &&& 0x0f = UInt8.ofBitVec b &&& 0x0f ∧ control &&& 0x30 = timerLsbMsb ∧
        control >>> 6 = UInt8.ofNat t := by decide +kernel
  have hcontrol := hall timer.toNat htimer st.toBitVec
  rw [UInt8.ofNat_toNat, UInt8.ofBitVec_toBitVec] at hcontrol
  exact hcontrol

/-! ## The accesses -/

/-- The accesses of a call that returns 0, with the answer the status was read from. -/
def timerAccesses (timer control lsb msb : UInt8) : List PortOp :=
  [.outb timerCtrl.toUInt16 (timerRbCmd ||| timerRbCount ||| timerRbSel timer),
    .inb (timer0.toUInt16 + timer.toUInt16), .outb timerCtrl.toUInt16 control,
    .outb (timer0 + timer).toUInt16 lsb, .outb (timer0 + timer).toUInt16 msb]

/-- The bytes that were read. -/
def bytesRead (tr : List PortEvent) : List UInt8 := tr.filterMap PortEvent.byte?

/-- A write that is given up when it fails. -/
theorem runs_outb {port : UInt16} {value : UInt8} {rest : Driver Int} {tr : List PortEvent} {o : Int}
    (h : (sysOutb port value >>= fun r => if r.failed then pure 1 else rest).Runs tr o) :
    ∃ r tr', tr = (.outb port value, r) :: tr' ∧
      ((r.failed = true ∧ o = 1) ∨ (r.failed = false ∧ rest.Runs tr' o)) := by
  unfold sysOutb at h
  rw [Prog.query_bind, Prog.runs_ask] at h
  obtain ⟨r, tr', rfl, h⟩ := h
  refine ⟨r, tr', rfl, ?_⟩
  cases hr : r.failed with
  | true =>
    rw [if_pos hr] at h
    exact .inl ⟨rfl, (Prog.runs_ret.mp h).2.symm⟩
  | false =>
    rw [if_neg (by simp [hr])] at h
    exact .inr ⟨rfl, h⟩

/-- In the admitted range the call succeeds exactly when no access fails. -/
theorem runs_timerSetFrequency {timer : UInt8} {freq : UInt32} {tr : List PortEvent} {o : Int}
    (hrange : ¬ (freq < 19 ∨ freq > timerFreq)) (h : (timerSetFrequency timer freq).Runs tr o) :
    (o ≠ 0 ∧ ¬ PortsWork tr) ∨
      ∃ st, o = 0 ∧ PortsWork tr ∧ bytesRead tr = [st] ∧
        tr.map Prod.fst = timerAccesses timer
          (timerLsbMsb ||| (timer.toUInt32 <<< 6).toUInt8 ||| (st &&& 0x0f))
          (utilGet16Lsb (timerFreq / freq).toUInt16).2
          (utilGet16Msb (timerFreq / freq).toUInt16).2 := by
  unfold timerSetFrequency timerGetConf sysOutb at h
  rw [if_neg hrange, Prog.bind_assoc, Prog.query_bind, Prog.runs_ask] at h
  obtain ⟨r₀, tr₁, rfl, h⟩ := h
  cases hr₀ : r₀.failed with
  | true =>
    simp only [hr₀, if_true, Prog.pure_eq, Prog.ret_bind] at h
    exact .inl ⟨by rw [← (Prog.runs_ret.mp h).2]; decide, by simp [PortsWork, hr₀]⟩
  | false =>
    rw [if_neg (by simp [hr₀]), utilSysInb_bind, Prog.runs_ask] at h
    obtain ⟨r₁, tr₂, rfl, h⟩ := h
    cases hr₁ : r₁.failed with
    | true =>
      have hnone : PortEvent.byte? (.inb (timer0.toUInt16 + timer.toUInt16), r₁) = none := if_pos hr₁
      rw [hnone] at h
      exact .inl ⟨by rw [← (Prog.runs_ret.mp h).2]; decide, by simp [PortsWork, hr₁]⟩
    | false =>
      have hbyte := byte?_of_works hr₁ (timer0.toUInt16 + timer.toUInt16)
      rw [hbyte] at h
      dsimp only at h
      obtain ⟨r₂, tr₃, rfl, ⟨hr₂, rfl⟩ | ⟨hr₂, h⟩⟩ := runs_outb h
      · exact .inl ⟨by decide, by simp [PortsWork, hr₂]⟩
      obtain ⟨r₃, tr₄, rfl, ⟨hr₃, rfl⟩ | ⟨hr₃, h⟩⟩ := runs_outb h
      · exact .inl ⟨by decide, by simp [PortsWork, hr₃]⟩
      obtain ⟨r₄, tr₅, rfl, ⟨hr₄, rfl⟩ | ⟨hr₄, h⟩⟩ := runs_outb h
      · exact .inl ⟨by decide, by simp [PortsWork, hr₄]⟩
      obtain ⟨rfl, rfl⟩ := Prog.runs_ret.mp h
      refine .inr ⟨r₁.val.toUInt8, rfl, ?_, ?_, rfl⟩
      · unfold PortsWork
        simp [hr₀, hr₁, hr₂, hr₃, hr₄]
      · rw [bytesRead, List.filterMap_cons_none rfl, List.filterMap_cons_some hbyte]
        rfl

/-! ## The frequency -/

/-- What a call that returns 0 has done: it read the status, wrote a control word for this timer that
    keeps the low bits of the status and announces two bytes, and then the two bytes of a count that
    the timer, in the base of this control word, takes for the divisor. -/
structure FrequencySet (timer : UInt8) (freq : UInt32) (status control lsb msb : UInt8)
    (tr : List PortEvent) : Prop where
  read : bytesRead tr = [status]
  accesses : tr.map Prod.fst = timerAccesses timer control lsb msb
  keeps : control &&& 0x0f = status &&& 0x0f
  lsbThenMsb : control &&& 0x30 = timerLsbMsb
  selects : control >>> 6 = timer
  counts : divisor (anyBit control timerBcd) lsb msb = some (1193182 / freq.toNat)

/-- Every successful call sets the frequency, and a frequency that no divisor gives is refused
    before any port is written. -/
def ProgramsFrequency (timer : UInt8) (freq : UInt32) (tr : List PortEvent) (o : Int) : Prop :=
  (o = 0 → ∃ status control lsb msb, FrequencySet timer freq status control lsb msb tr) ∧
    (freq.toNat < 19 ∨ 1193182 < freq.toNat →
      ∀ e ∈ tr, ∀ port value, e.1 ≠ .outb port value)

/-- The divisor the timer takes from the bytes of a number: the number, unless it counts in BCD and
    the number has two digits. -/
theorem divisor_bytes_iff {bcd : Bool} {freq : UInt32} (hlo : 19 ≤ freq.toNat)
    (hhi : freq.toNat ≤ 1193182) :
    divisor bcd (utilGet16Lsb (timerFreq / freq).toUInt16).2
        (utilGet16Msb (timerFreq / freq).toUInt16).2 = some (1193182 / freq.toNat) ↔
      bcd = false ∨ 1193182 / freq.toNat ≤ 9 := by
  obtain ⟨hq, hpos, hlt⟩ := divisor_range hlo hhi
  have hne : 1193182 / freq.toNat ≠ 0 := Nat.pos_iff_ne_zero.mp hpos
  unfold divisor
  dsimp only
  rw [count_bytes (hq ▸ hlt), hq, if_neg hne, if_neg hne]
  cases bcd with
  | false => exact iff_of_true rfl (.inl rfl)
  | true =>
    rw [if_pos rfl, bcdValue_eq_self_iff]
    exact ⟨.inr, fun h => h.resolve_left (by decide)⟩

/-- The base of the control word is the base of the status. -/
theorem anyBit_of_keeps {control status : UInt8} (h : control &&& 0x0f = status &&& 0x0f) :
    anyBit control timerBcd = anyBit status timerBcd := by
  have hmask : timerBcd = 0x0f &&& timerBcd := rfl
  unfold anyBit
  rw [hmask, ← UInt8.and_assoc, ← UInt8.and_assoc, h]

/-- **`timer_set_frequency` programs the frequency exactly in a timer that counts in binary**, or for
    a divisor of one digit. -/
theorem timerSetFrequency_iff {timer : UInt8} (htimer : timer ≤ 2) {freq : UInt32}
    {tr : List PortEvent} {o : Int} (h : (timerSetFrequency timer freq).Runs tr o) :
    ProgramsFrequency timer freq tr o ↔
      (PortsWork tr → ∀ status ∈ bytesRead tr,
        anyBit status timerBcd = false ∨ 1193182 / freq.toNat ≤ 9) := by
  have hfreq : (freq < 19 ∨ freq > timerFreq) ↔ (freq.toNat < 19 ∨ 1193182 < freq.toNat) :=
    or_congr UInt32.lt_iff_toNat_lt UInt32.lt_iff_toNat_lt
  by_cases hrange : freq < 19 ∨ freq > timerFreq
  · -- nothing is asked of the ports
    unfold timerSetFrequency at h
    rw [if_pos hrange] at h
    obtain ⟨rfl, rfl⟩ := Prog.runs_ret.mp h
    exact iff_of_true ⟨fun h => absurd h (by decide), fun _ e he => absurd he List.not_mem_nil⟩
      fun _ status hstatus => absurd hstatus List.not_mem_nil
  · have hrange' := hrange
    rw [hfreq] at hrange'
    rcases runs_timerSetFrequency hrange h with ⟨ho, hports⟩ | ⟨st, rfl, hports, hread, haccesses⟩
    · exact iff_of_true ⟨fun h => absurd h ho, fun h => absurd h hrange'⟩ fun h => absurd h hports
    · have hdivisor := fun bcd => @divisor_bytes_iff bcd freq (by omega) (by omega)
      obtain ⟨hkeeps, hmode, hselects⟩ := control_fields htimer st
      rw [hread]
      constructor
      · intro hset _ status hstatus
        obtain ⟨status', control, lsb, msb, hset⟩ := hset.1 rfl
        have hsame := hset.read
        rw [hread, List.singleton_inj] at hsame
        rw [List.mem_singleton.mp hstatus, hsame, ← anyBit_of_keeps hset.keeps]
        have hwritten := hset.accesses
        rw [haccesses] at hwritten
        unfold timerAccesses at hwritten
        simp only [List.cons.injEq, PortOp.outb.injEq, true_and, and_true] at hwritten
        obtain ⟨-, hlsb, hmsb⟩ := hwritten
        have hcounts := hset.counts
        rw [← hlsb, ← hmsb] at hcounts
        exact (hdivisor _).mp hcounts
      · intro hcond
        refine ⟨fun _ => ⟨st, _, _, _, hread, haccesses, hkeeps, hmode, hselects, ?_⟩,
          fun h => absurd h hrange'⟩
        rw [hdivisor, anyBit_of_keeps hkeeps]
        exact hcond hports st (List.mem_singleton.mpr rfl)

/-- Timer 0 as the boot code leaves it, counting in binary, set to 60 Hz: the bytes of 19886. -/
theorem timerSetFrequency_sixty :
    ProgramsFrequency 0 60 [(.outb 0x43 0xE2, ⟨false, 0⟩), (.inb 0x40, ⟨false, 0x34⟩),
        (.outb 0x43 0x34, ⟨false, 0⟩), (.outb 0x40 0xAE, ⟨false, 0⟩), (.outb 0x40 0x4D, ⟨false, 0⟩)]
      0 := by
  refine (@timerSetFrequency_iff 0 (by decide) 60 _ 0 (by decide)).mpr ?_
  intro _ status hstatus
  have hread : 0x34 = status := by simpa [bytesRead, PortEvent.byte?] using hstatus
  rw [← hread]
  exact .inl (by decide)

/-- The same timer counting in BCD: 0x4DAE is no BCD number. -/
theorem timerSetFrequency_bcd :
    ¬ ∀ timer freq tr o, timer ≤ 2 → (timerSetFrequency timer freq).Runs tr o →
      ProgramsFrequency timer freq tr o := by
  intro h
  have hset := h 0 60 [(.outb 0x43 0xE2, ⟨false, 0⟩), (.inb 0x40, ⟨false, 0x35⟩),
    (.outb 0x43 0x35, ⟨false, 0⟩), (.outb 0x40 0xAE, ⟨false, 0⟩), (.outb 0x40 0x4D, ⟨false, 0⟩)] 0
    (by decide) (by decide)
  obtain ⟨status, control, lsb, msb, hset⟩ := hset.1 rfl
  have hwritten := hset.accesses
  unfold timerAccesses at hwritten
  simp only [List.map_cons, List.map_nil, List.cons.injEq, PortOp.outb.injEq, and_true] at hwritten
  obtain ⟨-, -, ⟨-, hcontrol⟩, ⟨-, hlsb⟩, -, hmsb⟩ := hwritten
  have hcounts := hset.counts
  rw [← hcontrol, ← hlsb, ← hmsb] at hcounts
  exact absurd hcounts (by decide)

end Lcom
