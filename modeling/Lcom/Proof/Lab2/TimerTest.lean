import Lcom.Lab2.TimerTest
import Lcom.Proof.Drivers.Receive

/-!
# How long the timer test takes

`timer_test_int` waits for sixty ticks for each of its prints, whatever else arrives: it is over after
`60 * time` of them, and not before.
-/

namespace Lcom

open Lib

/-- The counts at which `k` prints are made. -/
def printCounts (k : Nat) : List UInt32 := (List.range k).map fun j => UInt32.ofNat (60 * (j + 1))

theorem printCounts_succ (k : Nat) :
    printCounts (k + 1) = printCounts k ++ [UInt32.ofNat (60 * (k + 1))] := by
  unfold printCounts
  rw [List.range_succ, List.map_append]
  rfl

namespace TimerTest

/-- The state after `n` ticks, when `time` prints were asked for. -/
structure After (time : UInt8) (n : Nat) (s : TimerTest) : Prop where
  within : n ≤ 60 * time.toNat
  counter : s.counter = UInt32.ofNat n
  left : s.time.toNat + n / 60 = time.toNat
  printed : s.printed = printCounts (n / 60)

variable {time : UInt8} {n : Nat} {s s' : TimerTest} {e : ScanEvent}

theorem after_start (time : UInt8) : (start time 0).After time 0 where
  within := Nat.zero_le _
  counter := rfl
  left := rfl
  printed := rfl

/-- The condition of the loop is that there are ticks to come. -/
theorem After.looping_iff (h : s.After time n) : s.looping = true ↔ n < 60 * time.toNat := by
  have hleft := h.left
  have hwithin := h.within
  unfold looping
  rw [decide_eq_true_iff, gt_iff_lt, UInt8.lt_iff_toNat_lt, UInt8.toNat_zero]
  omega

/-- One tick: every sixtieth is printed. -/
theorem After.tick (h : s.After time n) (hn : n < 60 * time.toNat) : s.tick.After time (n + 1) := by
  have hleft := h.left
  have hsmall := time.toNat_lt
  have hcounter : s.counter + 1 = UInt32.ofNat (n + 1) := by
    rw [h.counter, UInt32.ofNat_add]
    rfl
  have hcount : (s.counter + 1).toNat = n + 1 := by
    rw [hcounter, UInt32.toNat_ofNat', Nat.mod_eq_of_lt (by omega)]
  have hdue : (s.counter + 1) % 60 = 0 ↔ (n + 1) % 60 = 0 := by
    rw [← UInt32.toNat_inj, UInt32.toNat_mod, hcount]
    rfl
  unfold TimerTest.tick
  dsimp only
  by_cases hsixty : (n + 1) % 60 = 0
  · have hdiv : (n + 1) / 60 = n / 60 + 1 := by omega
    have hpos : 1 ≤ s.time := by
      rw [UInt8.le_iff_toNat_le, UInt8.toNat_one]
      omega
    rw [if_pos (hdue.mpr hsixty)]
    refine ⟨hn, hcounter, ?_, ?_⟩
    · dsimp only
      rw [UInt8.toNat_sub_of_le _ _ hpos, UInt8.toNat_one]
      omega
    · dsimp only
      have hlast : 60 * (n / 60 + 1) = n + 1 := by omega
      rw [h.printed, hcounter, hdiv, printCounts_succ, hlast]
  · have hdiv : (n + 1) / 60 = n / 60 := by omega
    rw [if_neg fun hzero => hsixty (hdue.mp hzero)]
    refine ⟨hn, hcounter, ?_, ?_⟩
    · rw [hdiv]
      exact hleft
    · rw [hdiv]
      exact h.printed

/-- **One message** of the loop. -/
theorem After.step {es : List ScanEvent} (h : s.After time (ticks es))
    (hstep : receiveStep looping iterate s e = some s') : s'.After time (ticks (es ++ [e])) := by
  unfold receiveStep at hstep
  split at hstep
  · next hlooping =>
    have hn := h.looping_iff.mp hlooping
    have hrun : (s.iterate e.received).Runs e.ports s' := hstep
    rw [ticks_append]
    unfold iterate at hrun
    split at hrun
    · next hfailed =>
      obtain ⟨-, rfl⟩ := Prog.runs_ret.mp hrun
      rw [if_neg (by simp [SysReply.carries, hfailed])]
      exact h
    · next hfailed =>
      split at hrun
      · next hmsg =>
        obtain ⟨-, rfl⟩ := Prog.runs_ret.mp hrun
        have hcarries : e.received.carries .timer = e.received.msg.raises .timer := by
          simp [SysReply.carries, hfailed, hmsg]
        rw [hcarries]
        split
        · exact h.tick hn
        · exact h
      · next hmsg =>
        obtain ⟨-, rfl⟩ := Prog.runs_ret.mp hrun
        rw [if_neg (by simp [SysReply.carries, hmsg])]
        exact h
  · cases hstep

end TimerTest

/-- **The test is over after sixty ticks for each print.** What came before is all in the prints: one
    for each sixty of the ticks delivered. -/
theorem timer_test_int_ticks (time : UInt8) (fuel : Nat) (tr : List SysEvent) (o : Option Int)
    (s : TimerTest) (h : (timerTestInt time 0 fuel).Runs tr (o, s)) :
    s.printed = printCounts (tr.countP SysEvent.ticks / 60) ∧
      (o = none → tr.countP SysEvent.ticks < 60 * time.toNat) ∧
      (o = some 0 → tr.countP SysEvent.ticks = 60 * time.toNat) ∧
      (o = some 1 → tr.countP SysEvent.ticks = 60 * time.toNat ∨
        ∃ reply, tr = [(SysCall.irqSetPolicy timer0Irq false .timer, reply)]) := by
  rw [countP_ticks]
  rcases runs_call h with ⟨reply, rfl, -, heq⟩ | ⟨reply, tr', rfl, -, hrun⟩
  · obtain ⟨rfl, rfl⟩ := Prod.mk.inj heq
    have hquiet : messages [(SysCall.irqSetPolicy timer0Irq false .timer, reply)] = [] := rfl
    rw [hquiet]
    exact ⟨rfl, fun hnone => (by cases hnone), fun hzero => (by cases hzero),
      fun _ => .inr ⟨reply, rfl⟩⟩
  · have hafter : ∀ o : Bool × TimerTest, Prog.Asks Quiet (do
        if !o.1 then pure (none, o.2)
        else if (← timerUnsubscribe) ≠ 0 then pure (some 1, o.2)
        else pure (some 0, o.2) : Sys (Option Int × TimerTest)) := by
      intro o
      split
      · trivial
      · exact (asks_sysCode ⟨by simp, by simp⟩).check trivial
    obtain ⟨s', loop, rest, -, hsteps, -, hend⟩ := receiveLoop_bind_run hafter hrun
    have hcut : messages ((SysCall.irqSetPolicy timer0Irq false .timer, reply) :: tr') =
        messages tr' := rfl
    have hdone := run_history (fun es s => TimerTest.After time (ticks es) s)
      (fun es e s s' hs hstep => hs.step hstep) (TimerTest.after_start time) hsteps
    rw [hcut]
    dsimp only at hend
    split at hend
    · next hgoing =>
      obtain ⟨-, heq⟩ := Prog.runs_ret.mp hend
      obtain ⟨rfl, rfl⟩ := Prod.mk.inj heq
      rw [Bool.not_not] at hgoing
      exact ⟨hdone.printed, fun _ => hdone.looping_iff.mp hgoing, fun hzero => (by cases hzero),
        fun hone => (by cases hone)⟩
    · next hover =>
      rw [Bool.not_not] at hover
      have hall : ticks (messages tr') = 60 * time.toNat :=
        le_antisymm hdone.within (not_lt.mp fun hlt => hover (hdone.looping_iff.mpr hlt))
      rcases runs_call hend with ⟨_, -, -, heq⟩ | ⟨_, _, -, -, hret⟩
      · obtain ⟨rfl, rfl⟩ := Prod.mk.inj heq
        exact ⟨hdone.printed, fun hnone => (by cases hnone), fun _ => hall, fun _ => .inl hall⟩
      · obtain ⟨-, heq⟩ := Prog.runs_ret.mp hret
        obtain ⟨rfl, rfl⟩ := Prod.mk.inj heq
        exact ⟨hdone.printed, fun hnone => (by cases hnone), fun _ => hall, fun _ => .inl hall⟩

/-- A print that was asked for, after its sixty ticks. -/
theorem timer_test_int_ticks_minute : ∃ s : TimerTest, s.printed = [60] := by
  let tr := granted (.irqSetPolicy timer0Irq false .timer) 0 :: List.replicate 60 (interrupt 1) ++
    [granted (.irqRmPolicy .timer) 0]
  obtain ⟨⟨o, s⟩, hrun⟩ : ∃ o, (timerTestInt 1 0 61).Runs tr o :=
    ⟨_, Prog.runs_getD (by decide +kernel) (none, .start 0 0)⟩
  obtain ⟨hprinted, -, -, -⟩ := timer_test_int_ticks 1 61 tr o s hrun
  have hcount : tr.countP SysEvent.ticks = 60 := by decide +kernel
  rw [hcount] at hprinted
  exact ⟨s, hprinted⟩

end Lcom
