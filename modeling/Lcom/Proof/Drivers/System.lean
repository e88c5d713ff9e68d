import Lcom.Drivers.System

/-!
# Single kernel calls

A call of which only the code is looked at leaves one event, with the code it returned; a driver in
a larger program leaves port accesses and nothing else.
-/

namespace Lcom

open Lib

theorem runs_sysCode {call : SysCall} {tr : List SysEvent} {r : Int} :
    (sysCode call).Runs tr r ↔
      ∃ reply, tr = [(call, reply)] ∧ r = if reply.failed then 1 else 0 := by
  unfold sysCode
  rw [Prog.query_bind, Prog.runs_ask]
  constructor
  · intro h
    rcases h with ⟨reply, tr', rfl, h⟩
    split at h
    · next hfailed =>
      obtain ⟨rfl, rfl⟩ := Prog.runs_ret.mp h
      exact ⟨reply, rfl, by rw [if_pos hfailed]⟩
    · next hfailed =>
      obtain ⟨rfl, rfl⟩ := Prog.runs_ret.mp h
      exact ⟨reply, rfl, by rw [if_neg hfailed]⟩
  · intro h
    rcases h with ⟨reply, rfl, rfl⟩
    refine ⟨reply, [], rfl, ?_⟩
    split
    · exact Prog.runs_ret.mpr ⟨rfl, rfl⟩
    · exact Prog.runs_ret.mpr ⟨rfl, rfl⟩

theorem runs_sysCode_zero {call : SysCall} {tr : List SysEvent} :
    (sysCode call).Runs tr 0 ↔ ∃ reply, tr = [(call, reply)] ∧ reply.failed = false := by
  rw [runs_sysCode]
  constructor
  · intro h
    rcases h with ⟨reply, rfl, h⟩
    refine ⟨reply, rfl, ?_⟩
    by_contra hfailed
    rw [if_pos (by simpa using hfailed)] at h
    exact absurd h (by decide)
  · intro h
    rcases h with ⟨reply, rfl, h⟩
    exact ⟨reply, rfl, by rw [h]; rfl⟩

theorem runs_sysCode_failed {call : SysCall} {tr : List SysEvent} {r : Int} (hr : r ≠ 0)
    (h : (sysCode call).Runs tr r) : ∃ reply, tr = [(call, reply)] ∧ reply.failed = true := by
  obtain ⟨reply, rfl, rfl⟩ := runs_sysCode.mp h
  refine ⟨reply, rfl, ?_⟩
  by_contra hfailed
  exact hr (if_neg (by simpa using hfailed))

/-- A call that is given up when it fails leaves one event either way. -/
theorem runs_call {α : Type} {call : SysCall} {bad a : α} {rest : Sys α} {tr : List SysEvent}
    (h : (sysCode call >>= fun r => if r ≠ 0 then Prog.ret bad else rest).Runs tr a) :
    (∃ reply, tr = [(call, reply)] ∧ reply.failed = true ∧ a = bad) ∨
      ∃ reply tr', tr = (call, reply) :: tr' ∧ reply.failed = false ∧ rest.Runs tr' a := by
  rcases Prog.runs_check.mp h with ⟨r, hr, hrun, ha⟩ | ⟨tr₁, tr₂, rfl, hrun, hrest⟩
  · obtain ⟨reply, htr, hfailed⟩ := runs_sysCode_failed hr hrun
    exact .inl ⟨reply, htr, hfailed, ha⟩
  · obtain ⟨reply, rfl, hok⟩ := runs_sysCode_zero.mp hrun
    exact .inr ⟨reply, tr₂, rfl, hok, hrest⟩

theorem asks_sysCode {P : SysCall → Prop} {call : SysCall} (h : P call) : (sysCode call).Asks P := by
  refine (Prog.Asks.query h).bind fun reply => ?_
  split
  · trivial
  · trivial

theorem asks_driver {α : Type} {P : SysCall → Prop} (h : ∀ op, P (.port op)) (p : Driver α) :
    (Driver.sys p).Asks P := Prog.asks_translate h p

/-! ## Single events -/

/-- A call that succeeds, with a 1024×768 mode of one byte per pixel where a mode is asked for. -/
def granted (call : SysCall) (val : UInt32) : SysEvent :=
  (call, ⟨false, val, ⟨1024, 768, 8, 0⟩, ⟨false, false, 0⟩⟩)

def refused (call : SysCall) : SysEvent :=
  (call, ⟨true, 0, ⟨0, 0, 0, 0⟩, ⟨false, false, 0⟩⟩)

/-- A hardware notification. -/
def interrupt (interrupts : UInt64) : SysEvent :=
  (.driverReceive, ⟨false, 0, ⟨0, 0, 0, 0⟩, ⟨true, true, interrupts⟩⟩)

/-- A command the mouse acknowledges at once. -/
def mouseCommand (command : UInt8) : List SysEvent :=
  [granted (.port (.inb 0x64)) 0, granted (.port (.outb 0x64 0xD4)) 0,
    granted (.port (.inb 0x64)) 0, granted (.port (.outb 0x60 command)) 0,
    granted (.port (.inb 0x60)) 0xFA]

/-! ## The ports -/

/-- The port access that an event of the larger program is, if it is one. -/
def portOf : SysEvent → Option PortEvent
  | (.port op, r) => some (op, ⟨r.failed, r.val⟩)
  | _ => none

/-- A driver in the larger program runs as it does on its own. -/
theorem runs_driver {α : Type} {p : Driver α} {tr : List SysEvent} {a : α}
    (h : (Driver.sys p).Runs tr a) : p.Runs (tr.filterMap portOf) a := by
  induction p generalizing tr with
  | ret b =>
    obtain ⟨rfl, rfl⟩ := Prog.runs_ret.mp h
    exact Prog.runs_ret.mpr ⟨rfl, rfl⟩
  | ask q k ih =>
    obtain ⟨r, tr, rfl, hk⟩ := Prog.runs_ask.mp h
    exact Prog.runs_ask.mpr ⟨_, _, rfl, ih _ hk⟩

theorem driver_ports {α : Type} {p : Driver α} {tr : List SysEvent} {a : α}
    (h : (Driver.sys p).Runs tr a) : ∀ e ∈ tr, e.1 ≠ .driverReceive :=
  (asks_driver (P := fun call => call ≠ .driverReceive) (fun op => by simp) p).trace h

end Lcom
