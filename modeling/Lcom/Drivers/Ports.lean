import Mathlib.Data.Nat.Bitwise
import Lcom.Lib.Interaction

/-!
# Port I/O — `sys_inb`, `sys_outb` and `drivers/utils.c`

The drivers reach their devices through two kernel calls and nothing else. A driver function is
therefore an interaction program: its questions are the port accesses, its answers what the
kernel call gave back. The devices are not modelled here at all — every theorem about a
`Driver` ranges over all traces, hence over every device and every kernel failure.

Delays (`tickdelay`) and `printf` touch no port and no driver state, so they leave no mark.
-/

namespace Lcom

open Lib

/-- One port access, as the driver requests it. -/
inductive PortOp where
  | inb (port : UInt16)
  | outb (port : UInt16) (value : UInt8)
  deriving DecidableEq, Repr

/-- What the kernel call answered: whether it returned non-zero, and the 32-bit cell `sys_inb`
    fills in (a `sys_outb` leaves `val` unused). -/
structure Reply where
  failed : Bool
  val : UInt32
  deriving DecidableEq, Repr

/-- An access together with its answer. -/
abbrev PortEvent := PortOp × Reply

abbrev Driver (α : Type) := Prog PortOp Reply α

def sysInb (port : UInt16) : Driver Reply := Prog.query (.inb port)

def sysOutb (port : UInt16) (value : UInt8) : Driver Reply := Prog.query (.outb port value)

/-- `util_sys_inb`: the byte read, or `none` when the call failed and `*value` was not written.
    The 32-bit cell is narrowed on the way out. -/
def utilSysInb (port : UInt16) : Driver (Option UInt8) := do
  let r ← sysInb port
  if r.failed then pure none else pure (some r.val.toUInt8)

/-- The test C writes `v & mask`. -/
def anyBit (v mask : UInt8) : Bool := v &&& mask != 0

/-- A one-bit mask tests that bit. -/
theorem anyBit_eq_testBit {v mask : UInt8} {i : Nat} (hmask : mask.toNat = 2 ^ i) :
    anyBit v mask = v.toNat.testBit i := by
  have hand : (v &&& mask).toNat = (v.toNat.testBit i).toNat * 2 ^ i := by
    rw [UInt8.toNat_and, hmask, Nat.and_two_pow]
  cases hb : v.toNat.testBit i with
  | false =>
    have h0 : v &&& mask = 0 := UInt8.toNat_inj.mp (by simpa [hb] using hand)
    simp [anyBit, h0]
  | true =>
    have hne : v &&& mask ≠ 0 := by
      intro h0
      rw [h0, hb] at hand
      have hpos := Nat.two_pow_pos i
      simp at hand
      omega
    simpa [anyBit] using hne

/-- Two masks in one test: either shows. -/
theorem anyBit_or (v mask mask' : UInt8) :
    anyBit v (mask ||| mask') = true ↔ anyBit v mask = true ∨ anyBit v mask' = true := by
  have hand : v &&& (mask ||| mask') = (v &&& mask) ||| (v &&& mask') := by
    refine UInt8.toBitVec_inj.mp ?_
    simp only [UInt8.toBitVec_and, UInt8.toBitVec_or]
    exact BitVec.and_or_distrib_left
  unfold anyBit
  simp only [hand, bne_iff_ne, ne_eq, UInt8.or_eq_zero_iff]
  tauto

/-- The byte an access delivered to the driver, if it was a read that succeeded. -/
def PortEvent.byte? : PortEvent → Option UInt8
  | (.inb _, r) => if r.failed then none else some r.val.toUInt8
  | (.outb _ _, _) => none

end Lcom
