import Lcom.Drivers.Gpu
import Lcom.Drivers.I8042

/-!
# Kernel calls — `drivers/timer.c`, the subscriptions, and the set-up half of `drivers/gpu.c`

Everything the program asks of the system outside its own memory: port accesses, interrupt policies,
the BIOS and the mapping of the video memory, `vg_exit` and `driver_receive`. As with the ports the
answers are the environment's, so a theorem about a `Sys` program ranges over every way these calls
can fail and every message that can arrive.

A driver that only touches ports is a part of such a program (`Driver.sys`).
-/

namespace Lcom

open Lib

/-- The `hook_id`s of the three drivers. -/
inductive Hook where
  | timer
  | keyboard
  | mouse
  deriving DecidableEq, Repr

/-- The value the drivers start their `hook_id` with. -/
def Hook.id : Hook → Nat
  | .timer => 0
  | .keyboard => 1
  | .mouse => 2

/-- `BIT(hook_id)`, which each subscription stores in `*bit_no` before it calls the kernel. -/
def Hook.bitNo (hook : Hook) : UInt64 := UInt64.ofNat (2 ^ hook.id)

/-- `vbe_mode_info_t`, as far as the program reads it here. -/
structure VbeModeInfo where
  XResolution : UInt16
  YResolution : UInt16
  BitsPerPixel : UInt8
  PhysBasePtr : UInt32
  deriving DecidableEq, Repr

/-- What `driver_receive` delivers: whether it is a notification, whether it comes from the
    hardware, and `m_notify.interrupts`. -/
structure Message where
  notify : Bool
  hardware : Bool
  interrupts : UInt64
  deriving DecidableEq, Repr

/-- `msg.m_notify.interrupts & bit_no`. -/
def Message.raises (msg : Message) (hook : Hook) : Bool := msg.interrupts &&& hook.bitNo != 0

inductive SysCall where
  | port (op : PortOp)
  | irqSetPolicy (irq : UInt8) (exclusive : Bool) (hook : Hook)
  | irqRmPolicy (hook : Hook)
  | int86 (intno : UInt8) (ax bx : UInt16)
  | vbeGetModeInfo (mode : UInt16)
  | privctlAddMem (mr_base mr_limit : UInt32)
  | vmMapPhys (base size : UInt32)
  | malloc (size : UInt32)
  | vgExit
  | driverReceive
  deriving DecidableEq, Repr

/-- What a call gave back: whether it failed, and the cells a call of its kind fills in. -/
structure SysReply where
  failed : Bool
  val : UInt32
  mode_info : VbeModeInfo
  msg : Message
  deriving DecidableEq, Repr

abbrev SysEvent := SysCall × SysReply

abbrev Sys (α : Type) := Prog SysCall SysReply α

/-- A driver, as part of the program. -/
def Driver.sys {α : Type} (p : Driver α) : Sys α :=
  p.translate SysCall.port fun r => ⟨r.failed, r.val⟩

/-- A call of which only the code is looked at. -/
def sysCode (call : SysCall) : Sys Int := do
  let r ← Prog.query call
  if r.failed then pure 1 else pure 0

/-! ## Interrupts -/

def timer0Irq : UInt8 := 0

/-- `timer_subscribe`, `keyboard_subscribe` and `mouse_subscribe`; all of them ask for
    `IRQ_REENABLE`. -/
def timerSubscribe : Sys Int := sysCode (.irqSetPolicy timer0Irq false .timer)
def keyboardSubscribe : Sys Int := sysCode (.irqSetPolicy kbcIrqKbd true .keyboard)
def mouseSubscribe : Sys Int := sysCode (.irqSetPolicy kbcIrqMouse true .mouse)

/-- `timer_unsubscribe`, `keyboard_unsubscribe` and `mouse_unsubscribe`. -/
def timerUnsubscribe : Sys Int := sysCode (.irqRmPolicy .timer)
def keyboardUnsubscribe : Sys Int := sysCode (.irqRmPolicy .keyboard)
def mouseUnsubscribe : Sys Int := sysCode (.irqRmPolicy .mouse)

/-! ## Graphics -/

/-- `gpu_set_mode(mode)`. -/
def gpuSetMode (mode : UInt16) : Sys Int := sysCode (.int86 0x10 0x4F02 (0x4000 ||| mode))

/-- `gpu_init_mem_indexation(mode)`: the code and `gpu_res_info`, or nothing when it panics. -/
def gpuInitMemIndexation (gpu_res_info : GpuResInfo) (mode : UInt16) :
    Sys (Option (Int × GpuResInfo)) := do
  let r ← Prog.query (.vbeGetModeInfo mode)
  if r.failed then pure (some (1, gpu_res_info))
  else do
    let vmi_p := r.mode_info
    let bytes_per_pixel := (vmi_p.BitsPerPixel.toUInt32 + 7) / 8
    let vram_size := vmi_p.XResolution.toUInt32 * vmi_p.YResolution.toUInt32 * bytes_per_pixel
    if (← sysCode (.privctlAddMem vmi_p.PhysBasePtr (vmi_p.PhysBasePtr + vram_size))) ≠ 0 then
      pure none
    else if (← sysCode (.vmMapPhys vmi_p.PhysBasePtr vram_size)) ≠ 0 then pure none
    else if (← sysCode (.malloc vram_size)) ≠ 0 then pure none
    else pure (some (0, ⟨vmi_p.XResolution, vmi_p.YResolution⟩))

/-- `vg_exit`. -/
def vgExit : Sys Int := sysCode .vgExit

/-! ## Messages -/

/-- `while (looping) { driver_receive(…); … }` around a body that only touches ports: whether the loop
    has ended within `fuel` messages, and the variables. -/
def receiveLoop {σ : Type} (looping : σ → Bool) (iterate : σ → SysReply → Driver σ) :
    Nat → σ → Sys (Bool × σ)
  | 0, s => pure (!looping s, s)
  | fuel + 1, s =>
    if looping s then do
      let r ← Prog.query .driverReceive
      let s ← Driver.sys (iterate s r)
      receiveLoop looping iterate fuel s
    else pure (true, s)

end Lcom
