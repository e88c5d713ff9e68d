import Lcom.Drivers.Kbc

/-!
# The keyboard driver — `drivers/keyboard.c`
-/

namespace Lcom

/-- `keyboard_read_scancode(&scancode)`. The first status poll accepts a byte of either device;
    the AUX bit is only looked at by `kbc_read_outbuff`'s own polls. -/
def keyboardReadScancode (scancode : UInt8) : Driver (Int × UInt8) := do
  match ← kbcReadStatus with
  | none => pure (1, scancode)
  | some status =>
    if !anyBit status kbcStatObf then pure (1, scancode)
    else if anyBit status (kbcStatParity ||| kbcStatTimeout) then pure (1, scancode)
    else do
      let (r, scancode) ← kbcReadOutbuff scancode false
      if r ≠ 0 then pure (1, scancode) else pure (0, scancode)

/-- The globals `kbc_ih` writes. -/
structure KbdGlobals where
  scan_code : UInt8
  kbd_ih_valid : Bool
  deriving DecidableEq, Repr

/-- `kbc_ih`. -/
def kbcIh (g : KbdGlobals) : Driver KbdGlobals := do
  match ← kbcReadStatus with
  | none => pure g
  | some status =>
    if !anyBit status kbcStatObf then pure g
    else if anyBit status (kbcStatParity ||| kbcStatTimeout) then pure g
    else do
      let (r, scan_code) ← kbcReadOutbuff g.scan_code false
      if r ≠ 0 then pure { g with scan_code }
      else pure { g with scan_code, kbd_ih_valid := true }

/-- `keyboard_enable_interrupts`; `command` is what the uninitialised local holds on entry. -/
def keyboardEnableInterrupts (command : UInt8) : Driver Int := do
  if (← kbcWrite kbcRegCommand kbcCommDisableKbdInterface) ≠ 0 then pure 1
  else if (← kbcWrite kbcRegCommand kbcCommReadByte) ≠ 0 then pure 1
  else do
    let (r, command) ← kbcReadOutbuff command false
    if r ≠ 0 then pure 1
    else do
      let command := command ||| kbcCommBIntKbd
      if (← kbcWrite kbcRegCommand kbcCommWriteByte) ≠ 0 then pure 1
      else if (← kbcWrite kbcRegInBuf command) ≠ 0 then pure 1
      else if (← kbcWrite kbcRegCommand kbcCommEnableKbdInterface) ≠ 0 then pure 1
      else pure 0

end Lcom
