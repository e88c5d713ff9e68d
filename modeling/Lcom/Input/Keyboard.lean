import Lcom.Drivers.Keyboard
import Lcom.Lib.Memory

/-!
# The keyboard manager — `input/keyboard_manager.c`
-/

namespace Lcom

open Lib

/-- `enum KB_KEY`. -/
inductive KbKey where
  | esc
  | up
  | down
  | left
  | right
  | invalid
  deriving DecidableEq, Repr

/-- The enumerators' values, which index `keys[]`. -/
def KbKey.index : KbKey → Nat
  | .esc => 0
  | .up => 1
  | .down => 2
  | .left => 3
  | .right => 4
  | .invalid => 999

/-- The manager's file-scope variables. -/
structure Keyboard where
  double_width : Bool
  keys : Vector Bool 20
  deriving DecidableEq, Repr

namespace Keyboard

/-- The variables at program start: static storage, hence zero. -/
def startup : Keyboard where
  double_width := false
  keys := Vector.replicate 20 false

/-- `Keyboard_init`: the `memset` clears `sizeof(bool)` bytes, that is the first key. -/
def init (k : Keyboard) : Keyboard where
  double_width := false
  keys := k.keys.setIfInBounds 0 false

/-- `Keyboard_translate(scancode, double_width, &make)`: the key and `*make`. -/
def translate (scancode : UInt8) (double_width : Bool) : KbKey × Bool :=
  let make := if anyBit scancode 0x80 then false else true
  let scancode := if !make then scancode &&& 0x7f else scancode
  let key :=
    if double_width then
      if scancode = 0x48 then KbKey.up
      else if scancode = 0x4B then KbKey.left
      else if scancode = 0x50 then KbKey.down
      else if scancode = 0x4D then KbKey.right
      else KbKey.invalid
    else if scancode = 0x01 then KbKey.esc
    else KbKey.invalid
  (key, make)

/-- What `Keyboard_handle` does with the local `scancode`, whatever put the byte there. -/
def handleScancode (k : Keyboard) (scancode : UInt8) : Except Fault Keyboard :=
  if scancode = doubleByte ∧ k.double_width = false then
    .ok { k with double_width := true }
  else do
    let (key, make) := translate scancode k.double_width
    let keys ← if key ≠ .invalid then store k.keys key.index make else pure k.keys
    pure { keys, double_width := false }

/-- `Keyboard_handle`; `scancode` is what the uninitialised local holds on entry. The code of
    `keyboard_read_scancode` is dropped. -/
def handle (k : Keyboard) (scancode : UInt8) : Driver (Except Fault Keyboard) := do
  let (_, scancode) ← keyboardReadScancode scancode
  pure (k.handleScancode scancode)

/-- `Keyboard_pressed(key)`. -/
def pressed (k : Keyboard) (key : KbKey) : Except Fault Bool := load k.keys key.index

end Keyboard

end Lcom
