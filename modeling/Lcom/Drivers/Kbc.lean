import Lcom.Drivers.I8042

/-!
# The keyboard controller — `drivers/kbc.c`

Both loops are the source's `while` over a countdown, so the counter is the recursion argument.
Return codes are the source's `0` and `1`. A `uint8_t *data` argument is an in/out value: the
function takes what the cell holds on entry and returns what it holds on exit, because a failing
read may or may not have stored a byte, and a caller that ignores the code sees the difference.
-/

namespace Lcom

def kbcReadStatus : Driver (Option UInt8) := utilSysInb kbcRegStat

/-- The body of `kbc_read_outbuff`'s `while (attempts)`. -/
def kbcReadOutbuffLoop (mouse : Bool) : Nat → UInt8 → Driver (Int × UInt8)
  | 0, data => pure (1, data)
  | attempts + 1, data => do
    match ← kbcReadStatus with
    | none => kbcReadOutbuffLoop mouse attempts data
    | some status =>
      if anyBit status kbcStatAux && !mouse then
        kbcReadOutbuffLoop mouse attempts data
      else if !anyBit status kbcStatAux && mouse then
        kbcReadOutbuffLoop mouse attempts data
      else if anyBit status kbcStatObf then
        match ← utilSysInb kbcRegOutBuf with
        | none => kbcReadOutbuffLoop mouse attempts data
        | some byte =>
          -- the byte is consumed and stored before the error bits are looked at
          if anyBit status (kbcStatParity ||| kbcStatTimeout) then pure (1, byte)
          else pure (0, byte)
      else
        kbcReadOutbuffLoop mouse attempts data

/-- `kbc_read_outbuff(&data, mouse)`. -/
def kbcReadOutbuff (data : UInt8) (mouse : Bool) : Driver (Int × UInt8) :=
  kbcReadOutbuffLoop mouse 8 data

/-- The body of `kbc_write`'s `while (cnt)`: only a busy input buffer is retried. -/
def kbcWriteLoop (port : UInt16) (command : UInt8) : Nat → Driver Int
  | 0 => pure 1
  | cnt + 1 => do
    match ← kbcReadStatus with
    | none => pure 1
    | some status =>
      if anyBit status kbcStatIbf then
        kbcWriteLoop port command cnt
      else
        let r ← sysOutb port command
        if r.failed then pure 1 else pure 0

/-- `kbc_write(port, command)`. -/
def kbcWrite (port : UInt16) (command : UInt8) : Driver Int :=
  kbcWriteLoop port command maxAttempts

end Lcom
