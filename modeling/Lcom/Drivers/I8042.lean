import Lcom.Drivers.Ports

/-!
# `drivers/i8042.h`

The keyboard controller's ports, status bits and commands, and the bits of a mouse packet's first
byte — the values the drivers use, under the header's names.
-/

namespace Lcom

/-! ## Interrupt lines -/

def kbcIrqKbd : UInt8 := 0x01
def kbcIrqMouse : UInt8 := 0x0C

/-! ## Registers -/

def kbcRegInBuf : UInt16 := 0x60
def kbcRegOutBuf : UInt16 := 0x60
def kbcRegStat : UInt16 := 0x64
def kbcRegCommand : UInt16 := 0x64

/-! ## Status bits -/

def kbcStatParity : UInt8 := 0x80
def kbcStatTimeout : UInt8 := 0x40
def kbcStatAux : UInt8 := 0x20
def kbcStatIbf : UInt8 := 0x02
def kbcStatObf : UInt8 := 0x01

/-! ## Controller and mouse commands -/

def kbcCommReadByte : UInt8 := 0x20
def kbcCommWriteByte : UInt8 := 0x60
def kbcCommDisableKbdInterface : UInt8 := 0xAD
def kbcCommEnableKbdInterface : UInt8 := 0xAE
def kbcCommWriteMouseCommByte : UInt8 := 0xD4
def kbcCommBIntKbd : UInt8 := 0x01

def mouseCommDisableDataReporting : UInt8 := 0xF5
def mouseCommEnableDataReporting : UInt8 := 0xF4
def mouseResAck : UInt8 := 0xFA

/-! ## The first byte of a mouse packet -/

def mouseDpYOvfl : UInt8 := 0x80
def mouseDpXOvfl : UInt8 := 0x40
def mouseDpMsbY : UInt8 := 0x20
def mouseDpMsbX : UInt8 := 0x10
def mouseDpFirstB : UInt8 := 0x08
def mouseDpMb : UInt8 := 0x04
def mouseDpRb : UInt8 := 0x02
def mouseDpLb : UInt8 := 0x01

/-! ## Scancodes and retries -/

def wMakecode : UInt8 := 0x11
def wBreakcode : UInt8 := 0x91
def aMakecode : UInt8 := 0x1E
def aBreakcode : UInt8 := 0x9E
def sMakecode : UInt8 := 0x1F
def sBreakcode : UInt8 := 0x9F
def dMakecode : UInt8 := 0x20
def dBreakcode : UInt8 := 0xA0
def escBreakcode : UInt8 := 0x81
def shiftMakecode : UInt8 := 0x2A
def shiftBreakcode : UInt8 := 0xAA
def doubleByte : UInt8 := 0xE0
def breakBit : UInt8 := 0x80
def maxAttempts : Nat := 0x14

end Lcom
