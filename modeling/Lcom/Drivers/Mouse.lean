import Lcom.Drivers.Kbc

/-!
# The mouse driver — `drivers/mouse.c`

The driver's file-scope variables are the state record `MouseDriver`. Besides them it carries one
history variable, `completed`, which no function reads: the list of the byte triples
`mouse_read_packet` finished, in order. It is what a statement about "every completed packet" is
counted against.
-/

namespace Lcom

/-- `uint8_t bytes[3]`, only ever indexed by constants. -/
structure PacketBytes where
  b0 : UInt8
  b1 : UInt8
  b2 : UInt8
  deriving DecidableEq, Repr

/-- `struct packet` (`lcom/lab4.h`). -/
structure Packet where
  bytes : PacketBytes
  rb : Bool
  mb : Bool
  lb : Bool
  delta_x : Int16
  delta_y : Int16
  x_ov : Bool
  y_ov : Bool
  deriving DecidableEq, Repr

structure MouseDriver where
  current_byte_index : UInt8
  current_byte : UInt8
  bytes : PacketBytes
  packet_ready : Bool
  packet : Packet
  completed : List PacketBytes
  deriving DecidableEq, Repr

namespace MouseDriver

def zeroPacket : Packet := ⟨⟨0, 0, 0⟩, false, false, false, 0, 0, false, false⟩

/-- The variables at program start. -/
def startup : MouseDriver where
  current_byte_index := 0
  current_byte := 0
  bytes := ⟨0, 0, 0⟩
  packet_ready := false
  packet := zeroPacket
  completed := []

/-- The three-state assembler of `mouse_read_packet`, run on a `current_byte` that was read
    successfully. A byte without bit 3 at index 0 falls through all three tests. -/
def assemble (d : MouseDriver) : MouseDriver :=
  if d.current_byte_index = 0 ∧ anyBit d.current_byte mouseDpFirstB then
    { d with
      bytes := { d.bytes with b0 := d.current_byte }
      current_byte_index := d.current_byte_index + 1
      packet_ready := false }
  else if d.current_byte_index = 1 then
    { d with
      bytes := { d.bytes with b1 := d.current_byte }
      current_byte_index := d.current_byte_index + 1 }
  else if d.current_byte_index = 2 then
    { d with
      bytes := { d.bytes with b2 := d.current_byte }
      current_byte_index := 0
      packet_ready := true
      completed := d.completed ++ [{ d.bytes with b2 := d.current_byte }] }
  else d

end MouseDriver

/-- `mouse_read_packet`. -/
def mouseReadPacket (d : MouseDriver) : Driver (Int × MouseDriver) := do
  let (r, byte) ← kbcReadOutbuff d.current_byte true
  let d := { d with current_byte := byte }
  if r ≠ 0 then pure (1, d) else pure (0, d.assemble)

/-- `(bytes[0] & sign) ? (0xFF00 | low) : low`, stored into an `int16_t`. -/
def packetDelta (b0 sign low : UInt8) : Int16 :=
  (if anyBit b0 sign then 0xFF00 ||| low.toUInt16 else low.toUInt16).toInt16

/-- The decoding `mouse_get_packet` performs on `bytes`. -/
def decodePacket (bytes : PacketBytes) : Packet where
  bytes := bytes
  lb := anyBit bytes.b0 mouseDpLb
  rb := anyBit bytes.b0 mouseDpRb
  mb := anyBit bytes.b0 mouseDpMb
  x_ov := anyBit bytes.b0 mouseDpXOvfl
  y_ov := anyBit bytes.b0 mouseDpYOvfl
  delta_x := packetDelta bytes.b0 mouseDpMsbX bytes.b1
  delta_y := packetDelta bytes.b0 mouseDpMsbY bytes.b2

/-- `mouse_get_packet(&out)`: the code, the driver with its own copy updated, and `*out`. -/
def mouseGetPacket (d : MouseDriver) (out : Packet) : Int × MouseDriver × Packet :=
  if d.packet_ready then
    (0, { d with packet := decodePacket d.bytes }, decodePacket d.bytes)
  else (1, d, out)

/-- The body of `mouse_read_response`'s `while (cnt)`. -/
def mouseReadResponseLoop : Nat → UInt8 → Driver (Int × UInt8)
  | 0, response => pure (1, response)
  | cnt + 1, response => do
    match ← kbcReadStatus with
    | none => pure (1, response)
    | some status =>
      if !anyBit status kbcStatObf then
        mouseReadResponseLoop cnt response
      else
        let (r, response) ← kbcReadOutbuff response true
        if r ≠ 0 then pure (1, response) else pure (0, response)

/-- `mouse_read_response(&response)`. -/
def mouseReadResponse (response : UInt8) : Driver (Int × UInt8) :=
  mouseReadResponseLoop maxAttempts response

/-- The body of `mouse_write_command`'s `while (cnt && aknl != MOUSE_RES_ACK)`. -/
def mouseWriteCommandLoop (command : UInt8) : Nat → UInt8 → Driver Int
  | 0, _ => pure 1
  | cnt + 1, aknl => do
    if aknl = mouseResAck then pure 1
    else if (← kbcWrite kbcRegCommand kbcCommWriteMouseCommByte) ≠ 0 then pure 1
    else if (← kbcWrite kbcRegInBuf command) ≠ 0 then pure 1
    else
      -- the response is read from the data port directly, without a status poll
      match ← utilSysInb kbcRegOutBuf with
      | none => pure 1
      | some aknl => if aknl = mouseResAck then pure 0 else mouseWriteCommandLoop command cnt aknl

/-- `mouse_write_command(command)`; `aknl` is what the uninitialised local holds on entry. -/
def mouseWriteCommand (command aknl : UInt8) : Driver Int :=
  mouseWriteCommandLoop command maxAttempts aknl

/-- `mouse_enable_data` and `mouse_disable_data`. -/
def mouseEnableData (aknl : UInt8) : Driver Int := do
  if (← mouseWriteCommand mouseCommEnableDataReporting aknl) ≠ 0 then pure 1 else pure 0

def mouseDisableData (aknl : UInt8) : Driver Int := do
  if (← mouseWriteCommand mouseCommDisableDataReporting aknl) ≠ 0 then pure 1 else pure 0

end Lcom
