import Lcom.Input.Mouse
import Lcom.Lib.Run
import Lcom.Proof.Drivers.Kbc

/-!
# Bytes in, mouse updates out

`Mouse_handle` takes one byte per interrupt; three of them make a packet, and a finished packet
moves the cursor. The history variables count both ends: `completed` grows when the assembler
stores a third byte, `applied` when the mouse state is updated from a packet. Two questions:

*Are they the same?* (`packets_applied_once_iff`) Not in general. `packet_ready` stays set until
the next packet's first byte arrives, and the result of `mouse_read_packet` is ignored, so a
failed read or a stray byte between two packets applies the old packet once more. The theorem
names exactly the runs without such an interrupt.

*What does an undisturbed stream do?* (`packet_stream_applied`) Over complete packets, one byte
per successful interrupt, the mouse follows `Pointer.move`, which is written with plain signed
arithmetic and knows nothing of bytes or of `int16_t`.
-/

namespace Lcom

open Lib

/-! ## One interrupt -/

/-- The driver after `mouse_read_packet` got `(r, byte)` from its read. -/
def MouseDriver.receive (d : MouseDriver) (r : Int) (byte : UInt8) : MouseDriver :=
  if r ≠ 0 then { d with current_byte := byte }
  else { d with current_byte := byte }.assemble

theorem mouseReadPacket_eq (d : MouseDriver) :
    mouseReadPacket d = kbcReadOutbuff d.current_byte true >>= fun o =>
      Prog.ret (if o.1 ≠ 0 then 1 else 0, d.receive o.1 o.2) := by
  rw [mouseReadPacket]
  congr
  funext o
  by_cases h : o.1 ≠ 0
  · simp [MouseDriver.receive, h]
  · simp [MouseDriver.receive, h]

/-- The end of `Mouse_handle`: the packet the driver holds, if it holds one, is fetched and
    applied. -/
def MouseInput.apply (w : MouseInput) (res : GpuResInfo) : MouseInput :=
  if w.driver.packet_ready then
    { driver := { w.driver with packet := decodePacket w.driver.bytes }
      mouse_packet := decodePacket w.driver.bytes
      mouse := w.mouse.update res (decodePacket w.driver.bytes) }
  else w

theorem mouseHandle_eq (w : MouseInput) (res : GpuResInfo) :
    w.handle res = mouseReadPacket w.driver >>= fun o =>
      Prog.ret ({ w with driver := o.2 }.apply res) := by
  rw [MouseInput.handle]
  congr
  funext o
  by_cases h : o.2.packet_ready
  · simp [MouseInput.apply, mouseGetPacket, h]
  · simp [MouseInput.apply, h]

theorem runs_mouseHandle {w w' : MouseInput} {res : GpuResInfo} {tr : List PortEvent} :
    (w.handle res).Runs tr w' ↔
      ∃ r byte, (kbcReadOutbuff w.driver.current_byte true).Runs tr (r, byte) ∧
        w' = { w with driver := w.driver.receive r byte }.apply res := by
  simp only [mouseHandle_eq, mouseReadPacket_eq, Prog.runs_bind_ret]
  constructor
  · intro h
    rcases h with ⟨_, ⟨⟨r, byte⟩, hread, rfl⟩, rfl⟩
    exact ⟨r, byte, hread, rfl⟩
  · intro h
    rcases h with ⟨r, byte, hread, rfl⟩
    exact ⟨_, ⟨(r, byte), hread, rfl⟩, rfl⟩

/-- One mouse interrupt of a run: the port accesses the handler makes. -/
def MouseInput.step (res : GpuResInfo) (w : MouseInput) (tr : List PortEvent) : Option MouseInput :=
  (w.handle res).exec tr

/-! ## The assembler -/

/-- What the assembler's variables satisfy in every run: a packet is held only between packets. -/
structure MouseDriver.Sound (d : MouseDriver) : Prop where
  index : d.current_byte_index = 0 ∨ d.current_byte_index = 1 ∨ d.current_byte_index = 2
  held : d.packet_ready = true → d.current_byte_index = 0

theorem MouseDriver.sound_startup : MouseDriver.startup.Sound :=
  ⟨.inl rfl, fun h => absurd h (by simp [MouseDriver.startup])⟩

/-- Everything a read can do to the assembler. -/
inductive MouseDriver.Received (d : MouseDriver) (r : Int) (byte : UInt8) (d' : MouseDriver) : Prop
  where
  /-- A failed read, or a byte between packets that cannot begin one. -/
  | ignored (idle : d.packet_ready = true → ¬ (r = 0 ∧ anyBit byte mouseDpFirstB = true))
      (eq : d' = { d with current_byte := byte })
  | first (ok : r = 0) (header : anyBit byte mouseDpFirstB = true)
      (eq : d' = { d with
        current_byte := byte, bytes := { d.bytes with b0 := byte }
        current_byte_index := 1, packet_ready := false })
  | second (ok : r = 0) (idle : d.packet_ready = false)
      (eq : d' = { d with
        current_byte := byte, bytes := { d.bytes with b1 := byte }, current_byte_index := 2 })
  | third (ok : r = 0) (idle : d.packet_ready = false)
      (eq : d' = { d with
        current_byte := byte, bytes := { d.bytes with b2 := byte }
        current_byte_index := 0, packet_ready := true
        completed := d.completed ++ [{ d.bytes with b2 := byte }] })

theorem MouseDriver.Sound.idle {d : MouseDriver} (h : d.Sound) (hne : d.current_byte_index ≠ 0) :
    d.packet_ready = false := by
  by_contra hready
  exact hne (h.held (by simpa using hready))

theorem MouseDriver.Sound.received {d : MouseDriver} (h : d.Sound) (r : Int) (byte : UInt8) :
    d.Received r byte (d.receive r byte) := by
  by_cases hr : r = 0
  · rcases h.index with h0 | h1 | h2
    · by_cases hhdr : anyBit byte mouseDpFirstB = true
      · exact .first hr hhdr (by simp [receive, assemble, hr, h0, hhdr])
      · exact .ignored (fun _ h => hhdr h.2) (by simp [receive, assemble, hr, h0, hhdr])
    · exact .second hr (h.idle (by simp [h1])) (by simp [receive, assemble, hr, h1])
    · exact .third hr (h.idle (by simp [h2])) (by simp [receive, assemble, hr, h2])
  · exact .ignored (fun _ h => hr h.1) (by simp [receive, hr])

theorem MouseDriver.Sound.receive {d : MouseDriver} (h : d.Sound) (r : Int) (byte : UInt8) :
    (d.receive r byte).Sound := by
  cases h.received r byte with
  | ignored _ heq =>
    rw [heq]
    exact ⟨h.index, h.held⟩
  | first _ _ heq =>
    rw [heq]
    exact ⟨.inr (.inl rfl), fun h => absurd h (by simp)⟩
  | second _ hidle heq =>
    rw [heq]
    exact ⟨.inr (.inr rfl), fun h => absurd h (by simp [hidle])⟩
  | third _ _ heq =>
    rw [heq]
    exact ⟨.inl rfl, fun _ => rfl⟩

/-! ## Completed and applied -/

/-- The read of this interrupt succeeds, with a byte that can begin a packet. -/
def HeaderRead (w : MouseInput) (tr : List PortEvent) : Prop :=
  ∃ byte, (kbcReadOutbuff w.driver.current_byte true).Runs tr (0, byte) ∧
    anyBit byte mouseDpFirstB = true

/-- The condition on an interrupt: when the packet the driver holds has been applied already, the
    interrupt starts the next one. -/
def FreshPacket (w : MouseInput) (tr : List PortEvent) : Prop :=
  w.driver.packet_ready = true → HeaderRead w tr

theorem headerRead_iff {w : MouseInput} {tr : List PortEvent} {r : Int} {byte : UInt8}
    (hread : (kbcReadOutbuff w.driver.current_byte true).Runs tr (r, byte)) :
    HeaderRead w tr ↔ r = 0 ∧ anyBit byte mouseDpFirstB = true := by
  constructor
  · intro h
    rcases h with ⟨b, hb, hhdr⟩
    obtain ⟨rfl, rfl⟩ := Prod.mk.inj (hread.unique hb)
    exact ⟨rfl, hhdr⟩
  · intro h
    rcases h with ⟨rfl, hhdr⟩
    exact ⟨byte, hread, hhdr⟩

/-- What one interrupt does to the two histories: both grow by the same packet, neither grows, or
    the packet already applied is applied again. -/
inductive Interrupted (w w' : MouseInput) (tr : List PortEvent) : Prop where
  | quiet (fresh : FreshPacket w tr) (completed : w'.driver.completed = w.driver.completed)
      (applied : w'.mouse.applied = w.mouse.applied)
  | third (bytes : PacketBytes) (fresh : FreshPacket w tr)
      (completed : w'.driver.completed = w.driver.completed ++ [bytes])
      (applied : w'.mouse.applied = w.mouse.applied ++ [decodePacket bytes])
  | again (stale : ¬ FreshPacket w tr) (completed : w'.driver.completed = w.driver.completed)
      (applied : w'.mouse.applied = w.mouse.applied ++ [decodePacket w.driver.bytes])

theorem MouseInput.step_cases {res : GpuResInfo} {w w' : MouseInput} {tr : List PortEvent}
    (hs : w.driver.Sound) (h : MouseInput.step res w tr = some w') :
    w'.driver.Sound ∧ Interrupted w w' tr := by
  obtain ⟨r, byte, hread, rfl⟩ := runs_mouseHandle.mp h
  have hsound := hs.receive r byte
  constructor
  · rw [apply]
    split
    · exact ⟨hsound.index, hsound.held⟩
    · exact hsound
  cases hs.received r byte with
  | ignored hignored heq =>
    rw [heq, apply]
    cases hready : w.driver.packet_ready with
    | false =>
      -- a stray byte with nothing held: neither history grows
      exact .quiet (fun h => absurd h (by simp [hready])) rfl rfl
    | true =>
      -- the packet that was applied when it was completed is still marked ready
      exact .again (fun h => hignored hready ((headerRead_iff hread).mp (h hready))) rfl rfl
  | first hr hhdr heq =>
    rw [heq]
    exact .quiet (fun _ => (headerRead_iff hread).mpr ⟨hr, hhdr⟩) rfl rfl
  | second _ hidle heq =>
    rw [heq, apply, hidle]
    exact .quiet (fun h => absurd h (by simp [hidle])) rfl rfl
  | third _ hidle heq =>
    rw [heq]
    exact .third _ (fun h => absurd h (by simp [hidle])) rfl rfl

/-- From start-up on, the assembler never holds a packet in the middle of the next one. -/
theorem MouseInput.run_sound {res : GpuResInfo} {w w' : MouseInput} {trs : List (List PortEvent)}
    (hs : w.driver.Sound) (h : run (MouseInput.step res) w trs = some w') : w'.driver.Sound := by
  refine run_invariant (fun w => w.driver.Sound) ?_ hs h
  intro w₀ tr w₁ hs₀ hstep
  exact (step_cases hs₀ hstep).1

/-- How far the applications are ahead of the completed packets, over a whole run: never behind,
    and level exactly when every interrupt met the condition. -/
theorem run_applied_completed {res : GpuResInfo} {w w' : MouseInput}
    {trs : List (List PortEvent)} (hs : w.driver.Sound)
    (h : run (MouseInput.step res) w trs = some w') :
    w.mouse.applied.length + w'.driver.completed.length ≤
        w'.mouse.applied.length + w.driver.completed.length ∧
      (w'.mouse.applied.length + w.driver.completed.length =
          w.mouse.applied.length + w'.driver.completed.length ↔
        EveryStep (MouseInput.step res) FreshPacket w trs) := by
  induction trs generalizing w with
  | nil =>
    cases h
    exact ⟨le_refl _, iff_of_true rfl everyStep_nil⟩
  | cons tr trs ih =>
    obtain ⟨w₁, h₁, hrun⟩ := run_cons_eq_some.mp h
    obtain ⟨hs₁, hcases⟩ := MouseInput.step_cases hs h₁
    obtain ⟨hle, hiff⟩ := ih hs₁ hrun
    rw [everyStep_cons h₁, ← hiff]
    cases hcases with
    | quiet fresh completed applied =>
      rw [completed, applied] at hle ⊢
      exact ⟨hle, (and_iff_right fresh).symm⟩
    | third bytes fresh completed applied =>
      rw [completed, applied, List.length_append, List.length_append] at hle ⊢
      simp only [fresh, true_and, List.length_singleton] at hle ⊢
      exact ⟨by omega, by omega⟩
    | again stale completed applied =>
      -- one application too many, and the rest of the run never makes up for it
      rw [completed, applied, List.length_append] at hle ⊢
      simp only [stale, false_and, List.length_singleton] at hle ⊢
      exact ⟨by omega, iff_of_false (by omega) id⟩

/-- In a run without a repeated application, the packets are applied as they were completed. -/
theorem run_applied_in_order {res : GpuResInfo} {w w' : MouseInput}
    {trs : List (List PortEvent)} (hs : w.driver.Sound)
    (hw : w.mouse.applied = w.driver.completed.map decodePacket)
    (h : run (MouseInput.step res) w trs = some w')
    (hfresh : EveryStep (MouseInput.step res) FreshPacket w trs) :
    w'.mouse.applied = w'.driver.completed.map decodePacket := by
  induction trs generalizing w with
  | nil =>
    cases h
    exact hw
  | cons tr trs ih =>
    obtain ⟨w₁, h₁, hrun⟩ := run_cons_eq_some.mp h
    obtain ⟨hs₁, hcases⟩ := MouseInput.step_cases hs h₁
    obtain ⟨hfresh₁, hrest⟩ := (everyStep_cons h₁).mp hfresh
    refine ih hs₁ ?_ hrun hrest
    cases hcases with
    | quiet _ completed applied => rw [completed, applied, hw]
    | third bytes _ completed applied => rw [completed, applied, hw, List.map_append, List.map_singleton]
    | again stale _ _ => exact absurd hfresh₁ stale

/-- The program's start: nothing read, nothing applied, and the mouse as `Mouse_init` left it. -/
def MouseInput.startup (mouse : Mouse) : MouseInput where
  driver := MouseDriver.startup
  mouse_packet := MouseDriver.zeroPacket
  mouse := { mouse with applied := [] }

/-- **Packets are applied once exactly in the runs without a stale interrupt.** Whatever the reads
    deliver, the number of updates equals the number of completed packets if and only if every
    interrupt that arrives while the last packet is still marked ready reads the first byte of
    the next one. -/
theorem packets_applied_once_iff {res : GpuResInfo} {mouse : Mouse} {w : MouseInput}
    {trs : List (List PortEvent)}
    (h : run (MouseInput.step res) (MouseInput.startup mouse) trs = some w) :
    w.mouse.applied.length = w.driver.completed.length ↔
      EveryStep (MouseInput.step res) FreshPacket (MouseInput.startup mouse) trs := by
  have hrun := (run_applied_completed MouseDriver.sound_startup h).2
  simpa [MouseInput.startup, MouseDriver.startup] using hrun

/-! ### A run that applies a packet twice -/

/-- An interrupt whose first poll finds a mouse byte. -/
def mouseByte (byte : UInt8) : List PortEvent :=
  [(.inb kbcRegStat, ⟨false, 0x21⟩), (.inb kbcRegOutBuf, ⟨false, byte.toUInt32⟩)]

/-- An interrupt whose eight polls all find the output buffer empty. -/
def noMouseByte : List PortEvent := List.replicate 8 (.inb kbcRegStat, ⟨false, 0x00⟩)

/-- The mouse after `Mouse_init`, with a cursor image of no pixels. -/
def Mouse.fresh : Mouse := Mouse.zeroed.init ⟨.xpm8888, 0, 0, []⟩ false

theorem packets_applied_once_one_packet :
    ∃ w, run (MouseInput.step ⟨1152, 864⟩) (MouseInput.startup Mouse.fresh)
        [mouseByte 0x09, mouseByte 0x05, mouseByte 0x03] = some w ∧
      (w.mouse.applied.length = w.driver.completed.length ↔
        EveryStep (MouseInput.step ⟨1152, 864⟩) FreshPacket (MouseInput.startup Mouse.fresh)
          [mouseByte 0x09, mouseByte 0x05, mouseByte 0x03]) :=
  ⟨_, rfl, packets_applied_once_iff rfl⟩

/-- A packet of three bytes, then one interrupt whose read fails: the packet is applied again. -/
theorem packet_applied_twice :
    ¬ ∀ (res : GpuResInfo) (mouse : Mouse) (trs : List (List PortEvent)) (w : MouseInput),
      run (MouseInput.step res) (MouseInput.startup mouse) trs = some w →
      w.mouse.applied.length = w.driver.completed.length := by
  intro h
  have hcount := h ⟨1152, 864⟩ Mouse.fresh
    [mouseByte 0x09, mouseByte 0x05, mouseByte 0x03, noMouseByte] _ rfl
  exact absurd hcount (by decide +kernel)

/-! ## An undisturbed stream -/

/-- The read of a mouse interrupt with this trace succeeds with `byte`. -/
def MouseInput.Delivers (tr : List PortEvent) (byte : UInt8) : Prop :=
  ∃ data, (kbcReadOutbuff data true).Runs tr (0, byte)

/-- The bytes of a list of packets, in the order they arrive. -/
def packetStream (ps : List PacketBytes) : List UInt8 :=
  ps.flatMap fun p => [p.b0, p.b1, p.b2]

theorem packetStream_cons (p : PacketBytes) (ps : List PacketBytes) :
    packetStream (p :: ps) = p.b0 :: p.b1 :: p.b2 :: packetStream ps := rfl

/-- What the user sees of the mouse. -/
structure Pointer where
  x : Int
  y : Int
  buttons : Buttons
  prev_buttons : Buttons
  deriving DecidableEq, Repr

/-- `v`, kept between `lo` and `hi`. -/
def clamp (v lo hi : Int) : Int := max lo (min v hi)

/-- A nine-bit two's complement number: eight low bits and a sign bit. -/
def signed9 (low : UInt8) (sign : Bool) : Int := low.toNat - 256 * sign.toNat

namespace Pointer

/-- One packet moves the pointer and replaces its buttons. -/
def move (res : GpuResInfo) (s : Pointer) (p : PacketBytes) : Pointer where
  x := clamp (s.x + signed9 p.b1 (p.b0.toNat.testBit 4)) 0 (res.x_res.toNat - 1)
  y := clamp (s.y - signed9 p.b2 (p.b0.toNat.testBit 5)) 0 (res.y_res.toNat - 1)
  buttons :=
    { lb := p.b0.toNat.testBit 0
      mb := p.b0.toNat.testBit 2
      rb := p.b0.toNat.testBit 1 }
  prev_buttons := s.buttons

def OnScreen (res : GpuResInfo) (s : Pointer) : Prop :=
  (0 ≤ s.x ∧ s.x < res.x_res.toNat) ∧ 0 ≤ s.y ∧ s.y < res.y_res.toNat

end Pointer

def Mouse.pointer (m : Mouse) : Pointer := ⟨m.position.x, m.position.y, m.buttons, m.prev_buttons⟩

theorem clamp_bounds (v : Int) {hi : Int} (h : 0 ≤ hi) : 0 ≤ clamp v 0 hi ∧ clamp v 0 hi < hi + 1 := by
  unfold clamp
  omega

theorem Pointer.onScreen_move {res : GpuResInfo} (hx : 1 ≤ res.x_res.toNat)
    (hy : 1 ≤ res.y_res.toNat) (s : Pointer) (p : PacketBytes) : (s.move res p).OnScreen res := by
  have hbx := clamp_bounds (s.x + signed9 p.b1 (p.b0.toNat.testBit 4))
    (show (0 : Int) ≤ res.x_res.toNat - 1 by omega)
  have hby := clamp_bounds (s.y - signed9 p.b2 (p.b0.toNat.testBit 5))
    (show (0 : Int) ≤ res.y_res.toNat - 1 by omega)
  exact ⟨⟨hbx.1, by simpa [move] using hbx.2⟩, hby.1, by simpa [move] using hby.2⟩

theorem clampTo_eq_clamp {res : UInt16} (h : 1 ≤ res.toNat) (v : Int) :
    Mouse.clampTo res v = clamp v 0 (res.toNat - 1) := by
  simp only [Mouse.clampTo, clamp]
  split_ifs <;> omega

/-- The promotion through `uint16_t` and back, for all 256 low bytes. -/
theorem toInt16_sign_extended (low : UInt8) :
    (0xFF00 ||| low.toUInt16).toInt16.toInt = low.toNat - 256 := by
  have hall : ∀ n < 256,
      (0xFF00 ||| (UInt8.ofNat n).toUInt16).toInt16.toInt = (n : Int) - 256 := by
    decide +kernel
  simpa using hall low.toNat low.toNat_lt

theorem toInt16_zero_extended (low : UInt8) : low.toUInt16.toInt16.toInt = low.toNat := by
  have hall : ∀ n < 256, ((UInt8.ofNat n).toUInt16).toInt16.toInt = (n : Int) := by
    decide +kernel
  simpa using hall low.toNat low.toNat_lt

theorem packetDelta_eq_signed9 {b0 sign low : UInt8} {i : Nat} (hsign : sign.toNat = 2 ^ i) :
    (packetDelta b0 sign low).toInt = signed9 low (b0.toNat.testBit i) := by
  rw [packetDelta, anyBit_eq_testBit hsign, signed9]
  cases b0.toNat.testBit i with
  | false =>
    rw [if_neg (by simp), toInt16_zero_extended]
    simp
  | true =>
    rw [if_pos rfl, toInt16_sign_extended]
    simp

/-- **One packet, decoded and applied, is one move of the pointer.** -/
theorem Mouse.pointer_update {res : GpuResInfo} (hx : 1 ≤ res.x_res.toNat)
    (hy : 1 ≤ res.y_res.toNat) (m : Mouse) (p : PacketBytes) :
    (m.update res (decodePacket p)).pointer = m.pointer.move res p := by
  simp only [pointer, update, decodePacket, Pointer.move, clampTo_eq_clamp hx, clampTo_eq_clamp hy]
  congr 1
  · rw [packetDelta_eq_signed9 (i := 4) rfl]
  · rw [packetDelta_eq_signed9 (i := 5) rfl]
  · congr 1
    · exact anyBit_eq_testBit (i := 0) rfl
    · exact anyBit_eq_testBit (i := 2) rfl
    · exact anyBit_eq_testBit (i := 1) rfl

/-! ### The assembler on a stream -/

theorem MouseInput.step_of_delivers {res : GpuResInfo} {tr : List PortEvent} {byte : UInt8}
    (h : Delivers tr byte) (w : MouseInput) :
    step res w tr = some ({ w with driver := w.driver.receive 0 byte }.apply res) := by
  obtain ⟨data, hread⟩ := h
  exact runs_mouseHandle.mpr ⟨0, byte, kbcReadOutbuffLoop_success hread _, rfl⟩

/-- The three interrupts of one packet: the mouse is untouched until the third, which applies the
    packet and leaves the assembler idle. -/
theorem MouseInput.run_packet (res : GpuResInfo) {w : MouseInput} {p : PacketBytes}
    {t₀ t₁ t₂ : List PortEvent} (hidle : w.driver.current_byte_index = 0)
    (hhdr : p.b0.toNat.testBit 3 = true) (h₀ : Delivers t₀ p.b0) (h₁ : Delivers t₁ p.b1)
    (h₂ : Delivers t₂ p.b2) :
    ∃ w₁ w₂ w₃, step res w t₀ = some w₁ ∧ step res w₁ t₁ = some w₂ ∧ step res w₂ t₂ = some w₃ ∧
      w₁.mouse = w.mouse ∧ w₂.mouse = w.mouse ∧ w₃.driver.current_byte_index = 0 ∧
      w₃.mouse = w.mouse.update res (decodePacket p) := by
  have hbit : anyBit p.b0 mouseDpFirstB = true := by
    rw [anyBit_eq_testBit (i := 3) rfl]
    exact hhdr
  refine ⟨_, _, _, step_of_delivers h₀ w, step_of_delivers h₁ _, step_of_delivers h₂ _, ?_⟩
  simp [MouseDriver.receive, MouseDriver.assemble, hidle, hbit, apply]

/-- **An undisturbed packet stream is followed move by move.** From an idle assembler, over
    packets delivered one byte per successful interrupt: after any number of interrupts the mouse
    has been updated once for each packet that is complete, in order, and the pointer is where the
    moves of these packets put it. It is on the screen from the first complete packet on, and
    before that if it was at the start. -/
theorem packet_stream_applied (res : GpuResInfo) (w : MouseInput) (ps : List PacketBytes)
    (trs : List (List PortEvent)) (hidle : w.driver.current_byte_index = 0)
    (hx : 1 ≤ res.x_res.toNat) (hy : 1 ≤ res.y_res.toNat)
    (hps : ∀ p ∈ ps, p.b0.toNat.testBit 3 = true)
    (hdel : List.Forall₂ MouseInput.Delivers trs (packetStream ps)) (n : Nat) :
    ∃ w', run (MouseInput.step res) w (trs.take n) = some w' ∧
      w'.mouse.applied = w.mouse.applied ++ (ps.take (n / 3)).map decodePacket ∧
      w'.mouse.pointer = (ps.take (n / 3)).foldl (Pointer.move res) w.mouse.pointer ∧
      (w.mouse.pointer.OnScreen res ∨ ps ≠ [] ∧ 3 ≤ n → w'.mouse.pointer.OnScreen res) := by
  induction ps generalizing w trs n with
  | nil =>
    obtain rfl := List.forall₂_nil_right_iff.mp hdel
    exact ⟨w, by simp, by simp, by simp, by simp⟩
  | cons p ps ih =>
    rw [packetStream_cons] at hdel
    obtain _ | ⟨h₀, _ | ⟨h₁, _ | ⟨h₂, hrest⟩⟩⟩ := hdel
    obtain ⟨w₁, w₂, w₃, hw₁, hw₂, hw₃, hm₁, hm₂, hidle₃, hm₃⟩ :=
      MouseInput.run_packet res hidle (hps p List.mem_cons_self) h₀ h₁ h₂
    match n with
    -- inside a packet nothing has moved yet
    | 0 => exact ⟨w, by simp, by simp, by simp, by simp⟩
    | 1 => exact ⟨w₁, by simp [run, hw₁], by simp [hm₁], by simp [hm₁], by simp [hm₁]⟩
    | 2 => exact ⟨w₂, by simp [run, hw₁, hw₂], by simp [hm₂], by simp [hm₂], by simp [hm₂]⟩
    | n + 3 =>
      obtain ⟨w', hrun, happ, hptr, hon⟩ :=
        ih w₃ _ hidle₃ (fun q hq => hps q (List.mem_cons_of_mem p hq)) hrest n
      have hdiv : (n + 3) / 3 = n / 3 + 1 := by omega
      have hmove : w₃.mouse.pointer = w.mouse.pointer.move res p := by
        rw [hm₃, Mouse.pointer_update hx hy]
      refine ⟨w', ?_, ?_, ?_, fun _ => hon (.inl ?_)⟩
      · simpa [run, hw₁, hw₂, hw₃] using hrun
      · rw [happ, hm₃, hdiv]
        simp [Mouse.update]
      · rw [hptr, hmove, hdiv]
        simp
      · rw [hmove]
        exact Pointer.onScreen_move hx hy _ p

/-- One packet, left button down, five to the right and three up from the top left corner. -/
theorem packet_stream_applied_one_packet :
    ∃ w', run (MouseInput.step ⟨1152, 864⟩) (MouseInput.startup Mouse.fresh)
        ([mouseByte 0x09, mouseByte 0x05, mouseByte 0x03].take 3) = some w' ∧
      w'.mouse.applied.length = 1 ∧
      w'.mouse.pointer = ⟨5, 0, ⟨true, false, false⟩, ⟨false, false, false⟩⟩ ∧
      w'.mouse.pointer.OnScreen ⟨1152, 864⟩ := by
  obtain ⟨w', hrun, happ, hptr, hon⟩ :=
    packet_stream_applied ⟨1152, 864⟩ (MouseInput.startup Mouse.fresh) [⟨0x09, 0x05, 0x03⟩]
      [mouseByte 0x09, mouseByte 0x05, mouseByte 0x03] rfl (by decide) (by decide) (by decide)
      (.cons ⟨0, by decide⟩ (.cons ⟨0, by decide⟩ (.cons ⟨0, by decide⟩ .nil))) 3
  refine ⟨w', hrun, ?_, ?_, hon (.inr ⟨by simp, le_refl 3⟩)⟩
  · rw [happ]
    rfl
  · rw [hptr]
    decide

end Lcom
