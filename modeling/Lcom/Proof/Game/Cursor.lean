import Lcom.Proof.Drivers.ReadOutbuff
import Lcom.Proof.Drivers.WriteCommand
import Lcom.Proof.Game.Scene

/-!
# From the mouse to the cursor

Bytes of the mouse come in at the data port, three of them make a packet, and a packet moves the
cursor. Over a whole run of the program, whatever else arrives in between and whatever fails: the
packets are made of the bytes that were read, in their order; each of them is applied, in its order and
before the next one, though it may be applied more than once, since a read that fails leaves the last
packet on hold; and the cursor is where the packets have moved it.
-/

namespace Lcom

open Lib

/-- Every element of the first list arrives in the second, in order; it may arrive again until the next
    one does. -/
inductive AtLeastOnce {α : Type} : List α → List α → Prop where
  | nil : AtLeastOnce [] []
  | next {sent received : List α} (h : AtLeastOnce sent received) (a : α) :
    AtLeastOnce (sent ++ [a]) (received ++ [a])
  | again {sent received : List α} {a : α} (h : AtLeastOnce (sent ++ [a]) received) :
    AtLeastOnce (sent ++ [a]) (received ++ [a])

/-! ## One interrupt -/

/-- The bytes of the packet that is being assembled. -/
def MouseDriver.pending (d : MouseDriver) : List UInt8 :=
  [d.bytes.b0, d.bytes.b1].take d.current_byte_index.toNat

/-- The mouse after the bytes `read`, when it began at `start`. -/
structure MouseInput.Delivered (res : GpuResInfo) (start : Pointer) (read : List UInt8)
    (w : MouseInput) : Prop where
  sound : w.driver.Sound
  held : w.driver.packet_ready = true → ∃ earlier, w.driver.completed = earlier ++ [w.driver.bytes]
  bytes : (packetStream w.driver.completed ++ w.driver.pending).Sublist read
  applied : ∃ packets, AtLeastOnce w.driver.completed packets ∧
    w.mouse.applied = packets.map decodePacket ∧ w.mouse.pointer = packets.foldl (Pointer.move res) start

theorem packetStream_concat (ps : List PacketBytes) (p : PacketBytes) :
    packetStream (ps ++ [p]) = packetStream ps ++ [p.b0, p.b1, p.b2] := by
  unfold packetStream
  rw [List.flatMap_append, List.flatMap_singleton]

section
variable {res : GpuResInfo} {start : Pointer} {read more : List UInt8} {w w' : MouseInput}

/-- Bytes that the mouse has nothing to do with. -/
theorem MouseInput.Delivered.append (h : w.Delivered res start read) (more : List UInt8) :
    w.Delivered res start (read ++ more) :=
  ⟨h.sound, h.held, h.bytes.trans (List.sublist_append_left read more), h.applied⟩

/-- The packet that the driver holds, applied once more. -/
theorem MouseInput.applied_again (hx : 1 ≤ res.x_res.toNat) (hy : 1 ≤ res.y_res.toNat) {m : Mouse}
    {completed packets : List PacketBytes} {p : PacketBytes}
    (hmap : m.applied = packets.map decodePacket)
    (hpointer : m.pointer = packets.foldl (Pointer.move res) start)
    (hdelivered : AtLeastOnce completed (packets ++ [p])) :
    ∃ packets, AtLeastOnce completed packets ∧
      (m.update res (decodePacket p)).applied = packets.map decodePacket ∧
      (m.update res (decodePacket p)).pointer = packets.foldl (Pointer.move res) start := by
  refine ⟨packets ++ [p], hdelivered, ?_, ?_⟩
  · rw [List.map_append, ← hmap]
    rfl
  · rw [List.foldl_append, ← hpointer]
    exact Mouse.pointer_update hx hy m p

/-- A read that brings no byte for the assembler: the packet on hold, if any, is applied again. -/
theorem MouseInput.Delivered.stray (hx : 1 ≤ res.x_res.toNat) (hy : 1 ≤ res.y_res.toNat)
    (h : w.Delivered res start read) (byte : UInt8) (more : List UInt8) :
    ({ w with driver := { w.driver with current_byte := byte } }.apply res).Delivered res start
      (read ++ more) := by
  have hmore := h.append more
  unfold MouseInput.apply
  dsimp only
  split
  · next hready =>
    refine ⟨⟨h.sound.index, h.sound.held⟩, h.held, hmore.bytes, ?_⟩
    obtain ⟨packets, hdelivered, hmap, hpointer⟩ := h.applied
    obtain ⟨earlier, hlast⟩ := h.held hready
    refine applied_again hx hy hmap hpointer ?_
    dsimp only
    rw [hlast] at hdelivered ⊢
    exact hdelivered.again
  · exact ⟨⟨h.sound.index, h.sound.held⟩, h.held, hmore.bytes, h.applied⟩

/-- **One interrupt of the mouse.** -/
theorem MouseInput.Delivered.handle (hx : 1 ≤ res.x_res.toNat) (hy : 1 ≤ res.y_res.toNat)
    {tr : List PortEvent} (h : w.Delivered res start read) (hrun : (w.handle res).Runs tr w') :
    w'.Delivered res start (read ++ consumed tr) := by
  obtain ⟨r, byte, hread, rfl⟩ := runs_mouseHandle.mp hrun
  by_cases hr : r = 0
  · subst hr
    have hone : consumed tr = [byte] := by
      rcases (kbcReadOutbuffLoop_outcome hread).2 with ⟨heq, -⟩ | ⟨_, -, -, hone, -⟩
      · cases heq
      · exact hone
    have hsound := h.sound.receive 0 byte
    have hbytes := h.bytes
    unfold MouseDriver.pending at hbytes
    rcases h.sound.index with h0 | h1 | h2
    · by_cases hheader : anyBit byte mouseDpFirstB = true
      · -- a packet begins
        have hfirst : w.driver.receive 0 byte = { w.driver with
            current_byte := byte, bytes := { w.driver.bytes with b0 := byte }
            current_byte_index := 1, packet_ready := false } := by
          simp [MouseDriver.receive, MouseDriver.assemble, h0, hheader]
        rw [hfirst] at hsound ⊢
        refine ⟨hsound, fun hready => (by cases hready), ?_, h.applied⟩
        rw [hone]
        exact ((List.sublist_append_left _ _).trans hbytes).append (List.Sublist.refl [byte])
      · have hstray : w.driver.receive 0 byte = { w.driver with current_byte := byte } := by
          simp [MouseDriver.receive, MouseDriver.assemble, h0, hheader]
        rw [hstray]
        exact h.stray hx hy byte _
    · have hsecond : w.driver.receive 0 byte = { w.driver with
          current_byte := byte, bytes := { w.driver.bytes with b1 := byte }
          current_byte_index := 2 } := by
        simp [MouseDriver.receive, MouseDriver.assemble, h1]
      have hidle := h.sound.idle (by simp [h1])
      rw [hsecond] at hsound ⊢
      unfold MouseInput.apply
      dsimp only
      rw [if_neg (by simp [hidle])]
      refine ⟨hsound, fun hready => absurd hready (by simp [hidle]), ?_, h.applied⟩
      rw [h1] at hbytes
      rw [hone]
      have happend : packetStream w.driver.completed ++ [w.driver.bytes.b0, byte] =
          packetStream w.driver.completed ++ [w.driver.bytes.b0] ++ [byte] := by
        rw [List.append_assoc]
        rfl
      change (packetStream w.driver.completed ++ [w.driver.bytes.b0, byte]).Sublist _
      rw [happend]
      exact hbytes.append (List.Sublist.refl [byte])
    · -- the third byte completes the packet, which is applied at once
      have hthird : w.driver.receive 0 byte = { w.driver with
          current_byte := byte, bytes := { w.driver.bytes with b2 := byte }
          current_byte_index := 0, packet_ready := true
          completed := w.driver.completed ++ [{ w.driver.bytes with b2 := byte }] } := by
        simp [MouseDriver.receive, MouseDriver.assemble, h2]
      obtain ⟨packets, hdelivered, hmap, hpointer⟩ := h.applied
      rw [hthird] at hsound ⊢
      unfold MouseInput.apply
      dsimp only
      rw [if_pos rfl]
      refine ⟨⟨hsound.index, hsound.held⟩, fun _ => ⟨_, rfl⟩, ?_, ?_⟩
      · rw [h2] at hbytes
        rw [hone]
        dsimp only
        rw [packetStream_concat]
        have happend : packetStream w.driver.completed ++ [w.driver.bytes.b0, w.driver.bytes.b1, byte] =
            packetStream w.driver.completed ++ [w.driver.bytes.b0, w.driver.bytes.b1] ++ [byte] := by
          rw [List.append_assoc]
          rfl
        change (packetStream w.driver.completed ++ [w.driver.bytes.b0, w.driver.bytes.b1, byte] ++
          []).Sublist _
        rw [List.append_nil, happend]
        exact hbytes.append (List.Sublist.refl [byte])
      · exact applied_again hx hy hmap hpointer (hdelivered.next _)
  · have hfailed : w.driver.receive r byte = { w.driver with current_byte := byte } := by
      simp [MouseDriver.receive, hr]
    rw [hfailed]
    exact h.stray hx hy byte _

end

/-! ## One message -/

/-- The bytes that were read from the data port. -/
def dataBytes (tr : List SysEvent) : List UInt8 := consumed (tr.filterMap portOf)

theorem dataBytes_append (tr rest : List SysEvent) :
    dataBytes (tr ++ rest) = dataBytes tr ++ dataBytes rest := by
  unfold dataBytes
  rw [List.filterMap_append, consumed_append]

/-- What a handler leaves that is not the mouse's: everything of the mouse but the look of the cursor. -/
structure SameMouse (w w' : World) : Prop where
  res : w'.gpu_res_info = w.gpu_res_info
  driver : w'.driver = w.driver
  applied : w'.mouse.applied = w.mouse.applied
  pointer : w'.mouse.pointer = w.mouse.pointer

theorem SameMouse.refl (w : World) : SameMouse w w := ⟨rfl, rfl, rfl, rfl⟩

section
variable {w w' w'' : World}

theorem SameMouse.trans (h : SameMouse w w') (h' : SameMouse w' w'') : SameMouse w w'' :=
  ⟨h'.res.trans h.res, h'.driver.trans h.driver, h'.applied.trans h.applied,
    h'.pointer.trans h.pointer⟩

theorem SameMouse.delivered {res : GpuResInfo} {start : Pointer} {read : List UInt8}
    (h : SameMouse w w') (hw : w.input.Delivered res start read) :
    w'.input.Delivered res start read := by
  obtain ⟨hsound, hheld, hbytes, packets, hdelivered, hmap, hpointer⟩ := hw
  have hdriver : w'.input.driver = w.input.driver := h.driver
  refine ⟨hdriver ▸ hsound, hdriver ▸ hheld, hdriver ▸ hbytes, packets, hdriver ▸ hdelivered, ?_, ?_⟩
  · exact h.applied.trans hmap
  · exact h.pointer.trans hpointer

theorem sameMouse_escapeQuits (h : w.escapeQuits = .ok w') : SameMouse w w' := by
  rw [World.escapeQuits] at h
  split at h
  · obtain ⟨pressed, -, heq⟩ := bind_eq_ok.mp h
    cases heq
    cases pressed with
    | true => exact ⟨rfl, rfl, rfl, rfl⟩
    | false => exact .refl w
  · cases h
    exact .refl w

theorem sameMouse_keyboardHandle {host : Host} {tr : List SysEvent}
    (h : (w.keyboardHandle host).Runs tr (.ok w')) : SameMouse w w' := by
  obtain ⟨ok, -, heq⟩ := Prog.runs_bind_ret.mp h
  obtain ⟨keyboard, -, hescape⟩ := bind_eq_ok.mp heq.symm
  have hsame := sameMouse_escapeQuits hescape
  exact ⟨hsame.res, hsame.driver, hsame.applied, hsame.pointer⟩

theorem sameMouse_drawMenu (h : w.drawMenu = .ok w') : SameMouse w w' := by
  rw [World.drawMenu] at h
  split at h
  · cases h
  · obtain ⟨_, -, heq⟩ := bind_eq_ok.mp h
    cases heq
    exact ⟨rfl, rfl, rfl, rfl⟩

/-- The hit test sets the shape of the cursor and nothing else of the mouse. -/
theorem Ui.hover_mouse {u u' : Ui} (h : u.hover = .ok u') :
    u'.mouse.applied = u.mouse.applied ∧ u'.mouse.pointer = u.mouse.pointer := by
  rw [Ui.hover] at h
  split at h
  · split at h
    · cases h
    · cases h
      rw [Ui.walk_mouse]
      split
      · exact ⟨rfl, rfl⟩
      · exact ⟨rfl, rfl⟩
  · cases h
    exact ⟨rfl, rfl⟩

theorem sameMouse_drawMouse (h : w.drawMouse = .ok w') : SameMouse w w' := by
  obtain ⟨⟨ui, call⟩, hui, heq⟩ := bind_eq_ok.mp h
  cases heq
  obtain ⟨u, hhover, hcursor⟩ := bind_eq_ok.mp hui
  obtain ⟨happlied, hpointer⟩ := Ui.hover_mouse hhover
  rw [Ui.drawCursor] at hcursor
  split at hcursor
  · cases hcursor
    exact ⟨rfl, rfl, happlied, hpointer⟩
  · obtain ⟨_, -, heq⟩ := bind_eq_ok.mp hcursor
    cases heq
    exact ⟨rfl, rfl, happlied, hpointer⟩

theorem sameMouse_timerTick (h : w.timerTick = .ok w') : SameMouse w w' := by
  obtain ⟨w₁, hframe, heq⟩ := bind_eq_ok.mp h
  cases heq
  have hsame : SameMouse w w₁ := by
    split at hframe
    · cases hframe
      exact .refl w
    · obtain ⟨w₂, hmenu, hmouse⟩ := bind_eq_ok.mp hframe
      refine SameMouse.trans ?_ (sameMouse_drawMouse hmouse)
      split at hmenu
      · exact sameMouse_drawMenu hmenu
      · cases hmenu
        exact .refl w
  exact ⟨hsame.res, hsame.driver, hsame.applied, hsame.pointer⟩

end

section
variable {host : Host} {res : GpuResInfo} {start : Pointer} {read : List UInt8} {w w' : World}

/-- The program with its mouse. -/
structure World.Tracks (res : GpuResInfo) (start : Pointer) (read : List UInt8) (w : World) : Prop where
  mode : w.gpu_res_info = res
  delivered : w.input.Delivered res start read

theorem SameMouse.tracks (h : SameMouse w w') (hw : w.Tracks res start read) :
    w'.Tracks res start read := ⟨h.res.trans hw.mode, h.delivered hw.delivered⟩

theorem tracks_mouseHandle (hx : 1 ≤ res.x_res.toNat) (hy : 1 ≤ res.y_res.toNat)
    {tr : List SysEvent} (hw : w.Tracks res start read) (h : w.mouseHandle.Runs tr w') :
    w'.Tracks res start (read ++ dataBytes tr) := by
  obtain ⟨input, hrun, rfl⟩ := Prog.runs_bind_ret.mp h
  have hinput := runs_driver hrun
  rw [hw.mode] at hinput
  exact ⟨hw.mode, hw.delivered.handle hx hy hinput⟩

/-- **One message**, with the bytes that were read for it. -/
theorem tracks_handleInterrupts (hx : 1 ≤ res.x_res.toNat) (hy : 1 ≤ res.y_res.toNat)
    {msg : Message} {tr : List SysEvent} (hw : w.Tracks res start read)
    (h : (handleInterrupts host w msg).Runs tr (.ok w')) :
    w'.Tracks res start (read ++ dataBytes tr) := by
  obtain ⟨tr₁, w₁, tr₂, rfl, hmouse, hrun⟩ := Prog.runs_bind.mp h
  obtain ⟨o₂, hkeyboard, heq⟩ := Prog.runs_bind_ret.mp hrun
  obtain ⟨w₂, rfl, htimer⟩ := bind_eq_ok.mp heq.symm
  obtain ⟨w₃, htick, heq⟩ := bind_eq_ok.mp htimer
  cases heq
  have hfirst : w₁.Tracks res start (read ++ dataBytes tr₁) := by
    split at hmouse
    · exact tracks_mouseHandle hx hy hw hmouse
    · obtain ⟨rfl, rfl⟩ := Prog.runs_ret.mp hmouse
      exact ⟨hw.mode, hw.delivered.append _⟩
  have hsecond : SameMouse w₁ w₂ := by
    split at hkeyboard
    · have hsame := sameMouse_keyboardHandle hkeyboard
      exact ⟨hsame.res, hsame.driver, hsame.applied, hsame.pointer⟩
    · obtain ⟨-, heq⟩ := Prog.runs_ret.mp hkeyboard
      cases heq
      exact ⟨rfl, rfl, rfl, rfl⟩
  have hthird : SameMouse w₂ w₃ := by
    split at htick
    · have hsame := sameMouse_timerTick htick
      exact ⟨hsame.res, hsame.driver, hsame.applied, hsame.pointer⟩
    · cases htick
      exact ⟨rfl, rfl, rfl, rfl⟩
  have hlast := (hsecond.trans hthird).tracks hfirst
  rw [dataBytes_append, ← List.append_assoc]
  exact ⟨hlast.mode, hlast.delivered.append _⟩

/-! ## The loop -/

theorem mainLoop_tracks (hx : 1 ≤ res.x_res.toNat) (hy : 1 ≤ res.y_res.toNat) {fuel : Nat}
    {tr : List SysEvent} {o : Outcome World} (hsettled : w.Settled) (hw : w.Tracks res start read)
    (hrun : (mainLoop host fuel w).Runs tr o) :
    ∃ w', o.Ends w' ∧ w'.Tracks res start (read ++ dataBytes tr) := by
  induction fuel generalizing w read tr with
  | zero =>
    rw [mainLoop] at hrun
    split at hrun
    · next hquit =>
      obtain ⟨rfl, rfl⟩ := Prog.runs_ret.mp hrun
      exact ⟨w, .inl ⟨rfl, hquit⟩, hw.mode, hw.delivered.append _⟩
    · next hquit =>
      obtain ⟨rfl, rfl⟩ := Prog.runs_ret.mp hrun
      exact ⟨w, .inr ⟨rfl, hquit⟩, hw.mode, hw.delivered.append _⟩
  | succ fuel ih =>
    by_cases hquit : w.gamestate.state = .quit
    · rw [mainLoop, if_pos hquit] at hrun
      obtain ⟨rfl, rfl⟩ := Prog.runs_ret.mp hrun
      exact ⟨w, .inl ⟨rfl, hquit⟩, hw.mode, hw.delivered.append _⟩
    · rw [mainLoop, if_neg hquit, Prog.query_bind] at hrun
      obtain ⟨r, tr', rfl, hrest⟩ := Prog.runs_ask.mp hrun
      dsimp only at hrest
      have hgood : World.Good { w with messages := w.messages + 1 } :=
        ⟨hsettled.good.valid, hsettled.good.menus, hsettled.good.mouse⟩
      have hrecorded := hsettled.receive hquit
      have hreceive : dataBytes ((SysCall.driverReceive, r) :: tr') = dataBytes tr' := rfl
      rw [hreceive]
      have hw₁ : World.Tracks res start read { w with messages := w.messages + 1 } :=
        ⟨hw.mode, hw.delivered⟩
      split at hrest
      · exact ih (.observe hgood hrecorded) ⟨hw.mode, hw.delivered⟩ hrest
      · split at hrest
        · obtain ⟨handled, o₁, rest, rfl, hhandle, hnext⟩ := Prog.runs_bind.mp hrest
          obtain ⟨w₁, rfl, hsettled₁, -⟩ := handleInterrupts_settled hgood hrecorded hhandle
          have hw₂ := tracks_handleInterrupts hx hy hw₁ hhandle
          obtain ⟨w', hends, hw'⟩ := ih hsettled₁ hw₂ hnext
          rw [dataBytes_append, ← List.append_assoc]
          exact ⟨w', hends, hw'⟩
        · exact ih (.observe hgood hrecorded) ⟨hw.mode, hw.delivered⟩ hrest

end

/-- The cursor at the start of the program. -/
def Pointer.origin : Pointer := ⟨0, 0, ⟨false, false, false⟩, ⟨false, false, false⟩⟩

theorem projInit_tracks {host : Host} {w : World} {tr : List SysEvent}
    (h : (projInit host World.startup).Runs tr (.done (0, w))) :
    w.Tracks w.gpu_res_info Pointer.origin [] := by
  obtain ⟨_, _, _, _, _, memory, -, -, hrun⟩ := projInit_course h
  obtain ⟨_, made, _, rfl, -, hrun⟩ := Prog.runs_bind.mp hrun
  cases made with
  | none => cases (Prog.runs_ret.mp hrun).2
  | some made =>
    obtain ⟨r, gpu_res_info⟩ := made
    dsimp only at hrun
    split at hrun
    · cases (Prog.runs_ret.mp hrun).2
    · split at hrun
      · cases (Prog.runs_ret.mp hrun).2
      · next menus gamestate hinit =>
        obtain ⟨-, heq⟩ := Prog.runs_ret.mp hrun
        cases heq
        refine ⟨rfl, MouseDriver.sound_startup, fun hready => (by cases hready), List.Sublist.refl [], ?_⟩
        exact ⟨[], .nil, rfl, rfl⟩

/-- **The cursor follows the mouse.** After any `proj_init` that succeeds, whatever messages arrive and
    whatever their reads deliver: the completed packets are made of bytes that were read, in their
    order; every one of them is applied, in its order and before the next; and the cursor and its
    buttons are what the applied packets make of them. -/
theorem cursor_follows_packets (host : Host) (fuel : Nat) (boot tr : List SysEvent) (w : World)
    (o : Outcome World) (hx : 1 ≤ w.gpu_res_info.x_res.toNat) (hy : 1 ≤ w.gpu_res_info.y_res.toNat)
    (hboot : (projInit host World.startup).Runs boot (.done (0, w)))
    (hloop : (mainLoop host fuel { w with skip_frame := false }).Runs tr o) :
    ∃ w' packets, o.Ends w' ∧ (packetStream w'.driver.completed).Sublist (dataBytes tr) ∧
      AtLeastOnce w'.driver.completed packets ∧ w'.mouse.applied = packets.map decodePacket ∧
      w'.mouse.pointer = packets.foldl (Pointer.move w.gpu_res_info) Pointer.origin := by
  obtain ⟨hsettled, -⟩ := projInit_settled hboot
  have hw := projInit_tracks hboot
  obtain ⟨w', hends, hw'⟩ := mainLoop_tracks (w := { w with skip_frame := false }) hx hy
    ⟨⟨hsettled.good.valid, hsettled.good.menus, hsettled.good.mouse⟩,
      ⟨hsettled.recorded.valid, hsettled.recorded.settled, hsettled.recorded.now⟩, hsettled.last⟩
    ⟨hw.mode, hw.delivered⟩ hloop
  obtain ⟨packets, hdelivered, hmap, hpointer⟩ := hw'.delivered.applied
  have hbytes := (List.sublist_append_left _ _).trans hw'.delivered.bytes
  exact ⟨w', packets, hends, hbytes, hdelivered, hmap, hpointer⟩

/-- Three interrupts of the mouse, one for each byte of a packet. -/
def moveTrace : List SysEvent :=
  [0x09, 0x05, 0xFD].flatMap fun byte =>
    [interrupt 4, granted (.port (.inb 0x64)) 0x21, granted (.port (.inb 0x60)) byte]

/-- What the loop has come to after them. -/
def moved : Outcome World :=
  ((mainLoop emptyHost 3 { booted with skip_frame := false }).exec moveTrace).getD .panicked

theorem cursor_follows_packets_move :
    ∃ w' packets, moved.Ends w' ∧ (packetStream w'.driver.completed).Sublist (dataBytes moveTrace) ∧
      AtLeastOnce w'.driver.completed packets ∧
      w'.mouse.pointer = packets.foldl (Pointer.move ⟨1024, 768⟩) Pointer.origin := by
  obtain ⟨w', packets, hends, hbytes, hdelivered, -, hpointer⟩ := cursor_follows_packets emptyHost 3
    bootTrace moveTrace booted moved (by decide) (by decide) rfl rfl
  exact ⟨w', packets, hends, hbytes, hdelivered, hpointer⟩

end Lcom
