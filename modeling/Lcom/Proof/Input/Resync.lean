import Lcom.Proof.Input.MousePackets

/-!
# Back in step

The assembler checks the header bit of a byte only when it waits for a first byte. When it has lost
its place it files the next packet's bytes wrongly, but it is waiting again at the end of that packet
at the latest: what is left of it has the bit clear and is skipped.
-/

namespace Lcom

open Lib

/-- Bit 3 marks the first byte of the packet and none of the others. -/
structure PacketBytes.Marked (p : PacketBytes) : Prop where
  first : p.b0.toNat.testBit 3 = true
  second : p.b1.toNat.testBit 3 = false
  third : p.b2.toNat.testBit 3 = false

theorem header_iff (byte : UInt8) : anyBit byte mouseDpFirstB = byte.toNat.testBit 3 :=
  anyBit_eq_testBit rfl

namespace MouseDriver

/-- One interrupt, without the part of the handler that applies the packet. -/
def step (d : MouseDriver) (tr : List PortEvent) : Option MouseDriver :=
  ((mouseReadPacket d).exec tr).map Prod.snd

/-- The driver after successful reads of these bytes. -/
def feed (d : MouseDriver) (bytes : List UInt8) : MouseDriver :=
  bytes.foldl (fun d byte => d.receive 0 byte) d

theorem feed_nil (d : MouseDriver) : d.feed [] = d := rfl

theorem feed_cons (d : MouseDriver) (byte : UInt8) (bytes : List UInt8) :
    d.feed (byte :: bytes) = (d.receive 0 byte).feed bytes := rfl

theorem feed_append (d : MouseDriver) (bytes bytes' : List UInt8) :
    d.feed (bytes ++ bytes') = (d.feed bytes).feed bytes' := List.foldl_append

theorem step_of_delivers {d : MouseDriver} {tr : List PortEvent} {byte : UInt8}
    (h : MouseInput.Delivers tr byte) : d.step tr = some (d.receive 0 byte) := by
  obtain ⟨data, hread⟩ := h
  have hrun : (mouseReadPacket d).Runs tr (0, d.receive 0 byte) := by
    rw [mouseReadPacket_eq, Prog.runs_bind_ret]
    exact ⟨(0, byte), kbcReadOutbuffLoop_success hread _, rfl⟩
  unfold step
  rw [hrun]
  rfl

theorem run_delivers {d : MouseDriver} {trs : List (List PortEvent)} {bytes : List UInt8}
    (h : List.Forall₂ MouseInput.Delivers trs bytes) : run step d trs = some (d.feed bytes) := by
  induction h generalizing d with
  | nil => rfl
  | cons hbyte _ ih => exact run_cons_eq_some.mpr ⟨_, step_of_delivers hbyte, ih⟩

/-! ## One byte -/

variable {d : MouseDriver}

theorem receive_first (hindex : d.current_byte_index = 0) {byte : UInt8}
    (hbit : byte.toNat.testBit 3 = true) :
    d.receive 0 byte = { d with
      current_byte := byte, bytes := { d.bytes with b0 := byte }, current_byte_index := 1
      packet_ready := false } := by
  simp [receive, assemble, hindex, header_iff, hbit]

/-- Between packets a byte without the bit is skipped. -/
theorem receive_skipped (hindex : d.current_byte_index = 0) {byte : UInt8}
    (hbit : byte.toNat.testBit 3 = false) :
    d.receive 0 byte = { d with current_byte := byte } := by
  simp [receive, assemble, hindex, header_iff, hbit]

theorem receive_second (hindex : d.current_byte_index = 1) (byte : UInt8) :
    d.receive 0 byte = { d with
      current_byte := byte, bytes := { d.bytes with b1 := byte }, current_byte_index := 2 } := by
  simp [receive, assemble, hindex]

theorem receive_third (hindex : d.current_byte_index = 2) (byte : UInt8) :
    d.receive 0 byte = { d with
      current_byte := byte, bytes := { d.bytes with b2 := byte }, current_byte_index := 0
      packet_ready := true, completed := d.completed ++ [{ d.bytes with b2 := byte }] } := by
  simp [receive, assemble, hindex]

/-! ## One packet -/

/-- A packet, from an idle assembler: it is completed by its third byte. -/
theorem feed_packet (hindex : d.current_byte_index = 0) {p : PacketBytes} (hp : p.Marked) :
    (d.feed [p.b0]).completed = d.completed ∧ (d.feed [p.b0, p.b1]).completed = d.completed ∧
      (d.feed [p.b0, p.b1, p.b2]).current_byte_index = 0 ∧
      (d.feed [p.b0, p.b1, p.b2]).packet_ready = true ∧
      (d.feed [p.b0, p.b1, p.b2]).bytes = p ∧
      (d.feed [p.b0, p.b1, p.b2]).completed = d.completed ++ [p] := by
  have hfirst := receive_first hindex hp.first
  have hsecond := receive_second (d := d.receive 0 p.b0) (by rw [hfirst]) p.b1
  have hthird := receive_third (d := (d.receive 0 p.b0).receive 0 p.b1) (by rw [hsecond]) p.b2
  simp only [feed_cons, feed_nil]
  rw [hthird, hsecond, hfirst]
  exact ⟨rfl, rfl, rfl, rfl, rfl, rfl⟩

/-- What the first packet does, wherever the assembler stands: it is idle afterwards, and one packet
    has been completed at some point, rightly framed or not. -/
theorem feed_any (hindex : d.current_byte_index.toNat ≤ 2) {p : PacketBytes} (hp : p.Marked) :
    ∃ early, ((d.feed [p.b0]).completed = d.completed ∨
        (d.feed [p.b0]).completed = d.completed ++ [early]) ∧
      ((d.feed [p.b0, p.b1]).completed = d.completed ∨
        (d.feed [p.b0, p.b1]).completed = d.completed ++ [early]) ∧
      (d.feed [p.b0, p.b1, p.b2]).completed = d.completed ++ [early] ∧
      (d.feed [p.b0, p.b1, p.b2]).current_byte_index = 0 := by
  have hcases : d.current_byte_index = 0 ∨ d.current_byte_index = 1 ∨ d.current_byte_index = 2 := by
    simp only [← UInt8.toNat_inj]
    change _ = 0 ∨ _ = 1 ∨ _ = 2
    omega
  rcases hcases with h0 | h1 | h2
  · obtain ⟨hone, htwo, hidle, -, -, hthree⟩ := feed_packet h0 hp
    exact ⟨p, .inl hone, .inl htwo, hthree, hidle⟩
  · -- the first two bytes are filed as second and third
    have hfirst := receive_second h1 p.b0
    have hsecond := receive_third (d := d.receive 0 p.b0) (by rw [hfirst]) p.b1
    have hthird := receive_skipped (d := (d.receive 0 p.b0).receive 0 p.b1) (by rw [hsecond])
      hp.third
    refine ⟨{ d.bytes with b1 := p.b0, b2 := p.b1 }, ?_⟩
    simp only [feed_cons, feed_nil]
    rw [hthird, hsecond, hfirst]
    exact ⟨.inl rfl, .inr rfl, rfl, rfl⟩
  · -- the first byte is filed as the third one
    have hfirst := receive_third h2 p.b0
    have hsecond := receive_skipped (d := d.receive 0 p.b0) (by rw [hfirst]) hp.second
    have hthird := receive_skipped (d := (d.receive 0 p.b0).receive 0 p.b1)
      (by rw [hsecond, hfirst]) hp.third
    refine ⟨{ d.bytes with b2 := p.b0 }, ?_⟩
    simp only [feed_cons, feed_nil]
    rw [hthird, hsecond, hfirst]
    exact ⟨.inr rfl, .inr rfl, rfl, rfl⟩

/-! ## A stream -/

/-- From an idle assembler every packet of a stream is completed by its own third byte. -/
theorem feed_stream (hindex : d.current_byte_index = 0) {ps : List PacketBytes}
    (hps : ∀ p ∈ ps, p.Marked) {n : Nat} (hn : n ≤ 3 * ps.length) :
    (d.feed ((packetStream ps).take n)).completed = d.completed ++ ps.take (n / 3) ∧
      ∀ k, n = 3 * (k + 1) → (d.feed ((packetStream ps).take n)).packet_ready = true ∧
        ps[k]? = some (d.feed ((packetStream ps).take n)).bytes := by
  induction ps generalizing d n with
  | nil =>
    obtain rfl : n = 0 := by simpa using hn
    exact ⟨(List.append_nil _).symm, fun k hk => by omega⟩
  | cons p ps ih =>
    obtain ⟨hone, htwo, hidle, hready, hbytes, hthree⟩ :=
      feed_packet hindex (hps p List.mem_cons_self)
    match n with
    | 0 => exact ⟨(List.append_nil _).symm, fun k hk => by omega⟩
    | 1 => exact ⟨hone.trans (List.append_nil _).symm, fun k hk => by omega⟩
    | 2 => exact ⟨htwo.trans (List.append_nil _).symm, fun k hk => by omega⟩
    | n + 3 =>
      have hdiv : (n + 3) / 3 = n / 3 + 1 := by omega
      have hrest : (packetStream (p :: ps)).take (n + 3) =
          [p.b0, p.b1, p.b2] ++ (packetStream ps).take n := rfl
      obtain ⟨hcompleted, hlast⟩ := ih hidle (fun q hq => hps q (List.mem_cons_of_mem p hq))
        (n := n) (by rw [List.length_cons] at hn; omega)
      rw [hrest, feed_append, hdiv]
      refine ⟨?_, fun k hk => ?_⟩
      · rw [hcompleted, hthree, List.take_succ_cons, List.append_assoc]
        rfl
      · cases k with
        | zero =>
          obtain rfl : n = 0 := by omega
          exact ⟨hready, congrArg some hbytes.symm⟩
        | succ k =>
          rw [List.getElem?_cons_succ]
          exact hlast k (by omega)

/-- **The assembler is back in step after one packet.** From any of its states, over a stream of
    packets with well-marked bytes: at most one packet is completed before the second packet of the
    stream has arrived, and from then on each packet is completed by its own third byte. -/
theorem assembler_resynchronises (hindex : d.current_byte_index.toNat ≤ 2) {ps : List PacketBytes}
    (hps : ∀ p ∈ ps, p.Marked) {trs : List (List PortEvent)}
    (hdel : List.Forall₂ MouseInput.Delivers trs (packetStream ps)) :
    ∃ early : List PacketBytes, early.length ≤ 1 ∧ ∀ n ≤ 3 * ps.length,
      ∃ d', run step d (trs.take n) = some d' ∧
        (n < 3 → d'.completed = d.completed ∨ d'.completed = d.completed ++ early) ∧
        (3 ≤ n → d'.completed = d.completed ++ early ++ ps.tail.take (n / 3 - 1)) ∧
        ∀ k, 1 ≤ k → n = 3 * (k + 1) → d'.packet_ready = true ∧ ps[k]? = some d'.bytes := by
  have hrun : ∀ n, run step d (trs.take n) = some (d.feed ((packetStream ps).take n)) := fun n =>
    run_delivers (List.forall₂_take n hdel)
  cases ps with
  | nil =>
    refine ⟨[], by simp, fun n hn => ⟨_, hrun n, ?_⟩⟩
    obtain rfl : n = 0 := by simpa using hn
    exact ⟨fun _ => .inl rfl, fun h => by omega, fun k _ hk => by omega⟩
  | cons p ps =>
    obtain ⟨early, hone, htwo, hthree, hidle⟩ := feed_any hindex (hps p List.mem_cons_self)
    refine ⟨[early], by simp, fun n hn => ⟨_, hrun n, ?_⟩⟩
    match n with
    | 0 => exact ⟨fun _ => .inl rfl, fun h => by omega, fun k _ hk => by omega⟩
    | 1 => exact ⟨fun _ => hone, fun h => by omega, fun k _ hk => by omega⟩
    | 2 => exact ⟨fun _ => htwo, fun h => by omega, fun k _ hk => by omega⟩
    | n + 3 =>
      have hdiv : (n + 3) / 3 - 1 = n / 3 := by omega
      have hrest : (packetStream (p :: ps)).take (n + 3) =
          [p.b0, p.b1, p.b2] ++ (packetStream ps).take n := rfl
      obtain ⟨hcompleted, hlast⟩ := feed_stream hidle
        (fun q hq => hps q (List.mem_cons_of_mem p hq)) (n := n)
        (by rw [List.length_cons] at hn; omega)
      rw [hrest, feed_append, hdiv]
      refine ⟨fun h => by omega, fun _ => ?_, fun k hk hkn => ?_⟩
      · rw [hcompleted, hthree]
        rfl
      · obtain ⟨k, rfl⟩ : ∃ j, k = j + 1 := ⟨k - 1, by omega⟩
        rw [List.getElem?_cons_succ]
        exact hlast k (by omega)

/-- A header filed as a third byte, and the packet after it. -/
theorem assembler_resynchronises_late :
    ∃ early : List PacketBytes, early.length ≤ 1 ∧
      ∃ d', run step { MouseDriver.startup with current_byte_index := 2 }
          [mouseByte 0x09, mouseByte 0x05, mouseByte 0x03,
            mouseByte 0x08, mouseByte 0x01, mouseByte 0x02] = some d' ∧
        d'.completed = early ++ [⟨0x08, 0x01, 0x02⟩] := by
  obtain ⟨early, hlen, hall⟩ := @assembler_resynchronises
    { MouseDriver.startup with current_byte_index := 2 } (by decide)
    [⟨0x09, 0x05, 0x03⟩, ⟨0x08, 0x01, 0x02⟩]
    (by simpa using ⟨⟨by decide, by decide, by decide⟩, ⟨by decide, by decide, by decide⟩⟩)
    [mouseByte 0x09, mouseByte 0x05, mouseByte 0x03, mouseByte 0x08, mouseByte 0x01,
      mouseByte 0x02]
    (.cons ⟨0, by decide⟩ (.cons ⟨0, by decide⟩ (.cons ⟨0, by decide⟩ (.cons ⟨0, by decide⟩
      (.cons ⟨0, by decide⟩ (.cons ⟨0, by decide⟩ .nil))))))
  obtain ⟨d', hrun, -, hcompleted, -⟩ := hall 6 (by decide)
  exact ⟨early, hlen, d', hrun, hcompleted (by decide)⟩

end MouseDriver

end Lcom
