import Lcom.Lab4.PacketTest
import Lcom.Lib.Slot
import Lcom.Proof.Drivers.Receive
import Lcom.Proof.Input.MousePackets

/-!
# Packets printed once

Each message has up to two calls of `mouse_ih` and at most one test of `packet_ready`. A packet that
has been completed is printed by the first test after its third byte, if there is one before the next
packet's first byte, and again by every further one: the driver is a slot that is read without being
emptied. `mouseTestPacket_once_iff` names the runs in which every packet meets exactly one test.
-/

namespace Lcom

open Lib

/-! ## One call of `mouse_ih` -/

/-- The read got a byte that can begin a packet. -/
def BeginsPacket (o : Int × UInt8) : Prop := o.1 = 0 ∧ anyBit o.2 mouseDpFirstB = true

/-- The read got the byte that completes a packet. -/
def CompletesPacket (d : MouseDriver) (o : Int × UInt8) : Prop :=
  o.1 = 0 ∧ d.current_byte_index = 2

/-- The packets of the driver, as far as they are counted. -/
def MouseDriver.slot (d : MouseDriver) (numbers : List Nat) : Slot :=
  ⟨d.completed.length, d.packet_ready, numbers⟩

theorem MouseDriver.Sound.turn {d : MouseDriver} (h : d.Sound) (o : Int × UInt8)
    (numbers : List Nat) :
    Slot.Turn (BeginsPacket o) (CompletesPacket d o) (d.slot numbers)
      ((d.receive o.1 o.2).slot numbers) := by
  by_cases hr : o.1 = 0
  · rcases h.index with h0 | h1 | h2
    · have hgoing : ¬ CompletesPacket d o := fun hlast => absurd (h0.symm.trans hlast.2) (by decide)
      by_cases hheader : anyBit o.2 mouseDpFirstB = true
      · exact .cleared ⟨hr, hheader⟩ hgoing
          (by simp [MouseDriver.receive, MouseDriver.assemble, hr, h0, hheader, MouseDriver.slot, Slot.clear])
      · exact .idle (fun _ hbegins => hheader hbegins.2) hgoing
          (by simp [MouseDriver.receive, MouseDriver.assemble, hr, h0, hheader, MouseDriver.slot])
    · have hready := h.idle (by simp [h1])
      exact .idle (fun hheld => absurd (hready.symm.trans hheld) (by decide))
        (fun hlast => absurd (h1.symm.trans hlast.2) (by decide))
        (by simp [MouseDriver.receive, MouseDriver.assemble, hr, h1, MouseDriver.slot])
    · exact .filled (h.idle (by simp [h2])) ⟨hr, h2⟩
        (by simp [MouseDriver.receive, MouseDriver.assemble, hr, h2, MouseDriver.slot, Slot.put])
  · exact .idle (fun _ hbegins => hr hbegins.1) (fun hlast => hr hlast.1)
      (by simp [MouseDriver.receive, hr, MouseDriver.slot])

/-! ## One message -/

/-- A message from the hardware came in. -/
def SysReply.fromHardware (r : SysReply) : Bool := !r.failed && (r.msg.notify && r.msg.hardware)

namespace PacketTest

def slot (s : PacketTest) : Slot := s.driver.slot (s.printed.map PacketPrint.number)

/-- The driver after a call of `mouse_ih` whose read had the outcome `o`. -/
def received (s : PacketTest) (o : Int × UInt8) : PacketTest :=
  { s with driver := s.driver.receive o.1 o.2 }

theorem runs_mouseIh {s s' : PacketTest} {ports : List PortEvent} :
    s.mouseIh.Runs ports s' ↔
      ∃ o, (kbcReadOutbuff s.driver.current_byte true).Runs ports o ∧ s' = s.received o := by
  have heq : s.mouseIh = kbcReadOutbuff s.driver.current_byte true >>= fun o =>
      Prog.ret (s.received o) := by
    unfold mouseIh
    rw [mouseReadPacket_eq, Prog.bind_assoc]
    rfl
  rw [heq, Prog.runs_bind_ret]

theorem received_current_byte (s : PacketTest) (o : Int × UInt8) :
    (s.received o).driver.current_byte = o.2 := by
  unfold received MouseDriver.receive MouseDriver.assemble
  dsimp only
  split_ifs <;> rfl

theorem slot_printPacket (s : PacketTest) : s.printPacket.slot = s.slot.read := by
  unfold printPacket Slot.read
  cases hready : s.driver.packet_ready with
  | false => simp [slot, MouseDriver.slot, hready]
  | true => simp [slot, MouseDriver.slot, hready, mouseGetPacket]

/-- What a message comes to: nothing, one call of `mouse_ih`, or two calls and a test. -/
inductive Handled (s : PacketTest) (e : ScanEvent) (s' : PacketTest) : Prop where
  | other (source : e.received.fromHardware = false) (eq : s' = s)
  | once (o : Int × UInt8) (source : e.received.fromHardware = true)
      (bit : e.received.msg.raises .mouse = false)
      (read : (kbcReadOutbuff s.driver.current_byte true).Runs e.ports o) (eq : s' = s.received o)
  | twice (p₁ p₂ : List PortEvent) (o₁ o₂ : Int × UInt8)
      (source : e.received.fromHardware = true) (bit : e.received.msg.raises .mouse = true)
      (ports : e.ports = p₁ ++ p₂) (first : (kbcReadOutbuff s.driver.current_byte true).Runs p₁ o₁)
      (second : (kbcReadOutbuff o₁.2 true).Runs p₂ o₂)
      (eq : s' = ((s.received o₁).received o₂).printPacket)

theorem step_handled {s s' : PacketTest} {e : ScanEvent}
    (h : receiveStep looping iterate s e = some s') : s.looping = true ∧ Handled s e s' := by
  unfold receiveStep at h
  split at h
  · rename_i hlooping
    refine ⟨hlooping, ?_⟩
    replace h : (s.iterate e.received).Runs e.ports s' := h
    cases hsource : e.received.fromHardware with
    | false =>
      refine .other hsource ?_
      unfold SysReply.fromHardware at hsource
      unfold iterate at h
      split at h
      · exact (Prog.runs_ret.mp h).2.symm
      · rename_i hreceived
        rw [if_neg (by simpa [hreceived] using hsource)] at h
        exact (Prog.runs_ret.mp h).2.symm
    | true =>
      obtain ⟨hreceived, hhardware⟩ := Bool.and_eq_true_iff.mp hsource
      unfold iterate at h
      rw [if_neg (by simpa using hreceived), if_pos hhardware] at h
      unfold handleInterrupts at h
      obtain ⟨p₁, s₁, p₂, hports, hfirst, hrest⟩ := Prog.runs_bind.mp h
      rw [runs_mouseIh] at hfirst
      obtain ⟨o₁, hfirst, rfl⟩ := hfirst
      split at hrest
      · rename_i hbit
        obtain ⟨s₂, hsecond, rfl⟩ := Prog.runs_bind_ret.mp hrest
        rw [runs_mouseIh, received_current_byte] at hsecond
        obtain ⟨o₂, hsecond, rfl⟩ := hsecond
        exact .twice p₁ p₂ o₁ o₂ hsource hbit hports hfirst hsecond rfl
      · rename_i hbit
        obtain ⟨rfl, rfl⟩ := Prog.runs_ret.mp hrest
        rw [List.append_nil] at hports
        exact .once o₁ hsource (Bool.not_eq_true _ ▸ hbit) (hports ▸ hfirst) rfl
  · cases h

/-- The condition on a message: a packet that has not been printed waits for a test, and a packet that
    has been printed is no longer there at the next one. -/
def InTime (s : PacketTest) (e : ScanEvent) : Prop :=
  e.received.fromHardware = true → ∀ p₁ p₂ o₁, e.ports = p₁ ++ p₂ →
    (kbcReadOutbuff s.driver.current_byte true).Runs p₁ o₁ →
      if e.received.msg.raises .mouse then
        ∀ o₂, (kbcReadOutbuff o₁.2 true).Runs p₂ o₂ →
          s.slot.InTime (BeginsPacket o₁) (CompletesPacket s.driver o₁) (BeginsPacket o₂)
      else s.slot.Unread → ¬ BeginsPacket o₁

theorem Handled.once_iff {s s' : PacketTest} {e : ScanEvent} (h : Handled s e s')
    (hsound : s.driver.Sound) (hv : s.slot.Valid) (ho : s.slot.Once) :
    (InTime s e → s'.slot.Once) ∧ (¬ InTime s e → s'.slot.Spoilt) := by
  cases h with
  | other source eq =>
    rw [eq]
    refine ⟨fun _ => ho, fun hlate => absurd (fun hsource => ?_) hlate⟩
    rw [source] at hsource
    cases hsource
  | once o source bit read eq =>
    have hturn := hsound.turn o (s.printed.map PacketPrint.number)
    have hintime : InTime s e ↔ (s.slot.Unread → ¬ BeginsPacket o) := by
      unfold InTime
      rw [bit]
      constructor
      · intro h
        exact h source e.ports [] o (List.append_nil _).symm read
      · intro h _ p₁ p₂ o₁ hports hread
        obtain ⟨-, rfl, -⟩ := hread.append_unique read (show p₁ ++ p₂ = e.ports ++ [] by simp [hports])
        exact h
    rw [eq, hintime]
    refine ⟨hturn.once ho, fun hlate => ?_⟩
    obtain ⟨hunread, hbegins⟩ := Classical.not_imp.mp hlate
    exact hturn.loses hv hunread (not_not.mp hbegins)
  | twice p₁ p₂ o₁ o₂ source bit ports first second eq =>
    have hintime : InTime s e ↔
        s.slot.InTime (BeginsPacket o₁) (CompletesPacket s.driver o₁) (BeginsPacket o₂) := by
      unfold InTime
      rw [bit, ports]
      constructor
      · intro h
        exact h source p₁ p₂ o₁ rfl first o₂ second
      · intro h _ q₁ q₂ o hports hfirst
        obtain ⟨rfl, rfl, rfl⟩ := first.append_unique hfirst hports
        intro o' hsecond
        obtain rfl := second.unique hsecond
        exact h
    rw [eq, hintime, slot_printPacket]
    exact Slot.read_once_iff (hsound.turn o₁ _) ((hsound.receive o₁.1 o₁.2).turn o₂ _) hv ho

/-! ## A whole run -/

/-- What the variables satisfy in every run: the slot is one, the driver holds the bytes of the packet it
    has marked ready, every print shows the packet with its number, and `cnt` counts the prints. -/
structure Counted (cnt : UInt32) (s : PacketTest) : Prop where
  sound : s.driver.Sound
  valid : s.slot.Valid
  held : s.driver.packet_ready = true → s.driver.completed.getLast? = some s.driver.bytes
  packets : ∀ p ∈ s.printed, ∃ bytes, s.driver.completed[p.number - 1]? = some bytes ∧
    p.packet = decodePacket bytes
  left : s.cnt.toNat + s.printed.length = cnt.toNat

variable {cnt : UInt32} {s s' : PacketTest}

theorem counted_start (packet : Packet) (cnt : UInt32) :
    Counted cnt (start .startup packet cnt) where
  sound := MouseDriver.sound_startup
  valid := ⟨fun h => absurd (show false = true from h) (by decide),
    fun n hn => absurd hn List.not_mem_nil⟩
  held h := absurd (show false = true from h) (by decide)
  packets p hp := absurd hp List.not_mem_nil
  left := Nat.add_zero _

theorem Counted.received (h : Counted cnt s) (o : Int × UInt8) : Counted cnt (s.received o) where
  sound := h.sound.receive o.1 o.2
  valid := (h.sound.turn o _).valid h.valid
  held := by
    unfold PacketTest.received
    cases h.sound.received o.1 o.2 with
    | ignored idle eq =>
      rw [eq]
      exact h.held
    | first ok header eq =>
      rw [eq]
      exact fun hready => absurd hready (by simp)
    | second ok idle eq =>
      rw [eq]
      exact fun hready => absurd (idle.symm.trans hready) (by decide)
    | third ok idle eq =>
      rw [eq]
      exact fun _ => List.getLast?_concat
  packets := by
    intro p hp
    obtain ⟨bytes, hget, hpacket⟩ := h.packets p hp
    refine ⟨bytes, ?_, hpacket⟩
    unfold PacketTest.received
    cases h.sound.received o.1 o.2 with
    | ignored idle eq => rwa [eq]
    | first ok header eq => rwa [eq]
    | second ok idle eq => rwa [eq]
    | third ok idle eq =>
      rw [eq]
      dsimp only
      rwa [List.getElem?_append_left (List.getElem?_eq_some_iff.mp hget).choose]
  left := h.left

theorem Counted.printPacket (h : Counted cnt s) (hlooping : s.looping = true) :
    Counted cnt s.printPacket where
  valid := by
    rw [slot_printPacket]
    exact Slot.read_valid h.valid
  sound := by
    unfold PacketTest.printPacket mouseGetPacket
    split_ifs with hready
    · exact ⟨h.sound.index, h.sound.held⟩
    · exact h.sound
  held := by
    unfold PacketTest.printPacket mouseGetPacket
    split_ifs with hready
    · exact h.held
    · exact h.held
  packets := by
    unfold PacketTest.printPacket mouseGetPacket
    split_ifs with hready
    · intro p hp
      rcases List.mem_append.mp hp with hold | hnew
      · exact h.packets p hold
      · rw [List.mem_singleton.mp hnew]
        refine ⟨s.driver.bytes, ?_, rfl⟩
        rw [← h.held hready, List.getLast?_eq_getElem?]
    · exact h.packets
  left := by
    have hleft := h.left
    have hpositive : s.cnt ≠ 0 := by simpa [looping] using hlooping
    unfold PacketTest.printPacket
    split
    · have hone : (1 : UInt32) ≤ s.cnt := by
        rw [UInt32.le_iff_toNat_le]
        exact Nat.one_le_iff_ne_zero.mpr fun hzero => hpositive (UInt32.toNat_inj.mp hzero)
      dsimp only
      rw [UInt32.toNat_sub_of_le _ _ hone, List.length_append, List.length_singleton]
      have hone' := UInt32.le_iff_toNat_le.mp hone
      have htoNat : (1 : UInt32).toNat = 1 := rfl
      omega
    · exact hleft

/-- The loop ends with a print: there is no packet left that waits for one. -/
theorem Handled.unread_of_ended {e : ScanEvent} (h : Handled s e s') (hlooping : s.looping = true)
    (hended : s'.looping = false) : ¬ s'.slot.Unread := by
  cases h with
  | other source eq =>
    rw [eq, hlooping] at hended
    cases hended
  | once o source bit read eq =>
    rw [eq, show (s.received o).looping = s.looping from rfl, hlooping] at hended
    cases hended
  | twice p₁ p₂ o₁ o₂ source bit ports first second eq =>
    rw [eq, slot_printPacket]
    exact Slot.not_unread_read _

theorem Handled.counted {e : ScanEvent} (h : Handled s e s') (hlooping : s.looping = true)
    (hs : Counted cnt s) : Counted cnt s' := by
  cases h with
  | other source eq => exact eq ▸ hs
  | once o source bit read eq => exact eq ▸ hs.received o
  | twice p₁ p₂ o₁ o₂ source bit ports first second eq =>
    exact eq ▸ ((hs.received o₁).received o₂).printPacket hlooping

theorem Handled.spoilt {e : ScanEvent} (h : Handled s e s') (hs : Counted cnt s)
    (hspoilt : s.slot.Spoilt) : s'.slot.Spoilt := by
  cases h with
  | other source eq => exact eq ▸ hspoilt
  | once o source bit read eq => exact eq ▸ (hs.sound.turn o _).spoilt hspoilt
  | twice p₁ p₂ o₁ o₂ source bit ports first second eq =>
    rw [eq, slot_printPacket]
    exact Slot.read_spoilt (((hs.received o₁).sound.turn o₂ _).spoilt ((hs.sound.turn o₁ _).spoilt hspoilt))

theorem run_spoilt {es : List ScanEvent} (hs : Counted cnt s) (hspoilt : s.slot.Spoilt)
    (h : run (receiveStep looping iterate) s es = some s') : s'.slot.Spoilt := by
  refine (run_invariant (fun s => Counted cnt s ∧ s.slot.Spoilt) ?_ ⟨hs, hspoilt⟩ h).2
  rintro s e s' ⟨hs, hspoilt⟩ hstep
  obtain ⟨hlooping, hhandled⟩ := step_handled hstep
  exact ⟨hhandled.counted hlooping hs, hhandled.spoilt hs hspoilt⟩

theorem run_counted {es : List ScanEvent} (hs : Counted cnt s)
    (hread : s.looping = false → ¬ s.slot.Unread)
    (h : run (receiveStep looping iterate) s es = some s') :
    Counted cnt s' ∧ (s'.looping = false → ¬ s'.slot.Unread) := by
  refine run_invariant (fun s => Counted cnt s ∧ (s.looping = false → ¬ s.slot.Unread)) ?_
    ⟨hs, hread⟩ h
  rintro s e s' ⟨hs, -⟩ hstep
  obtain ⟨hlooping, hhandled⟩ := step_handled hstep
  exact ⟨hhandled.counted hlooping hs, hhandled.unread_of_ended hlooping⟩

/-- A run keeps the order exactly as long as every message is in time. -/
theorem run_once_iff {es : List ScanEvent} (hs : Counted cnt s) (ho : s.slot.Once)
    (h : run (receiveStep looping iterate) s es = some s') :
    s'.slot.Once ↔ EveryStep (receiveStep looping iterate) InTime s es := by
  induction es generalizing s with
  | nil =>
    cases h
    exact iff_of_true ho everyStep_nil
  | cons e es ih =>
    obtain ⟨s₁, hstep, hrun⟩ := run_cons_eq_some.mp h
    obtain ⟨hlooping, hhandled⟩ := step_handled hstep
    have hs₁ := hhandled.counted hlooping hs
    obtain ⟨honce, hspoilt⟩ := hhandled.once_iff hs.sound hs.valid ho
    rw [everyStep_cons hstep]
    by_cases htime : InTime s e
    · rw [and_iff_right htime]
      exact ih hs₁ (honce htime) hrun
    · -- nothing that comes later makes up for it
      exact iff_of_false (run_spoilt hs₁ (hspoilt htime) hrun).not_once fun hall => htime hall.1

/-! ## The prints -/

/-- The prints of these packets, each of them once and in order. -/
def prints (completed : List PacketBytes) : List PacketPrint :=
  completed.mapIdx fun i bytes => ⟨i + 1, decodePacket bytes⟩

/-- What the test is to print: every packet that has been completed, except that the last one may still
    be waiting as long as the loop goes on. When it ends there have been `cnt` of them. -/
structure PrintedOnce (cnt : UInt32) (s : PacketTest) : Prop where
  printed : s.printed = prints s.driver.completed ∨
    s.looping = true ∧ s.driver.packet_ready = true ∧ ∃ before last,
      s.driver.completed = before ++ [last] ∧ s.printed = prints before
  ended : s.looping = false → s.driver.completed.length = cnt.toNat

theorem numbers_prints (completed : List PacketBytes) :
    (prints completed).map PacketPrint.number = List.range' 1 completed.length := by
  unfold prints
  apply List.ext_getElem
  · simp
  · intro i h h'
    simp [Nat.add_comm]

theorem Counted.printed_eq (h : Counted cnt s) {before rest : List PacketBytes}
    (hcompleted : s.driver.completed = before ++ rest)
    (hnumbers : s.printed.map PacketPrint.number = List.range' 1 before.length) :
    s.printed = prints before := by
  have hlength : s.printed.length = before.length := by
    have hlen := congrArg List.length hnumbers
    rwa [List.length_map, List.length_range'] at hlen
  apply List.ext_getElem
  · simp [prints, hlength]
  · intro i hi hi'
    have hbefore : i < before.length := hlength ▸ hi
    have hnumber : (s.printed[i]).number = i + 1 := by
      have hget := congrArg (fun l => l[i]?) hnumbers
      simpa [hi, hbefore, Nat.add_comm] using hget
    obtain ⟨bytes, hbytes, hpacket⟩ := h.packets s.printed[i] (List.getElem_mem hi)
    rw [hnumber, Nat.add_sub_cancel, hcompleted, List.getElem?_append_left hbefore,
      List.getElem?_eq_getElem hbefore, Option.some.injEq] at hbytes
    have hprint : (prints before)[i] = ⟨i + 1, decodePacket before[i]⟩ := by
      simp only [prints, List.getElem_mapIdx]
    rw [hprint, hbytes, ← hpacket, ← hnumber]

theorem PrintedOnce.slot_once (h : PrintedOnce cnt s) : s.slot.Once := by
  rcases h.printed with hprinted | ⟨-, hready, before, last, hcompleted, hprinted⟩
  · refine .level ?_
    unfold slot MouseDriver.slot
    rw [hprinted, numbers_prints]
  · refine .pending before.length ?_ hready ?_
    · unfold slot MouseDriver.slot
      rw [hcompleted, List.length_append, List.length_singleton]
    · unfold slot MouseDriver.slot
      rw [hprinted, numbers_prints]

theorem Counted.printed_of_level (h : Counted cnt s)
    (htaken : s.slot.taken = List.range' 1 s.slot.count) : s.printed = prints s.driver.completed :=
  h.printed_eq (List.append_nil _).symm htaken

theorem Counted.printedOnce (h : Counted cnt s) (hread : s.looping = false → ¬ s.slot.Unread)
    (honce : s.slot.Once) : PrintedOnce cnt s where
  printed := by
    cases honce with
    | level taken => exact .inl (h.printed_of_level taken)
    | pending k count full taken =>
      have hlooping : s.looping = true := by
        by_contra hended
        exact hread (by simpa using hended) (Slot.unread_of_pending count full taken)
      have hlength : s.driver.completed.length = k + 1 := count
      obtain ⟨before, last, hcompleted⟩ : ∃ before last, s.driver.completed = before ++ [last] := by
        refine ⟨_, _, (List.dropLast_append_getLast ?_).symm⟩
        exact List.ne_nil_of_length_pos (hlength ▸ Nat.succ_pos k)
      have hk : k = before.length := by
        rw [hcompleted, List.length_append, List.length_singleton] at hlength
        exact (Nat.succ.inj hlength).symm
      exact .inr ⟨hlooping, full, before, last, hcompleted, h.printed_eq hcompleted (hk ▸ taken)⟩
  ended hended := by
    have hprinted := h.printed_of_level (honce.level_of_read (hread hended))
    have hzero : s.cnt = 0 := by simpa [looping] using hended
    have hleft := h.left
    rw [hzero, hprinted] at hleft
    simpa [prints] using hleft

end PacketTest

/-! ## The whole test -/

/-- The loop is a run over the messages of the trace; what comes before it and after it has none. -/
theorem mouseTestPacket_run {packet : Packet} {aknl aknl' : UInt8} {cnt : UInt32} {fuel : Nat}
    {tr : List SysEvent} {o : Option Int} {s : PacketTest}
    (h : (mouseTestPacket .startup packet aknl aknl' cnt fuel).Runs tr (o, s)) :
    run (receiveStep PacketTest.looping PacketTest.iterate) (.start .startup packet cnt)
      (messages tr) = some s := by
  unfold mouseTestPacket at h
  rcases Prog.runs_check.mp h with ⟨r, -, hcommand, ho⟩ | ⟨command, tr, rfl, hcommand, h⟩
  · obtain ⟨-, rfl⟩ := Prod.mk.inj ho
    rw [messages_eq_nil (driver_ports hcommand)]
    rfl
  rw [messages_append (driver_ports hcommand)]
  rcases runs_call h with ⟨reply, rfl, -, ho⟩ | ⟨reply, tr, rfl, -, h⟩
  · obtain ⟨-, rfl⟩ := Prod.mk.inj ho
    rfl
  obtain ⟨loop, ⟨ended, s₁⟩, rest, rfl, hloop, hend⟩ := Prog.runs_bind.mp h
  have hrest : s₁ = s ∧ messages rest = [] ∧ leadingPorts rest = [] := by
    cases ended with
    | false =>
      obtain ⟨rfl, ho⟩ := Prog.runs_ret.mp hend
      exact ⟨(Prod.mk.inj ho).2, rfl, rfl⟩
    | true =>
      rcases runs_call hend with ⟨reply', rfl, -, ho⟩ | ⟨reply', tr, rfl, -, hlast⟩
      · exact ⟨(Prod.mk.inj ho).2.symm, rfl, rfl⟩
      · have hports : ∀ {r : Int} {tr : List SysEvent},
            (Driver.sys (mouseWriteCommand mouseCommDisableDataReporting aknl')).Runs tr r →
              messages ((.irqRmPolicy .mouse, reply') :: tr) = [] := fun hrun =>
          messages_eq_nil (List.forall_mem_cons.mpr ⟨by simp [IsReceive], driver_ports hrun⟩)
        rcases Prog.runs_check.mp hlast with ⟨r, -, hcommand, ho⟩ | ⟨command, tr, rfl, hcommand, hret⟩
        · exact ⟨(Prod.mk.inj ho).2.symm, hports hcommand, leadingPorts_cons rfl _⟩
        · obtain ⟨rfl, ho⟩ := Prog.runs_ret.mp hret
          refine ⟨(Prod.mk.inj ho).2, ?_, leadingPorts_cons rfl _⟩
          rw [List.append_nil]
          exact hports hcommand
  obtain ⟨rfl, hmessages, hhead⟩ := hrest
  exact (receiveLoop_run hloop hmessages hhead).2.1

/-- **Every packet is printed once and in order exactly in the runs whose messages come in time.**
    Whatever bytes the calls of `mouse_ih` find and however far the loop has come, the prints are those of
    the completed packets, and the loop ends after `cnt` of them, if and only if no packet begins while
    another one waits for its print, and every test after a print finds that the next packet has begun. -/
theorem mouseTestPacket_once_iff {packet : Packet} {aknl aknl' : UInt8} {cnt : UInt32} {fuel : Nat}
    {tr : List SysEvent} {o : Option Int} {s : PacketTest}
    (h : (mouseTestPacket .startup packet aknl aknl' cnt fuel).Runs tr (o, s)) :
    PacketTest.PrintedOnce cnt s ↔
      EveryStep (receiveStep PacketTest.looping PacketTest.iterate) PacketTest.InTime
        (.start .startup packet cnt) (messages tr) := by
  have hrun := mouseTestPacket_run h
  have hstart := PacketTest.counted_start packet cnt
  have hempty : ¬ (PacketTest.start .startup packet cnt).slot.Unread := fun hunread =>
    absurd (show false = true from hunread.1) (by decide)
  obtain ⟨hcounted, hread⟩ := PacketTest.run_counted hstart (fun _ => hempty) hrun
  have honce := PacketTest.run_once_iff hstart (.level rfl) hrun
  constructor
  · intro h
    exact honce.mp h.slot_once
  · intro h
    exact hcounted.printedOnce hread (honce.mpr h)

/-! ## A packet that is printed, and one that is not -/

/-- A message with the mouse's bit, and what its two calls of `mouse_ih` find. -/
def mouseMessage (first second : List PortEvent) : List SysEvent :=
  interrupt 4 :: (first ++ second).map fun e => granted (.port e.1) e.2.val

/-- A test with these messages. -/
def packetTestTrace (received : List SysEvent) : List SysEvent :=
  mouseCommand mouseCommEnableDataReporting ++
    granted (.irqSetPolicy kbcIrqMouse true .mouse) 0 :: received ++
    granted (.irqRmPolicy .mouse) 0 :: mouseCommand mouseCommDisableDataReporting

/-- One packet, whose third byte is the last one to arrive. -/
def onePacket : List SysEvent :=
  packetTestTrace (mouseMessage (mouseByte 0x09) (mouseByte 0x05) ++
    mouseMessage (mouseByte 0x03) noMouseByte)

theorem mouseTestPacket_once_one :
    ∃ s, (mouseTestPacket .startup MouseDriver.zeroPacket 0 0 1 3).Runs onePacket (some 0, s) ∧
      (PacketTest.PrintedOnce 1 s ↔
        EveryStep (receiveStep PacketTest.looping PacketTest.iterate) PacketTest.InTime
          (.start .startup MouseDriver.zeroPacket 1) (messages onePacket)) := by
  let bytes : PacketBytes := ⟨0x09, 0x05, 0x03⟩
  have hrun : (mouseTestPacket .startup MouseDriver.zeroPacket 0 0 1 3).Runs onePacket
      (some 0, ⟨⟨0, 0x03, bytes, true, decodePacket bytes, [bytes]⟩, decodePacket bytes, 0,
        [⟨1, decodePacket bytes⟩]⟩) := by decide +kernel
  exact ⟨_, hrun, mouseTestPacket_once_iff hrun⟩

/-- Two packets. The call that comes after the third byte of the first one finds the first byte of the
    second one. -/
def twoPackets : List SysEvent :=
  packetTestTrace (mouseMessage (mouseByte 0x09) (mouseByte 0x05) ++
    mouseMessage (mouseByte 0x03) (mouseByte 0x08) ++ mouseMessage (mouseByte 0x01) (mouseByte 0x02))

/-- The first packet is never printed, and the loop ends after the second one. -/
theorem mouseTestPacket_lost :
    ¬ ∀ packet aknl aknl' cnt fuel tr o s,
      (mouseTestPacket .startup packet aknl aknl' cnt fuel).Runs tr (o, s) →
        PacketTest.PrintedOnce cnt s := by
  intro h
  let bytes : PacketBytes := ⟨0x08, 0x01, 0x02⟩
  have hrun : (mouseTestPacket .startup MouseDriver.zeroPacket 0 0 1 4).Runs twoPackets
      (some 0, ⟨⟨0, 0x02, bytes, true, decodePacket bytes, [⟨0x09, 0x05, 0x03⟩, bytes]⟩,
        decodePacket bytes, 0, [⟨2, decodePacket bytes⟩]⟩) := by decide +kernel
  have hended := (h _ _ _ _ _ _ _ _ hrun).ended rfl
  exact absurd hended (by decide)

end Lcom
