import Lcom.Drivers.Mouse
import Lcom.Proof.Drivers.ReadOutbuff

/-!
# How often `mouse_write_command` sends its command

With a controller that answers, each round of the loop sends the command once and reads one
response. The loop condition looks at `aknl` before the first round, when nothing has been read into
it: if the stack happens to hold the acknowledgement there, the command is not sent at all.
-/

namespace Lcom

open Lib

/-- No port access failed. -/
def PortsWork (tr : List PortEvent) : Prop := ∀ e ∈ tr, e.2.failed = false

/-- A poll that found the input buffer full. -/
def Busy (e : PortEvent) : Prop := ∃ status, e.Polled status ∧ anyBit status kbcStatIbf = true

/-- The input buffer becomes free within the polls of every `kbc_write`: busy polls never follow
    each other as often as it tries. -/
def InputFrees (tr : List PortEvent) : Prop :=
  ∀ pre busy post, tr = pre ++ busy ++ post → (∀ e ∈ busy, Busy e) → busy.length < maxAttempts

/-- How often the command was sent, and how many rounds announced one. -/
def sends (command : UInt8) (tr : List PortEvent) : Nat :=
  tr.countP fun e => e.1 = .outb kbcRegInBuf command

def rounds (tr : List PortEvent) : Nat :=
  tr.countP fun e => e.1 = .outb kbcRegCommand kbcCommWriteMouseCommByte

/-- The command is sent once in each round, `limit` times at most; the call succeeds exactly when a
    response is the acknowledgement, and that is the last it has to do with the controller. -/
structure SentEachRound (command : UInt8) (limit : Nat) (tr : List PortEvent) (o : Int) : Prop where
  each : sends command tr = rounds tr
  limit : sends command tr ≤ limit
  code : o = 0 ↔ mouseResAck ∈ consumed tr
  last : mouseResAck ∈ consumed tr →
    ∃ pre e, tr = pre ++ [e] ∧ e.dataByte? = some mouseResAck ∧ mouseResAck ∉ consumed pre

/-- The same, and the command is sent. -/
structure CommandSent (command : UInt8) (limit : Nat) (tr : List PortEvent) (o : Int) : Prop
    extends SentEachRound command limit tr o where
  once : 1 ≤ sends command tr

/-! ## Parts of a trace -/

theorem sends_append (command : UInt8) (tr tr' : List PortEvent) :
    sends command (tr ++ tr') = sends command tr + sends command tr' := List.countP_append

theorem rounds_append (tr tr' : List PortEvent) : rounds (tr ++ tr') = rounds tr + rounds tr' :=
  List.countP_append

theorem consumed_append (tr tr' : List PortEvent) :
    consumed (tr ++ tr') = consumed tr ++ consumed tr' := List.filterMap_append

theorem PortsWork.of_append {tr tr' : List PortEvent} (h : PortsWork (tr ++ tr')) :
    PortsWork tr ∧ PortsWork tr' := List.forall_mem_append.mp h

theorem InputFrees.of_append {tr tr' : List PortEvent} (h : InputFrees (tr ++ tr')) :
    InputFrees tr ∧ InputFrees tr' := by
  constructor
  · intro pre busy post htr hbusy
    exact h pre busy (post ++ tr') (by rw [htr, List.append_assoc]) hbusy
  · intro pre busy post htr hbusy
    exact h (tr ++ pre) busy post (by rw [htr, List.append_assoc, List.append_assoc,
      List.append_assoc]) hbusy

theorem byte?_of_works {r : Reply} (hr : r.failed = false) (port : UInt16) :
    PortEvent.byte? (.inb port, r) = some r.val.toUInt8 := by
  unfold PortEvent.byte?
  simp [hr]

/-! ## One `kbc_write` -/

/-- Without failing ports a write is given up only after a full round of busy polls. -/
theorem kbcWriteLoop_cases {port : UInt16} {command : UInt8} {cnt : Nat} {tr : List PortEvent}
    {o : Int} (h : (kbcWriteLoop port command cnt).Runs tr o) (hports : PortsWork tr) :
    o = 0 ∨ tr.length = cnt ∧ ∀ e ∈ tr, Busy e := by
  induction cnt generalizing tr with
  | zero =>
    obtain ⟨rfl, -⟩ := Prog.runs_ret.mp h
    exact .inr ⟨rfl, fun e he => absurd he List.not_mem_nil⟩
  | succ cnt ih =>
    rw [kbcWriteLoop_succ, Prog.runs_ask] at h
    obtain ⟨r, tr, rfl, h⟩ := h
    obtain ⟨hr, hrest⟩ := List.forall_mem_cons.mp hports
    have hb := byte?_of_works hr kbcRegStat
    simp only [hb] at h
    split at h
    · rename_i hibf
      rcases ih h hrest with hzero | ⟨hlen, hbusy⟩
      · exact .inl hzero
      · exact .inr ⟨by rw [List.length_cons, hlen],
          List.forall_mem_cons.mpr ⟨⟨_, ⟨rfl, hb⟩, hibf⟩, hbusy⟩⟩
    · obtain ⟨w, tr, rfl, hwrite⟩ := Prog.runs_ask.mp h
      have hw : w.failed = false := (List.forall_mem_cons.mp hrest).1
      rw [hw, if_neg (by simp)] at hwrite
      exact .inl (Prog.runs_ret.mp hwrite).2.symm

theorem writeAccepted_of_runs {port : UInt16} {command : UInt8} {tr : List PortEvent} {o : Int}
    (h : (kbcWrite port command).Runs tr o) (hports : PortsWork tr) (hfree : InputFrees tr) :
    o = 0 ∧ WriteAccepted port command maxAttempts tr := by
  rcases kbcWriteLoop_cases h hports with rfl | ⟨hlen, hbusy⟩
  · exact ⟨rfl, runs_kbcWrite_zero_iff.mp h⟩
  · have hlt := hfree [] tr [] (by simp) hbusy
    omega

/-- A write takes no byte, and writes its own. -/
theorem WriteAccepted.consumed_eq {port : UInt16} {command : UInt8} {cnt : Nat}
    {tr : List PortEvent} (h : WriteAccepted port command cnt tr) : consumed tr = [] := by
  obtain ⟨busy, poll, write, rfl, -, hbusy, ⟨status, hpoll, -⟩, hwrite, -⟩ := h
  refine List.filterMap_eq_nil_iff.mpr fun e he => ?_
  rcases List.mem_append.mp he with he | he
  · obtain ⟨status, hpolled, -⟩ := hbusy e he
    exact hpolled.dataByte?_eq
  · rcases List.mem_cons.mp he with rfl | he
    · exact hpoll.dataByte?_eq
    · rw [List.mem_singleton.mp he]
      unfold PortEvent.dataByte?
      rw [hwrite, if_neg (by simp)]

theorem WriteAccepted.countP_eq {port : UInt16} {command : UInt8} {cnt : Nat}
    {tr : List PortEvent} (h : WriteAccepted port command cnt tr) (port' : UInt16)
    (command' : UInt8) :
    (tr.countP fun e => e.1 = .outb port' command') =
      if port = port' ∧ command = command' then 1 else 0 := by
  obtain ⟨busy, poll, write, rfl, -, hbusy, ⟨status, hpoll, -⟩, hwrite, -⟩ := h
  have hnone : (busy.countP fun e => e.1 = .outb port' command') = 0 := by
    refine List.countP_eq_zero.mpr fun e he => ?_
    obtain ⟨status, hpolled, -⟩ := hbusy e he
    rw [hpolled.1]
    simp
  rw [List.countP_append, hnone, List.countP_cons_of_neg (by rw [hpoll.1]; simp), Nat.zero_add]
  by_cases hsame : port = port' ∧ command = command'
  · rw [if_pos hsame, List.countP_cons_of_pos (by rw [hwrite]; simpa using hsame), List.countP_nil]
  · rw [if_neg hsame, List.countP_cons_of_neg (by rw [hwrite]; simpa using hsame), List.countP_nil]

/-! ## The loop -/

/-- The accesses of one round, up to the response it reads. -/
structure Round (command : UInt8) (sent : List PortEvent) (read : PortEvent) (byte : UInt8) : Prop where
  sends : sends command sent = 1
  rounds : rounds sent = 1
  consumed : consumed sent = []
  sendsRead : Lcom.sends command [read] = 0
  roundsRead : Lcom.rounds [read] = 0
  read : read.dataByte? = some byte

/-- One round with a controller that answers. -/
theorem runs_round {command aknl : UInt8} {cnt : Nat} {tr : List PortEvent} {o : Int}
    (h : (mouseWriteCommandLoop command (cnt + 1) aknl).Runs tr o) (hne : aknl ≠ mouseResAck)
    (hports : PortsWork tr) (hfree : InputFrees tr) :
    ∃ sent read rest byte, tr = sent ++ [read] ++ rest ∧ Round command sent read byte ∧
      (byte = mouseResAck ∧ rest = [] ∧ o = 0 ∨
        byte ≠ mouseResAck ∧ (mouseWriteCommandLoop command cnt byte).Runs rest o) := by
  rw [mouseWriteCommandLoop, if_neg hne] at h
  obtain ⟨tr₁, c₁, u, rfl, hrun₁, htail⟩ := Prog.runs_bind.mp h
  obtain ⟨hports₁, hportsTail⟩ := hports.of_append
  obtain ⟨hfree₁, hfreeTail⟩ := hfree.of_append
  obtain ⟨rfl, hacc₁⟩ := writeAccepted_of_runs hrun₁ hports₁ hfree₁
  rw [if_neg (by simp)] at htail
  obtain ⟨tr₂, c₂, v, rfl, hrun₂, hread⟩ := Prog.runs_bind.mp htail
  obtain ⟨hports₂, hportsRead⟩ := hportsTail.of_append
  obtain ⟨rfl, hacc₂⟩ := writeAccepted_of_runs hrun₂ hports₂ hfreeTail.of_append.1
  rw [if_neg (by simp), utilSysInb_bind] at hread
  obtain ⟨r, rest, rfl, hrest⟩ := Prog.runs_ask.mp hread
  have hbyte := byte?_of_works (List.forall_mem_cons.mp hportsRead).1 kbcRegOutBuf
  have hround : Round command (tr₁ ++ tr₂) (.inb kbcRegOutBuf, r) r.val.toUInt8 := by
    refine { sends := ?_, rounds := ?_, consumed := ?_, sendsRead := ?_, roundsRead := ?_, read := ?_ }
    · rw [sends_append, sends, sends, hacc₁.countP_eq, hacc₂.countP_eq,
        if_neg (by simp [kbcRegInBuf, kbcRegCommand]), if_pos ⟨rfl, rfl⟩]
    · rw [rounds_append, rounds, rounds, hacc₁.countP_eq, hacc₂.countP_eq, if_pos ⟨rfl, rfl⟩,
        if_neg (by simp [kbcRegInBuf, kbcRegCommand])]
    · rw [consumed_append, hacc₁.consumed_eq, hacc₂.consumed_eq, List.append_nil]
    · simp [sends]
    · simp [rounds]
    · rw [dataByte?_read, hbyte]
  refine ⟨tr₁ ++ tr₂, _, rest, r.val.toUInt8, by simp, hround, ?_⟩
  simp only [hbyte] at hrest
  split at hrest
  · rename_i hack
    obtain ⟨rfl, rfl⟩ := Prog.runs_ret.mp hrest
    exact .inl ⟨hack, rfl, rfl⟩
  · rename_i hack
    exact .inr ⟨hack, hrest⟩

theorem mouseWriteCommandLoop_sent {command aknl : UInt8} {cnt : Nat} {tr : List PortEvent}
    {o : Int} (h : (mouseWriteCommandLoop command cnt aknl).Runs tr o) (hne : aknl ≠ mouseResAck)
    (hports : PortsWork tr) (hfree : InputFrees tr) :
    SentEachRound command cnt tr o ∧ (0 < cnt → 1 ≤ sends command tr) := by
  induction cnt generalizing aknl tr with
  | zero =>
    obtain ⟨rfl, rfl⟩ := Prog.runs_ret.mp h
    exact ⟨{ each := rfl, limit := le_refl _, code := by simp [consumed]
             last := fun hack => absurd hack List.not_mem_nil }, fun h => absurd h (by simp)⟩
  | succ cnt ih =>
    obtain ⟨sent, read, rest, byte, rfl, hround, hend⟩ := runs_round h hne hports hfree
    have hsends : sends command (sent ++ [read] ++ rest) = 1 + sends command rest := by
      rw [sends_append, sends_append, hround.sends, hround.sendsRead]
    have hrounds : rounds (sent ++ [read] ++ rest) = 1 + rounds rest := by
      rw [rounds_append, rounds_append, hround.rounds, hround.roundsRead]
    have hconsumed : consumed (sent ++ [read] ++ rest) = byte :: consumed rest := by
      rw [consumed_append, consumed_append, hround.consumed]
      simp [consumed, hround.read]
    refine ⟨?_, fun _ => by omega⟩
    rcases hend with ⟨rfl, rfl, rfl⟩ | ⟨hback, hrest⟩
    · refine {
        each := by rw [hsends, hrounds]; rfl
        limit := by rw [hsends]; simp [sends]
        code := by rw [hconsumed]; simp
        last := fun _ => ⟨sent, read, List.append_nil _, hround.read, ?_⟩ }
      rw [hround.consumed]
      exact List.not_mem_nil
    · obtain ⟨hportsSent, hportsRest⟩ := hports.of_append
      obtain ⟨hfreeSent, hfreeRest⟩ := hfree.of_append
      obtain ⟨hsent, -⟩ := ih hrest hback hportsRest hfreeRest
      have hmem : mouseResAck ∈ consumed (sent ++ [read] ++ rest) ↔
          mouseResAck ∈ consumed rest := by
        rw [hconsumed, List.mem_cons, or_iff_right hback.symm]
      refine {
        each := by rw [hsends, hrounds, hsent.each]
        limit := by have hlimit := hsent.limit; omega
        code := by rw [hmem]; exact hsent.code
        last := fun hack => ?_ }
      obtain ⟨pre, e, rfl, he, hpre⟩ := hsent.last (hmem.mp hack)
      refine ⟨sent ++ [read] ++ pre, e, by simp, he, ?_⟩
      have hread : consumed [read] = [byte] := by simp [consumed, hround.read]
      rw [consumed_append, consumed_append, hround.consumed, hread]
      exact fun hmem => (List.mem_cons.mp hmem).elim (fun hack => hback hack.symm) hpre

/-- **`mouse_write_command` sends its command exactly when the stack does not happen to hold the
    acknowledgement**, with a controller that answers. -/
theorem mouseWriteCommand_sent_iff {command aknl : UInt8} {tr : List PortEvent} {o : Int}
    (h : (mouseWriteCommand command aknl).Runs tr o) (hports : PortsWork tr)
    (hfree : InputFrees tr) :
    CommandSent command 20 tr o ↔ aknl ≠ mouseResAck := by
  constructor
  · intro hsent hack
    rw [mouseWriteCommand, maxAttempts, mouseWriteCommandLoop, if_pos hack] at h
    obtain ⟨rfl, -⟩ := Prog.runs_ret.mp h
    have honce := hsent.once
    simp [sends] at honce
  · intro hne
    obtain ⟨hsent, honce⟩ := mouseWriteCommandLoop_sent h hne hports hfree
    exact { hsent with once := honce (by decide) }

/-- The mouse acknowledges at once. -/
theorem mouseWriteCommand_sent_at_once :
    CommandSent 0xF4 20 [(.inb 0x64, ⟨false, 0⟩), (.outb 0x64 0xD4, ⟨false, 0⟩),
        (.inb 0x64, ⟨false, 0⟩), (.outb 0x60 0xF4, ⟨false, 0⟩), (.inb 0x60, ⟨false, 0xFA⟩)] 0 ↔
      (0 : UInt8) ≠ mouseResAck := by
  refine mouseWriteCommand_sent_iff (by decide) (by simp [PortsWork]) ?_
  intro pre busy post htr _
  have hlen := congrArg List.length htr
  simp only [List.length_append, List.length_cons, List.length_nil] at hlen
  have hmax : maxAttempts = 20 := rfl
  omega

/-- With the acknowledgement on the stack nothing is sent. -/
theorem mouseWriteCommand_unsent :
    ¬ ∀ command aknl tr o, (mouseWriteCommand command aknl).Runs tr o → PortsWork tr →
      InputFrees tr → CommandSent command 20 tr o := by
  intro h
  have hfree : InputFrees [] := by
    intro pre busy post htr _
    have hbusy : busy = [] := by
      simp only [List.nil_eq, List.append_eq_nil_iff] at htr
      exact htr.1.2
    rw [hbusy]
    decide
  have hsent := h 0xF4 0xFA [] 1 (by decide) (fun e he => absurd he List.not_mem_nil) hfree
  exact absurd hsent.once (by decide)

end Lcom
