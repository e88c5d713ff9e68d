import Lcom.Drivers.Kbc

/-!
# What the two polled loops of `kbc.c` do

One specification lemma per loop, and nothing downstream unfolds the loops again:

* `runs_kbcWrite_zero_iff` — `kbc_write` succeeds on exactly the traces `WriteAccepted`
  describes: fewer than `MAX_ATTEMPTS` busy polls, a free one, the write;
* `kbcReadOutbuff_stored` — whatever `kbc_read_outbuff` returns, the byte it leaves in `*data` is
  the last one the data port delivered, and the old content when the port delivered none.
-/

namespace Lcom

open Lib

theorem utilSysInb_bind {α : Type} (port : UInt16) (f : Option UInt8 → Driver α) :
    (utilSysInb port >>= f) =
      Prog.ask (.inb port) fun r => f (PortEvent.byte? (.inb port, r)) := by
  simp only [utilSysInb, sysInb, Prog.query_bind, Prog.ask_bind]
  congr
  funext r
  by_cases hr : r.failed <;> simp [PortEvent.byte?, hr]

/-! ## `kbc_write` -/

/-- A status poll that read the status byte `status`. -/
def PortEvent.Polled (e : PortEvent) (status : UInt8) : Prop :=
  e.1 = .inb kbcRegStat ∧ e.byte? = some status

/-- The traces on which the controller accepts a byte: some busy polls, fewer than `cnt`, then a
    poll with the input buffer free and the write itself. -/
def WriteAccepted (port : UInt16) (command : UInt8) (cnt : Nat) (tr : List PortEvent) : Prop :=
  ∃ busy poll write, tr = busy ++ [poll, write] ∧ busy.length < cnt ∧
    (∀ e ∈ busy, ∃ status, e.Polled status ∧ anyBit status kbcStatIbf = true) ∧
    (∃ status, poll.Polled status ∧ anyBit status kbcStatIbf = false) ∧
    write.1 = .outb port command ∧ write.2.failed = false

theorem kbcWriteLoop_succ (port : UInt16) (command : UInt8) (cnt : Nat) :
    kbcWriteLoop port command (cnt + 1) =
      Prog.ask (.inb kbcRegStat) fun r =>
        match PortEvent.byte? (.inb kbcRegStat, r) with
        | none => pure 1
        | some status =>
          if anyBit status kbcStatIbf then kbcWriteLoop port command cnt
          else Prog.ask (.outb port command) fun w => if w.failed then pure 1 else pure 0 := by
  rw [kbcWriteLoop, kbcReadStatus, utilSysInb_bind]
  rfl

theorem runs_kbcWriteLoop_zero_iff {port : UInt16} {command : UInt8} {cnt : Nat}
    {tr : List PortEvent} :
    (kbcWriteLoop port command cnt).Runs tr 0 ↔ WriteAccepted port command cnt tr := by
  induction cnt generalizing tr with
  | zero => simp [kbcWriteLoop, WriteAccepted]
  | succ cnt ih =>
    rw [kbcWriteLoop_succ, Prog.runs_ask]
    constructor
    · intro hex
      rcases hex with ⟨r, tr, rfl, h⟩
      cases hb : PortEvent.byte? (.inb kbcRegStat, r) with
      | none => simp [hb] at h
      | some status =>
        simp only [hb] at h
        have hpoll : PortEvent.Polled (.inb kbcRegStat, r) status := ⟨rfl, hb⟩
        by_cases hibf : anyBit status kbcStatIbf
        · rw [if_pos hibf, ih] at h
          obtain ⟨busy, poll, write, rfl, hlen, hbusy, hfree⟩ := h
          refine ⟨_ :: busy, poll, write, rfl, by simpa using hlen, ?_, hfree⟩
          intro e he
          rcases List.mem_cons.mp he with rfl | he
          · exact ⟨status, hpoll, hibf⟩
          · exact hbusy e he
        · rw [if_neg hibf, Prog.runs_ask] at h
          obtain ⟨w, tr, rfl, h⟩ := h
          by_cases hw : w.failed
          · simp [hw] at h
          · simp only [hw] at h
            obtain ⟨rfl, -⟩ := Prog.runs_ret.mp h
            exact ⟨[], _, _, rfl, by simp, by simp, ⟨status, hpoll, by simpa using hibf⟩, rfl,
              by simpa using hw⟩
    · intro hex
      rcases hex with ⟨busy, poll, write, rfl, hlen, hbusy, hfree, hwrite⟩
      cases busy with
      | nil =>
        obtain ⟨q, r⟩ := poll
        obtain ⟨qw, w⟩ := write
        obtain ⟨status, ⟨rfl, hb⟩, hibf⟩ := hfree
        obtain ⟨rfl, hw⟩ := hwrite
        refine ⟨r, _, rfl, ?_⟩
        simp only [hb, hibf, Bool.false_eq_true, if_false]
        exact Prog.runs_ask.mpr ⟨w, [], rfl, by simp [show w.failed = false from hw]⟩
      | cons e busy =>
        obtain ⟨q, r⟩ := e
        obtain ⟨status, ⟨rfl, hb⟩, hibf⟩ := hbusy _ List.mem_cons_self
        refine ⟨r, _, rfl, ?_⟩
        simp only [hb, hibf, if_true]
        exact ih.mpr ⟨busy, poll, write, rfl, by simpa using hlen,
          fun e he => hbusy e (List.mem_cons_of_mem _ he), hfree, hwrite⟩

/-- **`kbc_write` returns 0 on exactly the accepted traces.** -/
theorem runs_kbcWrite_zero_iff {port : UInt16} {command : UInt8} {tr : List PortEvent} :
    (kbcWrite port command).Runs tr 0 ↔ WriteAccepted port command maxAttempts tr :=
  runs_kbcWriteLoop_zero_iff

theorem WriteAccepted.getLast? {port : UInt16} {command : UInt8} {cnt : Nat}
    {tr : List PortEvent} (h : WriteAccepted port command cnt tr) :
    ∃ e, tr.getLast? = some e ∧ e.1 = .outb port command := by
  obtain ⟨busy, poll, write, rfl, -, -, -, hw, -⟩ := h
  exact ⟨write, by simp, hw⟩

/-! ## `kbc_read_outbuff` -/

/-- The byte an access took out of the controller's output buffer, if it took one. -/
def PortEvent.dataByte? (e : PortEvent) : Option UInt8 :=
  if e.1 = .inb kbcRegOutBuf then e.byte? else none

/-- What a cell holds after a trace: the last byte taken from the output buffer, or the old
    content `data` when there was none. -/
def lastByte (data : UInt8) (tr : List PortEvent) : UInt8 :=
  tr.foldl (fun b e => e.dataByte?.getD b) data

@[simp] theorem lastByte_nil (data : UInt8) : lastByte data [] = data := rfl

@[simp] theorem lastByte_cons (data : UInt8) (e : PortEvent) (tr : List PortEvent) :
    lastByte data (e :: tr) = lastByte (e.dataByte?.getD data) tr := rfl

@[simp] theorem dataByte?_poll (r : Reply) :
    PortEvent.dataByte? (.inb kbcRegStat, r) = none := by
  simp [PortEvent.dataByte?, kbcRegStat, kbcRegOutBuf]

@[simp] theorem dataByte?_read (r : Reply) :
    PortEvent.dataByte? (.inb kbcRegOutBuf, r) = PortEvent.byte? (.inb kbcRegOutBuf, r) := by
  simp [PortEvent.dataByte?]

/-- One iteration of the polling loop: the poll is rejected, or it shows a byte of the device
    asked for and the data port is read. -/
theorem kbcReadOutbuffLoop_succ (mouse : Bool) (attempts : Nat) (data : UInt8) :
    kbcReadOutbuffLoop mouse (attempts + 1) data =
      Prog.ask (.inb kbcRegStat) fun r =>
        match PortEvent.byte? (.inb kbcRegStat, r) with
        | none => kbcReadOutbuffLoop mouse attempts data
        | some status =>
          if anyBit status kbcStatAux = mouse ∧ anyBit status kbcStatObf = true then
            Prog.ask (.inb kbcRegOutBuf) fun r' =>
              match PortEvent.byte? (.inb kbcRegOutBuf, r') with
              | none => kbcReadOutbuffLoop mouse attempts data
              | some byte =>
                if anyBit status (kbcStatParity ||| kbcStatTimeout) then pure (1, byte)
                else pure (0, byte)
          else kbcReadOutbuffLoop mouse attempts data := by
  rw [kbcReadOutbuffLoop, kbcReadStatus, utilSysInb_bind]
  congr
  funext r
  cases PortEvent.byte? (.inb kbcRegStat, r) with
  | none => rfl
  | some status =>
    simp only [utilSysInb_bind]
    cases anyBit status kbcStatAux <;> cases anyBit status kbcStatObf <;> cases mouse <;> rfl

theorem kbcReadOutbuffLoop_stored {mouse : Bool} {attempts : Nat} {data : UInt8}
    {tr : List PortEvent} {o : Int × UInt8} (h : (kbcReadOutbuffLoop mouse attempts data).Runs tr o) :
    (o.1 = 0 ∨ o.1 = 1) ∧ o.2 = lastByte data tr := by
  induction attempts generalizing data tr with
  | zero =>
    obtain ⟨rfl, rfl⟩ := Prog.runs_ret.mp h
    simp
  | succ attempts ih =>
    rw [kbcReadOutbuffLoop_succ, Prog.runs_ask] at h
    obtain ⟨r, tr, rfl, h⟩ := h
    cases hb : PortEvent.byte? (.inb kbcRegStat, r) with
    | none =>
      simp only [hb] at h
      simpa using ih h
    | some status =>
      simp only [hb] at h
      split at h
      · obtain ⟨r', tr, rfl, hread⟩ := Prog.runs_ask.mp h
        cases hb' : PortEvent.byte? (.inb kbcRegOutBuf, r') with
        | none =>
          simp only [hb'] at hread
          simpa [hb'] using ih hread
        | some byte =>
          simp only [hb'] at hread
          split at hread <;> obtain ⟨rfl, rfl⟩ := Prog.runs_ret.mp hread <;> simp [hb']
      · simpa using ih h

theorem kbcReadOutbuffLoop_success {mouse : Bool} {attempts : Nat} {data byte : UInt8}
    {tr : List PortEvent} (h : (kbcReadOutbuffLoop mouse attempts data).Runs tr (0, byte))
    (data' : UInt8) : (kbcReadOutbuffLoop mouse attempts data').Runs tr (0, byte) := by
  induction attempts generalizing tr with
  | zero =>
    obtain ⟨-, hcode⟩ := Prog.runs_ret.mp h
    exact absurd hcode (by simp)
  | succ attempts ih =>
    rw [kbcReadOutbuffLoop_succ, Prog.runs_ask] at h ⊢
    obtain ⟨r, tr, rfl, h⟩ := h
    refine ⟨r, tr, rfl, ?_⟩
    cases hb : PortEvent.byte? (.inb kbcRegStat, r) with
    | none =>
      simp only [hb] at h
      exact ih h
    | some status =>
      simp only [hb] at h
      split at h
      · rename_i hready
        obtain ⟨r', tr, rfl, hread⟩ := Prog.runs_ask.mp h
        simp only [if_pos hready]
        refine Prog.runs_ask.mpr ⟨r', tr, rfl, ?_⟩
        cases hb' : PortEvent.byte? (.inb kbcRegOutBuf, r') with
        | none =>
          simp only [hb'] at hread
          exact ih hread
        | some byte' =>
          simp only [hb'] at hread
          exact hread
      · rename_i hready
        simp only [if_neg hready]
        exact ih h

/-- **`kbc_read_outbuff` returns 0 or 1, and leaves in `*data` the last byte it consumed.** -/
theorem kbcReadOutbuff_stored {data : UInt8} {mouse : Bool} {tr : List PortEvent}
    {o : Int × UInt8} (h : (kbcReadOutbuff data mouse).Runs tr o) :
    (o.1 = 0 ∨ o.1 = 1) ∧ o.2 = lastByte data tr :=
  kbcReadOutbuffLoop_stored h

end Lcom
