import Lcom.Drivers.Keyboard
import Lcom.Proof.Drivers.ReadOutbuff
import Mathlib.Data.List.TakeWhile

/-!
# What `kbc_ih` leaves behind

A call that takes no byte changes nothing. A byte it takes goes to `scan_code` at once; whether
`kbd_ih_valid` is set as well depends on the error flags of the poll before the byte
(`kbcIh_outcome`). So a byte with an error flag is seen by whoever looks at `scan_code` alone.
-/

namespace Lcom

open Lib

/-- `byte` is read from the data port directly after a poll that marked it as erroneous. -/
def FlaggedRead (byte : UInt8) (tr : List PortEvent) : Prop :=
  ∃ pre poll read post status, tr = pre ++ poll :: read :: post ∧ poll.Polled status ∧
    Flagged status ∧ read.dataByte? = some byte

/-! ## Flagged bytes -/

variable {byte b : UInt8} {tr tr' : List PortEvent}

theorem not_flaggedRead (h : consumed tr = []) : ¬ FlaggedRead byte tr := by
  rintro ⟨pre, poll, read, post, status, rfl, -, -, hread⟩
  have hnone := List.filterMap_eq_nil_iff.mp h read (by simp)
  rw [hnone] at hread
  cases hread

/-- Where one byte is taken, the flags of its poll decide. -/
theorem FirstByte.flaggedRead_iff {status : UInt8} (h : FirstByte tr status b)
    (hone : consumed tr = [b]) : FlaggedRead byte tr ↔ Flagged status ∧ b = byte := by
  constructor
  · rintro ⟨pre, poll, read, post, status', rfl, hpoll, hflag, hread⟩
    have hpre : consumed pre = [] := by
      have hlen := congrArg List.length hone
      have hread' : consumed (poll :: read :: post) = byte :: consumed post := by
        unfold consumed
        rw [List.filterMap_cons_none hpoll.dataByte?_eq, List.filterMap_cons_some hread]
      rw [show consumed (pre ++ poll :: read :: post) = consumed pre ++ consumed (poll :: read :: post)
        from List.filterMap_append, hread', List.length_append, List.length_cons] at hlen
      rw [List.length_singleton] at hlen
      exact List.length_eq_zero_iff.mp (by omega)
    have hfirst : FirstByte (pre ++ poll :: read :: post) status' byte :=
      ⟨pre, poll, read, post, rfl, List.filterMap_eq_nil_iff.mp hpre, hpoll, hread⟩
    obtain ⟨rfl, rfl⟩ := h.unique hfirst
    exact ⟨hflag, rfl⟩
  · rintro ⟨hflag, rfl⟩
    obtain ⟨pre, poll, read, post, rfl, -, hpoll, hread⟩ := h
    exact ⟨pre, poll, read, post, status, rfl, hpoll, hflag, hread⟩

/-- A trace that does not start with a read of the data port can be looked at on its own. -/
theorem flaggedRead_append (hhead : ∀ e ∈ tr'.head?, e.dataByte? = none) :
    FlaggedRead byte (tr ++ tr') ↔ FlaggedRead byte tr ∨ FlaggedRead byte tr' := by
  constructor
  · rintro ⟨pre, poll, read, post, status, htr, hpoll, hflag, hread⟩
    rcases List.append_eq_append_iff.mp htr with ⟨c, rfl, rfl⟩ | ⟨c, rfl, hc⟩
    · exact .inr ⟨c, poll, read, post, status, rfl, hpoll, hflag, hread⟩
    · cases c with
      | nil => exact .inr ⟨[], poll, read, post, status, hc.symm, hpoll, hflag, hread⟩
      | cons e c =>
        obtain ⟨rfl, hrest⟩ := List.cons.inj hc
        cases c with
        | nil =>
          -- the byte would be the first event of the second trace
          obtain rfl : read :: post = tr' := hrest
          have hnone := hhead read rfl
          rw [hnone] at hread
          cases hread
        | cons e' c =>
          obtain ⟨rfl, -⟩ := List.cons.inj hrest
          exact .inl ⟨pre, poll, read, c, status, rfl, hpoll, hflag, hread⟩
  · rintro (⟨pre, poll, read, post, status, rfl, hrest⟩ | ⟨pre, poll, read, post, status, rfl, hrest⟩)
    · exact ⟨pre, poll, read, post ++ tr', status, by simp, hrest⟩
    · exact ⟨tr ++ pre, poll, read, post, status, by simp, hrest⟩

/-! ## The reads of a trace

One after the other, each with what the access before it said of it.
-/

/-- A poll that marks the byte behind it as erroneous. -/
def PortEvent.marks (e : PortEvent) : Bool :=
  decide (e.1 = .inb kbcRegStat) &&
    e.byte?.any fun status => anyBit status (kbcStatParity ||| kbcStatTimeout)

/-- The bytes taken out of the output buffer, and whether they were marked; `marked` is what the
    access before the trace said. -/
def markedReads : Bool → List PortEvent → List (UInt8 × Bool)
  | _, [] => []
  | marked, e :: tr =>
    match e.dataByte? with
    | some byte => (byte, marked) :: markedReads e.marks tr
    | none => markedReads e.marks tr

theorem markedReads_none {e : PortEvent} (he : e.dataByte? = none) (marked : Bool)
    (tr : List PortEvent) : markedReads marked (e :: tr) = markedReads e.marks tr := by
  rw [markedReads, he]

theorem markedReads_some {e : PortEvent} (he : e.dataByte? = some byte) (marked : Bool)
    (tr : List PortEvent) :
    markedReads marked (e :: tr) = (byte, marked) :: markedReads e.marks tr := by
  rw [markedReads, he]

theorem map_fst_markedReads (marked : Bool) (tr : List PortEvent) :
    (markedReads marked tr).map Prod.fst = consumed tr := by
  induction tr generalizing marked with
  | nil => rfl
  | cons e tr ih =>
    cases he : e.dataByte? with
    | none => rw [markedReads_none he, ih, consumed, consumed, List.filterMap_cons_none he]
    | some byte =>
      rw [markedReads_some he, List.map_cons, ih, consumed, consumed, List.filterMap_cons_some he]

theorem markedReads_eq_nil (marked : Bool) (h : consumed tr = []) : markedReads marked tr = [] := by
  rw [← map_fst_markedReads marked] at h
  exact List.map_eq_nil_iff.mp h

theorem markedReads_append (hhead : ∀ e ∈ tr'.head?, e.dataByte? = none) (marked : Bool) :
    markedReads marked (tr ++ tr') = markedReads marked tr ++ markedReads false tr' := by
  induction tr generalizing marked with
  | nil =>
    cases tr' with
    | nil => rfl
    | cons e tr' =>
      have he := hhead e rfl
      rw [List.nil_append, markedReads_none he, markedReads_none he]
      rfl
  | cons e tr ih =>
    rw [List.cons_append]
    cases he : e.dataByte? with
    | none => rw [markedReads_none he, markedReads_none he, ih]
    | some byte => rw [markedReads_some he, markedReads_some he, ih, List.cons_append]

/-- Where one byte is taken, its poll marks it. -/
theorem FirstByte.markedReads {status : UInt8} (h : FirstByte tr status b) (hone : consumed tr = [b])
    (marked : Bool) :
    markedReads marked tr = [(b, anyBit status (kbcStatParity ||| kbcStatTimeout))] := by
  obtain ⟨pre, poll, read, post, rfl, hpre, hpoll, hread⟩ := h
  induction pre generalizing marked with
  | nil =>
    have hpost : consumed post = [] := by
      rw [List.nil_append, consumed, List.filterMap_cons_none hpoll.dataByte?_eq,
        List.filterMap_cons_some hread] at hone
      exact (List.cons.inj hone).2
    have hmarks : poll.marks = anyBit status (kbcStatParity ||| kbcStatTimeout) := by
      rw [PortEvent.marks, hpoll.1, hpoll.2, decide_eq_true rfl, Bool.true_and]
      rfl
    rw [List.nil_append, markedReads_none hpoll.dataByte?_eq, markedReads_some hread,
      markedReads_eq_nil _ hpost, hmarks]
  | cons e pre ih =>
    obtain ⟨he, hpre⟩ := List.forall_mem_cons.mp hpre
    rw [List.cons_append, consumed, List.filterMap_cons_none he] at hone
    rw [List.cons_append, markedReads_none he]
    exact ih _ hone hpre

/-! ## The interrupt handler -/

/-- `kbc_ih` polls first, and what it leaves in the globals is decided by the byte it takes. -/
theorem kbcIh_outcome {g g' : KbdGlobals} (h : (kbcIh g).Runs tr g') :
    (∃ r rest, tr = (.inb kbcRegStat, r) :: rest) ∧
      (g' = g ∧ consumed tr = [] ∨ ∃ status byte, FirstByte tr status byte ∧ consumed tr = [byte] ∧
        (Flagged status ∧ g' = { g with scan_code := byte } ∨
          ¬ Flagged status ∧ g' = ⟨byte, true⟩)) := by
  rw [kbcIh, kbcReadStatus, utilSysInb_bind, Prog.runs_ask] at h
  obtain ⟨r, tr, rfl, h⟩ := h
  refine ⟨⟨r, tr, rfl⟩, ?_⟩
  have hidle : ∀ {o : KbdGlobals}, (Prog.ret g : Driver KbdGlobals).Runs tr o →
      o = g ∧ consumed ((PortOp.inb kbcRegStat, r) :: tr) = [] := by
    intro o hret
    obtain ⟨rfl, rfl⟩ := Prog.runs_ret.mp hret
    exact ⟨rfl, by simp [consumed]⟩
  cases hb : PortEvent.byte? (.inb kbcRegStat, r) with
  | none =>
    simp only [hb] at h
    exact .inl (hidle h)
  | some first =>
    simp only [hb] at h
    split at h
    · exact .inl (hidle h)
    · split at h
      · exact .inl (hidle h)
      · obtain ⟨tr₁, ⟨code, byte⟩, tr₂, rfl, hread, hret⟩ := Prog.runs_bind.mp h
        have hend : tr₂ = [] ∧ g' = if code ≠ 0 then { g with scan_code := byte } else
            ⟨byte, true⟩ := by
          dsimp only at hret
          split at hret
          · rename_i hcode
            rw [if_pos hcode]
            obtain ⟨hnil, heq⟩ := Prog.runs_ret.mp hret
            exact ⟨hnil, heq.symm⟩
          · rename_i hcode
            rw [if_neg hcode]
            obtain ⟨hnil, heq⟩ := Prog.runs_ret.mp hret
            exact ⟨hnil, heq.symm⟩
        obtain ⟨rfl, hg'⟩ := hend
        rw [List.append_nil]
        rcases ((kbcReadOutbuffLoop_outcome hread).2).cons (dataByte?_poll r) with
          ⟨ho, hnone⟩ | ⟨status, hfirst, -, hone, hcode⟩
        · cases ho
          exact .inl ⟨hg', hnone⟩
        · dsimp only at hcode
          refine .inr ⟨status, byte, hfirst, hone, ?_⟩
          rcases hcode with ⟨hflag, hcode⟩ | ⟨hflag, hcode⟩
          · exact .inl ⟨hflag, by rw [hg', if_pos (by rw [hcode]; decide)]⟩
          · exact .inr ⟨hflag, by rw [hg', if_neg (by rw [hcode]; decide)]⟩

/-! ## Reads and writes -/

/-- The access is a read. -/
def PortEvent.isRead (e : PortEvent) : Bool :=
  match e.1 with
  | .inb _ => true
  | .outb _ _ => false

theorem asks_utilSysInb (port : UInt16) :
    (utilSysInb port).Asks fun q => ∃ port, q = .inb port :=
  (Prog.Asks.query ⟨port, rfl⟩).bind fun r => by
    split
    · trivial
    · trivial

theorem asks_kbcReadOutbuffLoop (mouse : Bool) (attempts : Nat) (data : UInt8) :
    (kbcReadOutbuffLoop mouse attempts data).Asks fun q => ∃ port, q = .inb port := by
  induction attempts with
  | zero => trivial
  | succ attempts ih =>
    rw [kbcReadOutbuffLoop]
    refine (asks_utilSysInb _).bind fun status => ?_
    cases status with
    | none => exact ih
    | some status =>
      dsimp only
      split
      · exact ih
      · split
        · exact ih
        · split
          · refine (asks_utilSysInb _).bind fun byte => ?_
            cases byte with
            | none => exact ih
            | some byte =>
              dsimp only
              split
              · trivial
              · trivial
          · exact ih

theorem asks_kbcIh (g : KbdGlobals) : (kbcIh g).Asks fun q => ∃ port, q = .inb port := by
  rw [kbcIh]
  refine (asks_utilSysInb _).bind fun status => ?_
  cases status with
  | none => trivial
  | some status =>
    dsimp only
    split
    · trivial
    · split
      · trivial
      · refine (asks_kbcReadOutbuffLoop _ _ _).bind fun o => ?_
        split
        · trivial
        · trivial

/-- A write polls the status port only. -/
theorem asks_kbcWriteLoop {port : UInt16} (byte : UInt8) (cnt : Nat) :
    (kbcWriteLoop port byte cnt).Asks fun q => q ≠ .inb kbcRegOutBuf := by
  induction cnt with
  | zero => trivial
  | succ cnt ih =>
    rw [kbcWriteLoop_succ]
    refine ⟨by decide, fun r => ?_⟩
    dsimp only
    split
    · trivial
    · split
      · exact ih
      · refine ⟨by simp, fun w => ?_⟩
        dsimp only
        split
        · trivial
        · trivial

/-- `keyboard_enable_interrupts` takes no byte before it first writes to a port. -/
theorem keyboardEnableInterrupts_reads {command : UInt8} {tr : List PortEvent} {o : Int}
    (h : (keyboardEnableInterrupts command).Runs tr o) :
    consumed (tr.takeWhile PortEvent.isRead) = [] := by
  have hnone : ∀ {tr : List PortEvent} {r : Int},
      (kbcWrite kbcRegCommand kbcCommDisableKbdInterface).Runs tr r →
        ∀ e ∈ tr, e.dataByte? = none := fun hrun e he =>
    if_neg ((asks_kbcWriteLoop _ _).trace hrun e he)
  unfold keyboardEnableInterrupts at h
  rcases Prog.runs_check.mp h with ⟨r, -, hwrite, -⟩ | ⟨tr₁, tr₂, rfl, hwrite, -⟩
  · exact List.filterMap_eq_nil_iff.mpr fun e he =>
      hnone hwrite e ((List.takeWhile_sublist _).subset he)
  · -- the write itself is where the reads stop
    obtain ⟨write, hlast, hport⟩ := (runs_kbcWrite_zero_iff.mp hwrite).getLast?
    have hstop : ¬ (tr₁.takeWhile PortEvent.isRead).length = tr₁.length := by
      intro hlen
      have hall := (List.takeWhile_prefix PortEvent.isRead).eq_of_length hlen
      have hread := List.mem_takeWhile_imp (hall ▸ List.mem_of_getLast? hlast)
      unfold PortEvent.isRead at hread
      rw [hport] at hread
      cases hread
    rw [List.takeWhile_append, if_neg hstop]
    exact List.filterMap_eq_nil_iff.mpr fun e he =>
      hnone hwrite e ((List.takeWhile_sublist _).subset he)

end Lcom
