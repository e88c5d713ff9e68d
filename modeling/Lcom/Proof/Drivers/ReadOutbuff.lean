import Lcom.Proof.Drivers.Kbc

/-!
# What `kbc_read_outbuff` takes out of the output buffer

Failed polls, polls that show no byte or the other device's, and failed reads all cost one attempt.
The first read that succeeds ends the loop, whatever its status said of parity and timeout: the byte
is consumed either way.
-/

namespace Lcom

open Lib

/-- How often the status register was read, with or without success. -/
def statusReads (tr : List PortEvent) : Nat := tr.countP fun e => e.1 = .inb kbcRegStat

/-- The bytes taken out of the output buffer. -/
def consumed (tr : List PortEvent) : List UInt8 := tr.filterMap PortEvent.dataByte?

/-- The first successful read of the data port took `byte`, directly after a poll that read
    `status`. -/
def FirstByte (tr : List PortEvent) (status byte : UInt8) : Prop :=
  ∃ pre poll read post, tr = pre ++ poll :: read :: post ∧ (∀ e ∈ pre, e.dataByte? = none) ∧
    poll.Polled status ∧ read.dataByte? = some byte

/-- The status shows a byte of the device asked for. -/
def ShowsByte (mouse : Bool) (status : UInt8) : Prop :=
  anyBit status kbcStatObf = true ∧ anyBit status kbcStatAux = mouse

/-- The status marks its byte as erroneous. -/
def Flagged (status : UInt8) : Prop :=
  anyBit status kbcStatParity = true ∨ anyBit status kbcStatTimeout = true

/-- Every poll that shows a byte of the device is followed by an attempt to read it. -/
def Tried (mouse : Bool) (tr : List PortEvent) : Prop :=
  ∀ (pre : List PortEvent) (poll : PortEvent) (post : List PortEvent) (status : UInt8),
    tr = pre ++ poll :: post → poll.Polled status → ShowsByte mouse status →
    ∃ r rest, post = (.inb kbcRegOutBuf, r) :: rest

theorem flagged_iff (status : UInt8) :
    Flagged status ↔ anyBit status (kbcStatParity ||| kbcStatTimeout) = true :=
  (anyBit_or status kbcStatParity kbcStatTimeout).symm

/-! ## The first byte -/

theorem PortEvent.Polled.dataByte?_eq {e : PortEvent} {status : UInt8} (h : e.Polled status) :
    e.dataByte? = none := by
  obtain ⟨q, r⟩ := e
  obtain ⟨rfl, -⟩ := h
  exact dataByte?_poll r

theorem FirstByte.cons {tr : List PortEvent} {status byte : UInt8} (h : FirstByte tr status byte)
    {e : PortEvent} (he : e.dataByte? = none) : FirstByte (e :: tr) status byte := by
  obtain ⟨pre, poll, read, post, rfl, hpre, hpoll, hread⟩ := h
  exact ⟨e :: pre, poll, read, post, rfl, List.forall_mem_cons.mpr ⟨he, hpre⟩, hpoll, hread⟩

theorem FirstByte.consumed_ne_nil {tr : List PortEvent} {status byte : UInt8}
    (h : FirstByte tr status byte) : consumed tr ≠ [] := by
  obtain ⟨pre, poll, read, post, rfl, -, -, hread⟩ := h
  refine List.ne_nil_of_mem (List.mem_filterMap.mpr ⟨read, ?_, hread⟩)
  simp

/-- What comes before the first read that succeeds is the part of the trace without such a read. -/
theorem takeWhile_first {pre post : List PortEvent} {poll read : PortEvent} {status byte : UInt8}
    (hpre : ∀ e ∈ pre, e.dataByte? = none) (hpoll : poll.Polled status)
    (hread : read.dataByte? = some byte) :
    (pre ++ poll :: read :: post).takeWhile (fun e => e.dataByte? = none) = pre ++ [poll] := by
  have hnone : ∀ e ∈ pre ++ [poll], decide (e.dataByte? = none) = true := by
    intro e he
    rcases List.mem_append.mp he with he | he
    · exact decide_eq_true (hpre e he)
    · rw [List.mem_singleton.mp he]
      exact decide_eq_true hpoll.dataByte?_eq
  rw [List.append_cons, List.takeWhile_append_of_pos hnone, List.takeWhile_cons, hread]
  simp

theorem FirstByte.unique {tr : List PortEvent} {s s' b b' : UInt8} (h : FirstByte tr s b)
    (h' : FirstByte tr s' b') : s = s' ∧ b = b' := by
  obtain ⟨pre, poll, read, post, htr, hpre, hpoll, hread⟩ := h
  obtain ⟨pre', poll', read', post', htr', hpre', hpoll', hread'⟩ := h'
  have hcut : pre ++ [poll] = pre' ++ [poll'] := calc
    pre ++ [poll] = tr.takeWhile (fun e => e.dataByte? = none) := by
      rw [htr, takeWhile_first hpre hpoll hread]
    _ = pre' ++ [poll'] := by rw [htr', takeWhile_first hpre' hpoll' hread']
  obtain ⟨rfl, hpolls⟩ := List.append_inj' hcut rfl
  obtain rfl : poll = poll' := List.singleton_injective hpolls
  rw [htr'] at htr
  have hrest := List.append_cancel_left htr
  simp only [List.cons.injEq, true_and] at hrest
  obtain ⟨rfl, -⟩ := hrest
  exact ⟨Option.some.inj (hpoll.2.symm.trans hpoll'.2), Option.some.inj (hread.symm.trans hread')⟩

/-! ## The loop -/

/-- What a call comes to: it gives up without a byte, or it ends at the first byte, with a code that
    says whether the byte was flagged. -/
def OutbuffOutcome (mouse : Bool) (data : UInt8) (tr : List PortEvent) (o : Int × UInt8) : Prop :=
  o = (1, data) ∧ consumed tr = [] ∨
    ∃ status, FirstByte tr status o.2 ∧ ShowsByte mouse status ∧ consumed tr = [o.2] ∧
      (Flagged status ∧ o.1 = 1 ∨ ¬ Flagged status ∧ o.1 = 0)

/-- A round that takes no byte changes nothing but the attempts. -/
theorem OutbuffOutcome.cons {mouse : Bool} {data : UInt8} {tr : List PortEvent} {o : Int × UInt8}
    (h : OutbuffOutcome mouse data tr o) {e : PortEvent} (he : e.dataByte? = none) :
    OutbuffOutcome mouse data (e :: tr) o := by
  have hconsumed : consumed (e :: tr) = consumed tr := List.filterMap_cons_none he
  rcases h with ⟨ho, hnone⟩ | ⟨status, hfirst, hshows, hone, hcode⟩
  · exact .inl ⟨ho, hconsumed.trans hnone⟩
  · exact .inr ⟨status, hfirst.cons he, hshows, hconsumed.trans hone, hcode⟩

theorem statusReads_poll (r : Reply) (tr : List PortEvent) :
    statusReads ((.inb kbcRegStat, r) :: tr) = statusReads tr + 1 :=
  List.countP_cons_of_pos (by simp)

theorem statusReads_read (r : Reply) (tr : List PortEvent) :
    statusReads ((.inb kbcRegOutBuf, r) :: tr) = statusReads tr :=
  List.countP_cons_of_neg (by simp [kbcRegOutBuf, kbcRegStat])

/-- A poll that shows a byte of the device, and the read that takes it, make a whole call. -/
theorem OutbuffOutcome.taken {mouse : Bool} {data : UInt8} {r r' : Reply} {status byte : UInt8}
    {code : Int} (hstatus : PortEvent.byte? (.inb kbcRegStat, r) = some status)
    (hbyte : PortEvent.byte? (.inb kbcRegOutBuf, r') = some byte) (hshows : ShowsByte mouse status)
    (hcode : Flagged status ∧ code = 1 ∨ ¬ Flagged status ∧ code = 0) :
    OutbuffOutcome mouse data [(.inb kbcRegStat, r), (.inb kbcRegOutBuf, r')] (code, byte) := by
  have hread : PortEvent.dataByte? (.inb kbcRegOutBuf, r') = some byte := by
    rw [dataByte?_read, hbyte]
  have hfirst : FirstByte [(.inb kbcRegStat, r), (.inb kbcRegOutBuf, r')] status byte :=
    ⟨[], _, _, [], rfl, fun e he => absurd he List.not_mem_nil, ⟨rfl, hstatus⟩, hread⟩
  have hone : consumed [(.inb kbcRegStat, r), (.inb kbcRegOutBuf, r')] = [byte] := by
    simp [consumed, hbyte]
  exact .inr ⟨status, hfirst, hshows, hone, hcode⟩

theorem kbcReadOutbuffLoop_outcome {mouse : Bool} {attempts : Nat} {data : UInt8}
    {tr : List PortEvent} {o : Int × UInt8}
    (h : (kbcReadOutbuffLoop mouse attempts data).Runs tr o) :
    statusReads tr ≤ attempts ∧ OutbuffOutcome mouse data tr o := by
  induction attempts generalizing tr with
  | zero =>
    obtain ⟨rfl, rfl⟩ := Prog.runs_ret.mp h
    exact ⟨le_refl _, .inl ⟨rfl, rfl⟩⟩
  | succ attempts ih =>
    rw [kbcReadOutbuffLoop_succ, Prog.runs_ask] at h
    obtain ⟨r, tr, rfl, h⟩ := h
    rw [statusReads_poll]
    -- a poll that is rejected leaves the rest of the loop
    have hretry : (kbcReadOutbuffLoop mouse attempts data).Runs tr o →
        statusReads tr + 1 ≤ attempts + 1 ∧
          OutbuffOutcome mouse data ((.inb kbcRegStat, r) :: tr) o := fun h =>
      ⟨Nat.succ_le_succ (ih h).1, (ih h).2.cons (dataByte?_poll r)⟩
    cases hb : PortEvent.byte? (.inb kbcRegStat, r) with
    | none =>
      simp only [hb] at h
      exact hretry h
    | some status =>
      simp only [hb] at h
      split at h
      · rename_i hshows
        obtain ⟨r', tr, rfl, hread⟩ := Prog.runs_ask.mp h
        rw [statusReads_read]
        cases hb' : PortEvent.byte? (.inb kbcRegOutBuf, r') with
        | none =>
          simp only [hb'] at hread
          have hnone : PortEvent.dataByte? (.inb kbcRegOutBuf, r') = none := by
            rw [dataByte?_read, hb']
          exact ⟨Nat.succ_le_succ (ih hread).1,
            ((ih hread).2.cons hnone).cons (dataByte?_poll r)⟩
        | some byte =>
          simp only [hb'] at hread
          split at hread
          · rename_i hflag
            obtain ⟨rfl, rfl⟩ := Prog.runs_ret.mp hread
            exact ⟨by simp [statusReads], .taken hb hb' hshows.symm
              (.inl ⟨(flagged_iff status).mpr hflag, rfl⟩)⟩
          · rename_i hflag
            obtain ⟨rfl, rfl⟩ := Prog.runs_ret.mp hread
            exact ⟨by simp [statusReads], .taken hb hb' hshows.symm
              (.inr ⟨fun hf => hflag ((flagged_iff status).mp hf), rfl⟩)⟩
      · exact hretry h

/-! ## What is not given up

A call that comes back without a byte has used up its polls, and none of them showed a byte that it
did not try to read.
-/

theorem Tried.cons {mouse : Bool} {e : PortEvent} {tr : List PortEvent} (h : Tried mouse tr)
    (he : ∀ status, e.Polled status → ShowsByte mouse status →
      ∃ r rest, tr = (.inb kbcRegOutBuf, r) :: rest) : Tried mouse (e :: tr) := by
  intro pre poll post status htr hpoll hshows
  cases pre with
  | nil =>
    cases htr
    exact he status hpoll hshows
  | cons _ pre =>
    cases htr
    exact h pre poll post status rfl hpoll hshows

theorem PortEvent.not_polled_read (r : Reply) (status : UInt8) :
    ¬ PortEvent.Polled (.inb kbcRegOutBuf, r) status := by
  simp [PortEvent.Polled, kbcRegOutBuf, kbcRegStat]

/-- A read of the data port, and the poll before it. -/
theorem Tried.read {mouse : Bool} {r r' : Reply} {tr : List PortEvent} (h : Tried mouse tr) :
    Tried mouse ((.inb kbcRegStat, r) :: (.inb kbcRegOutBuf, r') :: tr) :=
  (h.cons fun status hpoll => absurd hpoll (PortEvent.not_polled_read r' status)).cons
    fun _ _ _ => ⟨r', tr, rfl⟩

theorem Tried.nil (mouse : Bool) : Tried mouse [] := by
  intro pre poll post status htr
  simp at htr

/-- No poll that shows a byte is passed over, and a loop that takes none uses up its attempts. -/
theorem kbcReadOutbuffLoop_tries {mouse : Bool} {attempts : Nat} {data : UInt8}
    {tr : List PortEvent} {o : Int × UInt8}
    (h : (kbcReadOutbuffLoop mouse attempts data).Runs tr o) :
    Tried mouse tr ∧ (consumed tr = [] → statusReads tr = attempts) := by
  induction attempts generalizing tr with
  | zero =>
    obtain ⟨rfl, rfl⟩ := Prog.runs_ret.mp h
    exact ⟨.nil mouse, fun _ => rfl⟩
  | succ attempts ih =>
    rw [kbcReadOutbuffLoop_succ, Prog.runs_ask] at h
    obtain ⟨r, tr, rfl, h⟩ := h
    rw [statusReads_poll]
    have hconsumed : ∀ tr, consumed ((.inb kbcRegStat, r) :: tr) = consumed tr := fun tr =>
      List.filterMap_cons_none (dataByte?_poll r)
    cases hb : PortEvent.byte? (.inb kbcRegStat, r) with
    | none =>
      simp only [hb] at h
      obtain ⟨htried, hpolls⟩ := ih h
      refine ⟨htried.cons fun status hpoll => ?_, fun hnone => ?_⟩
      · rw [hpoll.2] at hb
        cases hb
      · rw [hpolls ((hconsumed tr).symm.trans hnone)]
    | some status =>
      simp only [hb] at h
      split at h
      · obtain ⟨r', tr, rfl, hread⟩ := Prog.runs_ask.mp h
        rw [statusReads_read, hconsumed]
        cases hb' : PortEvent.byte? (.inb kbcRegOutBuf, r') with
        | none =>
          simp only [hb'] at hread
          obtain ⟨htried, hpolls⟩ := ih hread
          refine ⟨htried.read, fun hnone => ?_⟩
          rw [hpolls]
          rwa [consumed, List.filterMap_cons_none (by rw [dataByte?_read, hb'])] at hnone
        | some byte =>
          have htaken : consumed ((.inb kbcRegOutBuf, r') :: tr) ≠ [] := by
            simp [consumed, hb']
          have hend : tr = [] := by
            simp only [hb'] at hread
            split at hread <;> exact (Prog.runs_ret.mp hread).1
          subst hend
          exact ⟨(Tried.nil mouse).read, fun hnone => absurd hnone htaken⟩
      · rename_i hshows
        obtain ⟨htried, hpolls⟩ := ih h
        refine ⟨htried.cons fun status' hpoll hshows' => ?_, fun hnone => ?_⟩
        · cases hb.symm.trans hpoll.2
          exact absurd hshows'.symm hshows
        · rw [hpolls ((hconsumed tr).symm.trans hnone)]

/-- **`kbc_read_outbuff`, characterised by its trace.** It polls eight times at most and consumes one
    byte at most. It returns 0, with that byte, exactly when the first read that succeeds follows a
    poll that showed a byte of the device, unflagged; otherwise it returns 1, and has consumed nothing
    or one flagged byte of the device. It passes over no poll that shows a byte of the device, and it
    gives up without a byte after eight polls, not before. -/
theorem kbcReadOutbuff_outcome {data : UInt8} {mouse : Bool} {tr : List PortEvent}
    {o : Int × UInt8} (h : (kbcReadOutbuff data mouse).Runs tr o) :
    statusReads tr ≤ 8 ∧ (consumed tr).length ≤ 1 ∧ (o.1 = 0 ∨ o.1 = 1) ∧
      (∀ byte, o = (0, byte) ↔
        ∃ status, FirstByte tr status byte ∧ ShowsByte mouse status ∧ ¬ Flagged status) ∧
      (o.1 = 1 → consumed tr = [] ∨
        ∃ status byte, consumed tr = [byte] ∧ FirstByte tr status byte ∧ ShowsByte mouse status ∧
          Flagged status) ∧
      Tried mouse tr ∧ (consumed tr = [] → statusReads tr = 8) := by
  obtain ⟨hpolls, houtcome⟩ := kbcReadOutbuffLoop_outcome h
  have htries := kbcReadOutbuffLoop_tries h
  obtain ⟨code, value⟩ := o
  rcases houtcome with ⟨ho, hnone⟩ | ⟨status, hfirst, hshows, hone, hcode⟩
  · cases ho
    refine ⟨hpolls, by simp [hnone], .inr rfl, fun byte => ?_, fun _ => .inl hnone, htries⟩
    refine iff_of_false (by simp) fun hex => ?_
    obtain ⟨status, hfirst, -⟩ := hex
    exact hfirst.consumed_ne_nil hnone
  · refine ⟨hpolls, by simp [hone], by omega, fun byte => ?_, fun hcode' => .inr ?_, htries⟩
    · constructor
      · intro ho
        cases ho
        rcases hcode with ⟨-, hcode⟩ | ⟨hflag, -⟩
        · cases hcode
        · exact ⟨status, hfirst, hshows, hflag⟩
      · intro hex
        obtain ⟨status', hfirst', -, hflag'⟩ := hex
        obtain ⟨rfl, rfl⟩ := hfirst.unique hfirst'
        rcases hcode with ⟨hflag, -⟩ | ⟨-, hcode⟩
        · exact absurd hflag hflag'
        · exact Prod.ext hcode rfl
    · rcases hcode with ⟨hflag, -⟩ | ⟨-, hcode⟩
      · exact ⟨status, value, hone, hfirst, hshows, hflag⟩
      · omega

/-- A byte of the mouse is waiting first, then the keyboard's. -/
theorem kbcReadOutbuff_outcome_second :
    ∃ status, FirstByte [(.inb 0x64, ⟨false, 0x21⟩), (.inb 0x64, ⟨false, 0x01⟩),
        (.inb 0x60, ⟨false, 0x1C⟩)] status 0x1C ∧ ShowsByte false status ∧ ¬ Flagged status := by
  have houtcome := @kbcReadOutbuff_outcome 0 false [(.inb 0x64, ⟨false, 0x21⟩),
    (.inb 0x64, ⟨false, 0x01⟩), (.inb 0x60, ⟨false, 0x1C⟩)] (0, 0x1C) (by decide)
  exact (houtcome.2.2.2.1 0x1C).mp rfl

end Lcom
