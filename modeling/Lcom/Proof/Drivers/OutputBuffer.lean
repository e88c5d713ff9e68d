import Lcom.Drivers.Keyboard
import Lcom.Drivers.Mouse
import Lcom.Proof.Drivers.Kbc

/-!
# One output buffer, two devices

Keyboard and mouse share the controller's output buffer, and only the AUX bit of the status
register says whose byte is waiting. The discipline this file is about: *every read of the data
port comes directly after a status poll that showed a byte of the device the caller serves*.

It is a property of which question follows which exchange, so it is `Prog.Obeys` of each driver
program (`Polls`), proved once per loop and composed by the bind rule. Six of the seven
operations obey. The seventh, `mouse_write_command`, fetches the mouse's answer with a bare
`util_sys_inb` after its two `kbc_write`s; `performed_disciplined_iff` says that this read is the
whole of the defect — a call is disciplined unless it gets as far as that line.
-/

namespace Lcom

open Lib

inductive Device where
  | keyboard
  | mouse
  deriving DecidableEq, Repr

/-- The device a `bool mouse` argument names. -/
def Device.ofFlag (mouse : Bool) : Device := if mouse then .mouse else .keyboard

/-- The AUX bit a status byte must carry for the device. -/
def Device.aux : Device → Bool
  | .keyboard => false
  | .mouse => true

@[simp] theorem Device.aux_ofFlag (mouse : Bool) : (Device.ofFlag mouse).aux = mouse := by
  cases mouse <;> rfl

/-- `st` is a status poll that showed OBF set, with the AUX bit of `d`. -/
def ShowsByteFor (d : Device) (st : PortEvent) : Prop :=
  ∃ status, st.Polled status ∧ anyBit status kbcStatObf = true ∧
    anyBit status kbcStatAux = d.aux

/-! ## The driver operations -/

/-- A call of a driver operation that touches the controller, with the arguments it reads. -/
inductive DriverCall where
  | readOutbuff (data : UInt8) (mouse : Bool)
  | readScancode (scancode : UInt8)
  | kbcIh (g : KbdGlobals)
  | enableInterrupts (command : UInt8)
  | readPacket (d : MouseDriver)
  | readResponse (response : UInt8)
  | writeCommand (command aknl : UInt8)
  deriving DecidableEq, Repr

/-- The device the caller serves. -/
def DriverCall.device : DriverCall → Device
  | .readOutbuff _ mouse => .ofFlag mouse
  | .readScancode _ | .kbcIh _ | .enableInterrupts _ => .keyboard
  | .readPacket _ | .readResponse _ | .writeCommand .. => .mouse

/-- The call can leave the trace `tr`. -/
def DriverCall.Leaves (tr : List PortEvent) : DriverCall → Prop
  | .readOutbuff data mouse => ∃ o, (kbcReadOutbuff data mouse).Runs tr o
  | .readScancode scancode => ∃ o, (keyboardReadScancode scancode).Runs tr o
  | .kbcIh g => ∃ o, (Lcom.kbcIh g).Runs tr o
  | .enableInterrupts command => ∃ o, (keyboardEnableInterrupts command).Runs tr o
  | .readPacket d => ∃ o, (mouseReadPacket d).Runs tr o
  | .readResponse response => ∃ o, (mouseReadResponse response).Runs tr o
  | .writeCommand command aknl => ∃ o, (mouseWriteCommand command aknl).Runs tr o

/-- A call that was performed, with the accesses it made. -/
structure Performed where
  call : DriverCall
  trace : List PortEvent
  leaves : call.Leaves trace

/-- `origin i` is the device whose byte the `i`-th access of a call would take. A controller is
    honest when a poll showing a byte is right about whose byte the very next read takes. -/
def HonestAux (tr : List PortEvent) (origin : Nat → Device) : Prop :=
  ∀ pre st e post status, tr = pre ++ st :: e :: post → st.Polled status →
    anyBit status kbcStatObf = true → e.1 = .inb kbcRegOutBuf →
    anyBit status kbcStatAux = (origin (pre.length + 1)).aux

/-- The discipline, and what it is for. -/
structure Performed.Disciplined (p : Performed) : Prop where
  /-- Every data port read comes directly after a poll showing a byte of the served device. -/
  polled : ∀ pre e post, p.trace = pre ++ e :: post → e.1 = .inb kbcRegOutBuf →
    ∃ st, pre.getLast? = some st ∧ ShowsByteFor p.call.device st
  /-- With an honest controller, no byte of the other device is consumed. -/
  own : ∀ origin, HonestAux p.trace origin → ∀ pre e post, p.trace = pre ++ e :: post →
    e.dataByte?.isSome → origin pre.length = p.call.device

/-! ## The discipline as a local rule -/

/-- The rule: a read of the data port is allowed only directly after a poll that showed a byte
    for `d`; every other access is allowed. -/
def PollRule (d : Device) (prev : Option PortEvent) (q : PortOp) : Prop :=
  q = .inb kbcRegOutBuf → ∃ st, prev = some st ∧ ShowsByteFor d st

/-- A program that follows the rule, whatever happened before it. -/
def Polls {α : Type} (d : Device) (p : Driver α) : Prop :=
  ∀ prev, p.Obeys (PollRule d) prev

theorem Polls.ret {α : Type} {d : Device} (a : α) : Polls d (Prog.ret a) := fun _ => trivial

theorem Polls.bind {α β : Type} {d : Device} {p : Driver α} {f : α → Driver β} (hp : Polls d p)
    (hf : ∀ a, Polls d (f a)) : Polls d (p >>= f) :=
  fun prev => (hp prev).bind fun a prev' => hf a prev'

theorem Polls.ite {α : Type} {d : Device} {c : Prop} [Decidable c] {p q : Driver α}
    (hp : Polls d p) (hq : Polls d q) : Polls d (if c then p else q) := by
  split
  · exact hp
  · exact hq

/-- Any access but a data port read is free. -/
theorem Polls.ask {α : Type} {d : Device} {q : PortOp} {k : Reply → Driver α}
    (hq : q ≠ .inb kbcRegOutBuf) (hk : ∀ r, Polls d (k r)) : Polls d (Prog.ask q k) :=
  fun _ => ⟨fun h => absurd h hq, fun r => hk r _⟩

theorem polls_kbcReadStatus (d : Device) : Polls d kbcReadStatus := by
  unfold kbcReadStatus utilSysInb sysInb
  exact Polls.ask (by decide) fun r => Polls.ite (.ret _) (.ret _)

theorem polls_kbcWrite (d : Device) (port : UInt16) (command : UInt8) :
    Polls d (kbcWrite port command) := by
  unfold kbcWrite
  induction maxAttempts with
  | zero => exact Polls.ret _
  | succ cnt ih =>
    rw [kbcWriteLoop_succ]
    refine Polls.ask (by decide) fun r => ?_
    split
    · exact Polls.ret _
    · exact Polls.ite ih (Polls.ask (by simp) fun w => Polls.ite (.ret _) (.ret _))

/-- The one place a data port read is written next to its poll. -/
theorem polls_kbcReadOutbuff (data : UInt8) (mouse : Bool) :
    Polls (.ofFlag mouse) (kbcReadOutbuff data mouse) := by
  unfold kbcReadOutbuff
  generalize 8 = attempts
  induction attempts generalizing data with
  | zero => exact Polls.ret _
  | succ attempts ih =>
    intro prev
    rw [kbcReadOutbuffLoop_succ]
    -- the continuation is entered with this very poll as the exchange before it
    refine ⟨fun h => absurd h (by decide), fun r => ?_⟩
    dsimp only
    cases hb : PortEvent.byte? (.inb kbcRegStat, r) with
    | none => exact ih data _
    | some status =>
      dsimp only
      split
      · rename_i hshow
        refine ⟨fun _ => ⟨_, rfl, status, ⟨rfl, hb⟩, hshow.2, by simpa using hshow.1⟩, ?_⟩
        intro r'
        dsimp only
        cases PortEvent.byte? (.inb kbcRegOutBuf, r') with
        | none => exact ih data _
        | some byte => exact Polls.ite (.ret _) (.ret _) _
      · exact ih data _

theorem polls_keyboardReadScancode (scancode : UInt8) :
    Polls .keyboard (keyboardReadScancode scancode) := by
  unfold keyboardReadScancode
  refine (polls_kbcReadStatus _).bind fun o => ?_
  cases o with
  | none => exact .ret _
  | some status =>
    refine .ite (.ret _) (.ite (.ret _) ?_)
    exact (polls_kbcReadOutbuff _ false).bind fun o => .ite (.ret _) (.ret _)

theorem polls_kbcIh (g : KbdGlobals) : Polls .keyboard (kbcIh g) := by
  unfold kbcIh
  refine (polls_kbcReadStatus _).bind fun o => ?_
  cases o with
  | none => exact .ret _
  | some status =>
    refine .ite (.ret _) (.ite (.ret _) ?_)
    exact (polls_kbcReadOutbuff _ false).bind fun o => .ite (.ret _) (.ret _)

theorem polls_keyboardEnableInterrupts (command : UInt8) :
    Polls .keyboard (keyboardEnableInterrupts command) := by
  unfold keyboardEnableInterrupts
  refine (polls_kbcWrite _ _ _).bind fun _ => .ite (.ret _) ?_
  refine (polls_kbcWrite _ _ _).bind fun _ => .ite (.ret _) ?_
  refine (polls_kbcReadOutbuff _ false).bind fun _ => .ite (.ret _) ?_
  refine (polls_kbcWrite _ _ _).bind fun _ => .ite (.ret _) ?_
  refine (polls_kbcWrite _ _ _).bind fun _ => .ite (.ret _) ?_
  exact (polls_kbcWrite _ _ _).bind fun _ => .ite (.ret _) (.ret _)

theorem polls_mouseReadPacket (d : MouseDriver) : Polls .mouse (mouseReadPacket d) :=
  (polls_kbcReadOutbuff _ true).bind fun _ => .ite (.ret _) (.ret _)

theorem polls_mouseReadResponse (response : UInt8) :
    Polls .mouse (mouseReadResponse response) := by
  unfold mouseReadResponse
  induction maxAttempts generalizing response with
  | zero => exact .ret _
  | succ cnt ih =>
    rw [mouseReadResponseLoop]
    refine (polls_kbcReadStatus _).bind fun o => ?_
    cases o with
    | none => exact .ret _
    | some status =>
      refine .ite (ih response) ?_
      exact (polls_kbcReadOutbuff _ true).bind fun _ => .ite (.ret _) (.ret _)

/-! ## `mouse_write_command`, the operation that does not poll -/

/-- The controller accepts both bytes of the command's first attempt: the prefix `0xD4` and the
    command itself. -/
def CommandAccepted (command : UInt8) (tr : List PortEvent) : Prop :=
  ∃ tr₁ tr₂ rest, tr = tr₁ ++ tr₂ ++ rest ∧
    WriteAccepted kbcRegCommand kbcCommWriteMouseCommByte maxAttempts tr₁ ∧
    WriteAccepted kbcRegInBuf command maxAttempts tr₂

/-- One attempt, with the bare read in its place. -/
theorem mouseWriteCommand_eq (command aknl : UInt8) :
    mouseWriteCommand command aknl =
      if aknl = mouseResAck then pure 1
      else kbcWrite kbcRegCommand kbcCommWriteMouseCommByte >>= fun r₁ =>
        if r₁ ≠ 0 then pure 1
        else kbcWrite kbcRegInBuf command >>= fun r₂ =>
          if r₂ ≠ 0 then pure 1
          else utilSysInb kbcRegOutBuf >>= fun o =>
            match o with
            | none => pure 1
            | some aknl =>
              if aknl = mouseResAck then pure 0
              else mouseWriteCommandLoop command 19 aknl := rfl

/-- A command that is accepted runs into the bare read, directly after the write. -/
theorem mouseWriteCommand_reads {command aknl : UInt8} {tr : List PortEvent} {o : Int}
    (hr : (mouseWriteCommand command aknl).Runs tr o) (hne : aknl ≠ mouseResAck)
    (hacc : CommandAccepted command tr) :
    ∃ pre r post e, tr = pre ++ (.inb kbcRegOutBuf, r) :: post ∧ pre.getLast? = some e ∧
      e.1 = .outb kbcRegInBuf command := by
  rw [mouseWriteCommand_eq, if_neg hne] at hr
  obtain ⟨tr₁, tr₂, rest, htr, hacc₁, hacc₂⟩ := hacc
  -- the run splits where the accepted writes end, since a run has only one end
  obtain ⟨u₁, c₁, u, rfl, hrun₁, htail⟩ := Prog.runs_bind.mp hr
  rw [List.append_assoc] at htr
  obtain ⟨rfl, rfl, rfl⟩ :=
    Prog.Runs.append_unique hrun₁ (runs_kbcWrite_zero_iff.mpr hacc₁) htr
  simp only [ne_eq, not_true_eq_false, if_false] at htail
  obtain ⟨u₂, c₂, v, heq, hrun₂, hread⟩ := Prog.runs_bind.mp htail
  obtain ⟨rfl, rfl, rfl⟩ :=
    Prog.Runs.append_unique hrun₂ (runs_kbcWrite_zero_iff.mpr hacc₂) heq.symm
  simp only [not_true_eq_false, if_false, utilSysInb_bind] at hread
  obtain ⟨r, post, rfl, -⟩ := Prog.runs_ask.mp hread
  obtain ⟨e, he, hq⟩ := hacc₂.getLast?
  exact ⟨u₁ ++ u₂, r, post, e, by simp, by simp [he], hq⟩

/-- A command that is not accepted makes no data port read at all. -/
theorem mouseWriteCommand_refused {command aknl : UInt8} {tr : List PortEvent} {o : Int}
    (hr : (mouseWriteCommand command aknl).Runs tr o)
    (hno : aknl = mouseResAck ∨ ¬ CommandAccepted command tr) :
    Prog.TraceObeys (PollRule .mouse) none tr := by
  rw [mouseWriteCommand_eq] at hr
  by_cases hack : aknl = mouseResAck
  · rw [if_pos hack] at hr
    obtain ⟨rfl, -⟩ := Prog.runs_ret.mp hr
    trivial
  · rw [if_neg hack] at hr
    have hno := hno.resolve_left hack
    obtain ⟨tr₁, c₁, rest, rfl, hrun₁, htail⟩ := Prog.runs_bind.mp hr
    have hobey₁ := (polls_kbcWrite .mouse _ _ none).traceObeys hrun₁
    by_cases hc₁ : c₁ ≠ 0
    · rw [if_pos hc₁] at htail
      obtain ⟨rfl, -⟩ := Prog.runs_ret.mp htail
      simpa using hobey₁
    · rw [if_neg hc₁] at htail
      obtain ⟨tr₂, c₂, rest', rfl, hrun₂, hread⟩ := Prog.runs_bind.mp htail
      have hobey₂ := (polls_kbcWrite .mouse _ _ (tr₁.getLast?.or none)).traceObeys hrun₂
      by_cases hc₂ : c₂ ≠ 0
      · rw [if_pos hc₂] at hread
        obtain ⟨rfl, -⟩ := Prog.runs_ret.mp hread
        rw [List.append_nil]
        exact Prog.traceObeys_append.mpr ⟨hobey₁, hobey₂⟩
      · -- both writes went through, which is what was excluded
        rw [not_not] at hc₁ hc₂
        subst hc₁
        subst hc₂
        exact absurd ⟨tr₁, tr₂, rest', by simp, runs_kbcWrite_zero_iff.mp hrun₁,
          runs_kbcWrite_zero_iff.mp hrun₂⟩ hno

/-! ## The discipline, decided -/

/-- The program follows the rule; `mouse_write_command` only as long as it is refused. -/
theorem Performed.traceObeys {p : Performed}
    (h : ∀ command aknl, p.call = .writeCommand command aknl →
      aknl = mouseResAck ∨ ¬ CommandAccepted command p.trace) :
    Prog.TraceObeys (PollRule p.call.device) none p.trace := by
  obtain ⟨call, tr, hr⟩ := p
  cases call with
  | readOutbuff data mouse =>
    obtain ⟨o, hr⟩ := hr
    exact (polls_kbcReadOutbuff data mouse none).traceObeys hr
  | readScancode scancode =>
    obtain ⟨o, hr⟩ := hr
    exact (polls_keyboardReadScancode scancode none).traceObeys hr
  | kbcIh g =>
    obtain ⟨o, hr⟩ := hr
    exact (polls_kbcIh g none).traceObeys hr
  | enableInterrupts command =>
    obtain ⟨o, hr⟩ := hr
    exact (polls_keyboardEnableInterrupts command none).traceObeys hr
  | readPacket d =>
    obtain ⟨o, hr⟩ := hr
    exact (polls_mouseReadPacket d none).traceObeys hr
  | readResponse response =>
    obtain ⟨o, hr⟩ := hr
    exact (polls_mouseReadResponse response none).traceObeys hr
  | writeCommand command aknl =>
    obtain ⟨o, hr⟩ := hr
    exact mouseWriteCommand_refused hr (h command aknl rfl)

/-- A trace that follows the rule is disciplined: the poll before the read is what an honest
    controller is honest about. -/
theorem Performed.Disciplined.of_traceObeys {p : Performed}
    (h : Prog.TraceObeys (PollRule p.call.device) none p.trace) : p.Disciplined where
  polled := by
    intro pre e post htr he
    rw [htr] at h
    simpa using h.allowed he
  own := by
    intro origin hhonest pre e post htr hbyte
    have he : e.1 = .inb kbcRegOutBuf := by
      by_contra hne
      simp [PortEvent.dataByte?, hne] at hbyte
    have hallow := h
    rw [htr] at hallow
    obtain ⟨st, hlast, status, hpoll, hobf, haux⟩ := hallow.allowed he
    obtain ⟨pre, rfl⟩ : ∃ l, pre = l ++ [st] := by
      rw [Option.or_none] at hlast
      exact List.getLast?_eq_some_iff.mp hlast
    have hown := hhonest pre st e post status (by rw [htr]; simp) hpoll hobf he
    rw [haux] at hown
    rw [List.length_append, List.length_singleton]
    cases ho : origin (pre.length + 1) <;> cases hd : p.call.device <;>
      simp_all [Device.aux]

/-- **A call keeps the discipline exactly when it does not run into the bare read of
    `mouse_write_command`**, that is, unless it is such a call, its uninitialised `aknl` is not
    by chance `0xFA`, and the controller accepts both bytes of its first attempt. -/
theorem performed_disciplined_iff (p : Performed) :
    p.Disciplined ↔ ∀ command aknl, p.call = .writeCommand command aknl →
      aknl = mouseResAck ∨ ¬ CommandAccepted command p.trace := by
  constructor
  · intro hd command aknl hcall
    by_contra hno
    rw [not_or, not_not] at hno
    have hr := p.leaves
    rw [hcall] at hr
    obtain ⟨o, hr⟩ := hr
    obtain ⟨pre, r, post, e, htr, hlast, hq⟩ := mouseWriteCommand_reads hr hno.1 hno.2
    -- the access before the read would have to be a poll, and it is a write
    obtain ⟨st, hst, status, hpoll, -, -⟩ := hd.polled pre _ post htr rfl
    rw [hlast, Option.some.injEq] at hst
    subst hst
    exact absurd (hq.symm.trans hpoll.1) (by simp)
  · intro h
    exact .of_traceObeys (Performed.traceObeys h)

/-- The discipline over a whole run of driver calls, in any order and against any controller. -/
theorem outputBuffer_disciplined_iff (run : List Performed) :
    (∀ p ∈ run, p.Disciplined) ↔
      ∀ p ∈ run, ∀ command aknl, p.call = .writeCommand command aknl →
        aknl = mouseResAck ∨ ¬ CommandAccepted command p.trace := by
  constructor
  · intro h p hp
    exact (performed_disciplined_iff p).mp (h p hp)
  · intro h p hp
    exact (performed_disciplined_iff p).mpr (h p hp)

/-- `mouse_enable_data` while a key is pressed: the first byte the bare read takes is the make
    code `0x1E` of the keyboard, the second is the mouse's acknowledgement. -/
def lostKeystroke : Performed where
  call := .writeCommand mouseCommEnableDataReporting 0
  trace :=
    [(.inb kbcRegStat, ⟨false, 0x04⟩), (.outb kbcRegCommand 0xD4, ⟨false, 0⟩),
     (.inb kbcRegStat, ⟨false, 0x04⟩), (.outb kbcRegInBuf 0xF4, ⟨false, 0⟩),
     (.inb kbcRegOutBuf, ⟨false, 0x1E⟩),
     (.inb kbcRegStat, ⟨false, 0x04⟩), (.outb kbcRegCommand 0xD4, ⟨false, 0⟩),
     (.inb kbcRegStat, ⟨false, 0x04⟩), (.outb kbcRegInBuf 0xF4, ⟨false, 0⟩),
     (.inb kbcRegOutBuf, ⟨false, 0xFA⟩)]
  leaves := ⟨0, by decide +kernel⟩

/-- The keystroke is consumed by a mouse operation, without a poll in front of it. -/
theorem not_all_disciplined : ¬ ∀ run : List Performed, ∀ p ∈ run, p.Disciplined := by
  intro h
  have hd := h [lostKeystroke] lostKeystroke List.mem_cons_self
  obtain ⟨st, hst, status, hpoll, -, -⟩ :=
    hd.polled (lostKeystroke.trace.take 4) (.inb kbcRegOutBuf, ⟨false, 0x1E⟩)
      (lostKeystroke.trace.drop 5) (by decide) rfl
  have hlast : st = (.outb kbcRegInBuf 0xF4, ⟨false, 0⟩) := by
    simpa [lostKeystroke] using hst.symm
  subst hlast
  exact absurd hpoll.1 (by decide)

end Lcom
