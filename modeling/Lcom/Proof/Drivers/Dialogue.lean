import Lcom.Drivers.Keyboard
import Lcom.Drivers.Mouse
import Lcom.Lab5.Move
import Lcom.Lib.Monitor
import Lcom.Proof.Drivers.Receive

/-!
# The dialogue with the keyboard controller

The controller has two ports, and its protocol is an order on their accesses. `Dialogue.port` follows
it: nothing is sent before the status register, read last, has shown a free input buffer; the data port
takes a byte only as the argument of a command that has one, and the argument follows before the next
command; the data port is read only when the status register, read last, has shown a byte, or for the
mouse's answer to the byte that was sent to it last, if no command has followed
(`mouse_write_command` does not poll for that).

It also keeps whether the mouse reports, which the mouse acknowledges: a program that waits for its
packets must have been told so.
-/

namespace Lcom

open Lib

/-- What the accesses so far say about the controller and the mouse. -/
structure Dialogue where
  /-- The status register, when it was read last. -/
  status : Option UInt8
  /-- The command that waits for its argument. -/
  argument : Option UInt8
  /-- The byte sent to the mouse that has not been answered. -/
  due : Option UInt8
  reporting : Bool
  deriving DecidableEq

namespace Dialogue

def start : Dialogue := ⟨none, none, none, false⟩

def mayWrite (m : Dialogue) : Bool := m.status.any fun status => !anyBit status kbcStatIbf

def mayRead (m : Dialogue) : Bool :=
  (m.status.any fun status => anyBit status kbcStatObf) || m.due.isSome

/-- The commands that take an argument. -/
def takesArgument (command : UInt8) : Bool :=
  command = kbcCommWriteMouseCommByte || command = kbcCommWriteByte

/-- Whether the mouse reports once it has answered. -/
def answered (m : Dialogue) (answer : UInt8) : Bool :=
  if answer = mouseResAck then
    if m.due = some mouseCommEnableDataReporting then true
    else if m.due = some mouseCommDisableDataReporting then false
    else m.reporting
  else m.reporting

/-- One access, if the protocol has it. -/
def port (m : Dialogue) : PortEvent → Option Dialogue
  | (.inb p, r) =>
    if p = kbcRegStat then
      some { m with status := if r.failed then none else some r.val.toUInt8 }
    else if p = kbcRegOutBuf ∧ m.mayRead then
      some { m with
        status := none
        due := none
        reporting := if r.failed then m.reporting else m.answered r.val.toUInt8 }
    else none
  | (.outb p value, r) =>
    if ¬ m.mayWrite then none
    else if p = kbcRegCommand ∧ m.argument = none then
      some { m with
        status := none
        argument := if !r.failed && takesArgument value then some value else none
        due := none }
    else if p = kbcRegInBuf ∧ m.argument ≠ none then
      some (if r.failed then { m with status := none }
        else { m with
          status := none
          argument := none
          due := if m.argument = some kbcCommWriteMouseCommByte then some value else none })
    else none

/-- An exchange of the program. Messages are waited for between commands, and only while the mouse
    reports exactly if the loop `needs` its packets. -/
def step (needs : Bool) (m : Dialogue) : SysEvent → Option Dialogue
  | (.port op, r) => m.port (op, ⟨r.failed, r.val⟩)
  | (.driverReceive, _) =>
    if m.argument = none ∧ m.due = none ∧ m.reporting = needs then some { m with status := none }
    else none
  | _ => some { m with status := none }

/-- No command waits for its argument and no byte for its answer. -/
structure Idle (reporting : Bool) (m : Dialogue) : Prop where
  argument : m.argument = none
  due : m.due = none
  reporting : m.reporting = reporting

variable {reporting : Bool} {m : Dialogue}

theorem idle_start : start.Idle false := ⟨rfl, rfl, rfl⟩

theorem Idle.withStatus (h : m.Idle reporting) (status : Option UInt8) :
    Idle reporting { m with status } := ⟨h.argument, h.due, h.reporting⟩

/-! ## Accesses -/

/-- What a byte from the data port leaves of an idle dialogue. -/
theorem Idle.port_read (h : m.Idle reporting) {status : UInt8} (hobf : anyBit status kbcStatObf)
    (r : Reply) :
    ∃ m', port { m with status := some status } (.inb kbcRegOutBuf, r) = some m' ∧
      m'.Idle reporting := by
  refine ⟨{ m with status := none, due := none }, ?_, h.argument, rfl, h.reporting⟩
  have hanswered : answered { m with status := some status } r.val.toUInt8 = m.reporting := by
    unfold answered
    dsimp only
    rw [h.due]
    simp
  unfold port
  dsimp only
  rw [if_neg (by decide), if_pos ⟨rfl, by simp [mayRead, hobf]⟩, hanswered, ite_self]

/-! ## The drivers -/

section
variable {α β : Type} {post : Dialogue → α → Prop}

/-- The rule for a poll. -/
theorem within_kbcReadStatus {f : Option UInt8 → Driver α}
    (hf : ∀ status, (f status).Within port post { m with status }) :
    (kbcReadStatus >>= f).Within port post m := by
  intro r
  refine ⟨{ m with status := if r.failed then none else some r.val.toUInt8 }, rfl, ?_⟩
  change Prog.Within _ _ _ ((if r.failed then Prog.ret none else Prog.ret (some r.val.toUInt8)) >>= f)
  cases r.failed with
  | false => exact hf (some r.val.toUInt8)
  | true => exact hf none

/-- The rule for a byte that the status register has shown. -/
theorem within_readByte {f : Option UInt8 → Driver α} {status : UInt8} (h : m.Idle reporting)
    (hobf : anyBit status kbcStatObf)
    (hf : ∀ byte m', m'.Idle reporting → (f byte).Within port post m') :
    (utilSysInb kbcRegOutBuf >>= f).Within port post { m with status := some status } := by
  intro r
  obtain ⟨m', hnext, hidle⟩ := h.port_read hobf r
  refine ⟨m', hnext, ?_⟩
  change Prog.Within _ _ _ ((if r.failed then Prog.ret none else Prog.ret (some r.val.toUInt8)) >>= f)
  cases r.failed with
  | false => exact hf (some r.val.toUInt8) m' hidle
  | true => exact hf none m' hidle

/-- A driver that only listens: it leaves an idle dialogue idle, and the mouse as it was. -/
def Listens (p : Driver α) : Prop :=
  ∀ reporting m, m.Idle reporting → p.Within port (fun m' _ => m'.Idle reporting) m

theorem listens_pure (a : α) : Listens (pure a) := fun _ _ h => h

theorem Listens.bind {p : Driver β} {f : β → Driver α} (hp : Listens p) (hf : ∀ b, Listens (f b)) :
    Listens (p >>= f) := fun reporting m h => (hp reporting m h).bind fun m' b h' => hf b reporting m' h'

theorem listens_kbcReadOutbuffLoop (mouse : Bool) (attempts : Nat) (data : UInt8) :
    Listens (kbcReadOutbuffLoop mouse attempts data) := by
  induction attempts generalizing data with
  | zero => exact listens_pure _
  | succ attempts ih =>
    intro reporting m h
    unfold kbcReadOutbuffLoop
    refine within_kbcReadStatus fun status => ?_
    have hagain : ∀ data, (kbcReadOutbuffLoop mouse attempts data).Within port
        (fun m' _ => m'.Idle reporting) { m with status } :=
      fun data => ih data reporting _ (h.withStatus status)
    cases status with
    | none => exact hagain data
    | some status =>
      dsimp only
      split
      · exact hagain data
      · split
        · exact hagain data
        · split
          · next hobf =>
            refine within_readByte h hobf fun byte m' h' => ?_
            cases byte with
            | none => exact ih data reporting m' h'
            | some byte =>
              dsimp only
              split
              · exact h'
              · exact h'
          · exact hagain data

theorem listens_kbcReadOutbuff (data : UInt8) (mouse : Bool) : Listens (kbcReadOutbuff data mouse) :=
  listens_kbcReadOutbuffLoop mouse 8 data

theorem listens_keyboardReadScancode (scancode : UInt8) : Listens (keyboardReadScancode scancode) := by
  intro reporting m h
  unfold keyboardReadScancode
  refine within_kbcReadStatus fun status => ?_
  have hidle := h.withStatus status
  cases status with
  | none => exact hidle
  | some status =>
    dsimp only
    split
    · exact hidle
    · split
      · exact hidle
      · refine (listens_kbcReadOutbuff scancode false reporting _ hidle).bind fun m' o h' => ?_
        split
        · exact h'
        · exact h'

theorem listens_kbcIh (g : KbdGlobals) : Listens (kbcIh g) := by
  intro reporting m h
  unfold kbcIh
  refine within_kbcReadStatus fun status => ?_
  have hidle := h.withStatus status
  cases status with
  | none => exact hidle
  | some status =>
    dsimp only
    split
    · exact hidle
    · split
      · exact hidle
      · refine (listens_kbcReadOutbuff g.scan_code false reporting _ hidle).bind fun m' o h' => ?_
        split
        · exact h'
        · exact h'

theorem listens_mouseReadPacket (d : MouseDriver) : Listens (mouseReadPacket d) := by
  refine (listens_kbcReadOutbuff d.current_byte true).bind fun o => ?_
  dsimp only
  split
  · exact listens_pure _
  · exact listens_pure _

/-! ## Commands -/

/-- `kbc_write` of a byte that the protocol has next. -/
theorem within_kbcWrite {p : UInt16} {value : UInt8} {m₁ : Dialogue}
    (hwrite : ∀ status r, anyBit status kbcStatIbf = false →
      ∃ m', port { m with status := some status } (.outb p value, r) = some m' ∧
        (r.failed = false → m' = m₁)) :
    (kbcWrite p value).Within port (fun m' r => r = 0 → m' = m₁) m := by
  have hloop : ∀ cnt status, (kbcWriteLoop p value cnt).Within port (fun m' r => r = 0 → m' = m₁)
      { m with status } := by
    intro cnt
    induction cnt with
    | zero => exact fun status h => absurd h one_ne_zero
    | succ cnt ih =>
      intro status
      unfold kbcWriteLoop
      refine within_kbcReadStatus fun status => ?_
      cases status with
      | none => exact fun h => absurd h one_ne_zero
      | some status =>
        dsimp only
        split
        · exact ih (some status)
        · next hfree =>
          intro r
          obtain ⟨m', hnext, hok⟩ := hwrite status r (Bool.eq_false_iff.mpr hfree)
          refine ⟨m', hnext, ?_⟩
          change Prog.Within _ _ _ (if r.failed then Prog.ret 1 else Prog.ret 0)
          split
          · exact fun h => absurd h one_ne_zero
          · next hdone => exact fun _ => hok (Bool.eq_false_iff.mpr hdone)
  exact hloop maxAttempts m.status

/-- A command for the controller. -/
theorem within_command {command : UInt8} (h : m.argument = none) :
    (kbcWrite kbcRegCommand command).Within port (fun m' r => r = 0 →
      m' = { m with
        status := none
        argument := if takesArgument command then some command else none
        due := none }) m := by
  refine within_kbcWrite fun status r hfree => ?_
  refine ⟨{ m with
    status := none
    argument := if !r.failed && takesArgument command then some command else none
    due := none }, ?_, ?_⟩
  · unfold port
    dsimp only
    rw [if_neg (by simp [mayWrite, hfree]), if_pos ⟨rfl, h⟩]
  · intro hdone
    rw [hdone, Bool.not_false, Bool.true_and]

/-- Its argument. -/
theorem within_argument {value : UInt8} (h : m.argument ≠ none) :
    (kbcWrite kbcRegInBuf value).Within port (fun m' r => r = 0 →
      m' = { m with
        status := none
        argument := none
        due := if m.argument = some kbcCommWriteMouseCommByte then some value else none }) m := by
  refine within_kbcWrite fun status r hfree => ?_
  refine ⟨_, by
    unfold port
    dsimp only
    rw [if_neg (by simp [mayWrite, hfree]), if_neg (fun hboth => h hboth.2), if_pos ⟨rfl, h⟩], ?_⟩
  intro hdone
  rw [if_neg (by simp [hdone])]

end

/-- Whether the mouse reports once it has acknowledged a command. -/
def reportingAfter (command : UInt8) (reporting : Bool) : Bool :=
  answered { start with due := some command, reporting } mouseResAck

/-- What the answer to a command leaves. -/
theorem Idle.port_answer (h : m.Idle reporting) (command : UInt8) (r : Reply) :
    ∃ m', port { m with status := none, due := some command } (.inb kbcRegOutBuf, r) = some m' ∧
      (r.failed = false → m'.Idle (if r.val.toUInt8 = mouseResAck then reportingAfter command reporting
        else reporting)) := by
  refine ⟨{ m with
    status := none
    due := none
    reporting := if r.failed then m.reporting
      else answered { m with status := none, due := some command } r.val.toUInt8 }, ?_, ?_⟩
  · unfold port
    dsimp only
    rw [if_neg (by decide), if_pos ⟨rfl, rfl⟩]
  · intro hread
    refine ⟨h.argument, rfl, ?_⟩
    dsimp only
    rw [if_neg (by simp [hread])]
    unfold reportingAfter answered
    dsimp only
    split
    · rw [if_pos rfl, h.reporting]
    · exact h.reporting

/-- `mouse_write_command`: each attempt is a whole command, and the last one is acknowledged. -/
theorem within_mouseWriteCommand (command aknl : UInt8) (h : m.Idle reporting) :
    (mouseWriteCommand command aknl).Within port
      (fun m' r => r = 0 → m'.Idle (reportingAfter command reporting)) m := by
  unfold mouseWriteCommand
  generalize maxAttempts = cnt
  induction cnt generalizing m aknl with
  | zero => exact fun h => absurd h one_ne_zero
  | succ cnt ih =>
    unfold mouseWriteCommandLoop
    split
    · exact fun h => absurd h one_ne_zero
    · refine (within_command h.argument).bind fun m₁ r hcommand => ?_
      split
      · exact fun h => absurd h one_ne_zero
      · next hr =>
        rw [hcommand (not_not.mp hr)]
        refine (within_argument (by simp [takesArgument])).bind fun m₂ r hargument => ?_
        split
        · exact fun h => absurd h one_ne_zero
        · next hr =>
          rw [hargument (not_not.mp hr)]
          intro r
          have hrestored : { m with status := none, argument := none, due := some command } =
              { m with status := none, due := some command } := by rw [h.argument]
          obtain ⟨m', hnext, hanswer⟩ := h.port_answer command r
          refine ⟨m', hrestored ▸ hnext, ?_⟩
          change Prog.Within _ _ _ ((if r.failed then Prog.ret none
            else Prog.ret (some r.val.toUInt8)) >>= _)
          split
          · exact fun h => absurd h one_ne_zero
          · next hread =>
            have hidle := hanswer (Bool.eq_false_iff.mpr hread)
            change Prog.Within _ _ _ (if r.val.toUInt8 = mouseResAck then Prog.ret 0 else _)
            split
            · next hack =>
              rw [if_pos hack] at hidle
              exact fun _ => hidle
            · next hother =>
              rw [if_neg hother] at hidle
              exact ih _ hidle

theorem within_mouseEnableData (aknl : UInt8) (h : m.Idle reporting) :
    (mouseEnableData aknl).Within port (fun m' r => r = 0 → m'.Idle true) m := by
  refine (within_mouseWriteCommand mouseCommEnableDataReporting aknl h).bind fun m' r hr => ?_
  split
  · exact fun h => absurd h one_ne_zero
  · next hzero => exact fun _ => hr (not_not.mp hzero)

theorem within_mouseDisableData (aknl : UInt8) (h : m.Idle reporting) :
    (mouseDisableData aknl).Within port (fun m' r => r = 0 → m'.Idle false) m := by
  refine (within_mouseWriteCommand mouseCommDisableDataReporting aknl h).bind fun m' r hr => ?_
  split
  · exact fun h => absurd h one_ne_zero
  · next hzero => exact fun _ => hr (not_not.mp hzero)

/-- `keyboard_enable_interrupts`. -/
theorem within_keyboardEnableInterrupts (command : UInt8) (h : m.Idle reporting) :
    (keyboardEnableInterrupts command).Within port (fun m' r => r = 0 → m'.Idle reporting) m := by
  have hplain : ∀ {command : UInt8} {m : Dialogue} {α : Type} {post : Dialogue → α → Prop} {bad : α}
      {rest : Driver α}, m.Idle reporting → takesArgument command = false → (∀ m, post m bad) →
      (∀ m, m.Idle reporting → rest.Within port post m) →
      (kbcWrite kbcRegCommand command >>= fun r => if r ≠ 0 then Prog.ret bad else rest).Within port
        post m := by
    intro command m α post bad rest h hnone hbad hrest
    refine (within_command h.argument).bind fun m' r hm' => ?_
    split
    · exact hbad m'
    · next hr =>
      rw [hm' (not_not.mp hr), hnone]
      exact hrest _ ⟨rfl, rfl, h.reporting⟩
  have hbad : ∀ m' : Dialogue, (1 : Int) = 0 → m'.Idle reporting := fun _ h => absurd h one_ne_zero
  unfold keyboardEnableInterrupts
  refine hplain h rfl hbad fun m h => hplain h rfl hbad fun m h => ?_
  refine (listens_kbcReadOutbuff command false reporting m h).bind fun m o h => ?_
  dsimp only
  split
  · exact hbad m
  · refine (within_command h.argument).bind fun m₁ r hcommand => ?_
    split
    · exact hbad m₁
    · next hr =>
      rw [hcommand (not_not.mp hr)]
      refine (within_argument (by simp [takesArgument])).bind fun m₂ r hargument => ?_
      split
      · exact hbad m₂
      · next hr =>
        rw [hargument (not_not.mp hr)]
        exact hplain ⟨rfl, rfl, h.reporting⟩ rfl hbad fun m h _ => h

/-! ## Programs -/

section
variable {α β : Type} {needs reporting' : Bool} {post : Dialogue → α → Prop}

/-- The program, started while the dialogue is idle, keeps the protocol. -/
def Speaks (needs reporting : Bool) (post : Dialogue → α → Prop) (p : Sys α) : Prop :=
  ∀ m, m.Idle reporting → p.Within (step needs) post m

theorem Speaks.bind {p : Sys β} {f : β → Sys α}
    (hp : Speaks needs reporting (fun m _ => m.Idle reporting') p)
    (hf : ∀ b, Speaks needs reporting' post (f b)) : Speaks needs reporting post (p >>= f) :=
  fun m h => (hp m h).bind fun m' b h' => hf b m' h'

theorem within_sys {p : Driver α} (hp : p.Within port post m) :
    (Driver.sys p).Within (step needs) post m := hp.translate fun _ _ _ => rfl

theorem speaks_listens {p : Driver α} (hp : Listens p) :
    Speaks needs reporting (fun m _ => m.Idle reporting) (Driver.sys p) :=
  fun m h => within_sys (hp reporting m h)

/-- Calls that have nothing to do with the controller. -/
theorem speaks_quiet {p : Sys α} (hp : p.Asks Quiet) :
    Speaks needs reporting (fun m _ => m.Idle reporting) p := by
  refine fun m h => hp.keeps h fun m call r hcall h => ⟨{ m with status := none }, ?_, h.withStatus none⟩
  cases call with
  | port op => exact absurd rfl (hcall.2 op)
  | driverReceive => exact absurd rfl hcall.1
  | _ => rfl

/-- A call, given up when it fails. -/
theorem speaks_call {call : SysCall} {bad : α} {rest : Sys α} (hcall : Quiet call)
    (hbad : ∀ m, m.Idle reporting → post m bad) (hrest : Speaks needs reporting post rest) :
    Speaks needs reporting post
      (sysCode call >>= fun r => if r ≠ 0 then Prog.ret bad else rest) := by
  refine (speaks_quiet (asks_sysCode hcall)).bind fun r => ?_
  split
  · exact hbad
  · exact hrest

/-- A driver that speaks, given up when it fails. -/
theorem speaks_driver {p : Driver Int} {bad : α} {rest : Sys α}
    (hp : ∀ m, m.Idle reporting → p.Within port (fun m' r => r = 0 → m'.Idle reporting') m)
    (hbad : ∀ m, post m bad) (hrest : Speaks needs reporting' post rest) :
    Speaks needs reporting post
      (Driver.sys p >>= fun r => if r ≠ 0 then Prog.ret bad else rest) := by
  refine fun m h => (within_sys (hp m h)).bind fun m' r hr => ?_
  split
  · exact hbad m'
  · next hzero => exact hrest m' (hr (not_not.mp hzero))

/-- The loop over messages, when the mouse reports just as the loop needs. -/
theorem speaks_receiveLoop {σ : Type} {looping : σ → Bool} {iterate : σ → SysReply → Driver σ}
    (hiterate : ∀ s r, Listens (iterate s r)) (fuel : Nat) (s : σ) :
    Speaks needs needs (fun m _ => m.Idle needs) (receiveLoop looping iterate fuel s) := by
  induction fuel generalizing s with
  | zero => exact fun m h => h
  | succ fuel ih =>
    unfold receiveLoop
    split
    · intro m h r
      refine ⟨{ m with status := none }, if_pos ⟨h.argument, h.due, h.reporting⟩, ?_⟩
      exact (speaks_listens (hiterate s r)).bind ih _ (h.withStatus none)
    · exact fun m h => h

end

end Dialogue

/-- Every run of a program keeps the protocol of the controller, and when it returns 0 nothing is left
    half said and the mouse is silent; `ending` is how a result ends it. -/
def KeepsDialogue {α : Type} (needs : Bool) (ending : α → Lab5.Ending) (p : Sys α) : Prop :=
  ∀ tr a, p.Runs tr a → ∃ m, run (Dialogue.step needs) .start tr = some m ∧
    (ending a = .returned 0 → m.Idle false)

theorem keepsDialogue_of_speaks {α : Type} {needs : Bool} {ending : α → Lab5.Ending} {p : Sys α}
    (h : Dialogue.Speaks needs false (fun m a => ending a = .returned 0 → m.Idle false) p) :
    KeepsDialogue needs ending p := fun _ _ hrun => (h _ Dialogue.idle_start).runs hrun

end Lcom
