import Lcom.Lib.Run
import Lcom.Proof.Drivers.System

/-!
# Loops over messages

A trace of a program that waits for messages is cut into the messages and the port accesses that
follow each of them. A loop that does nothing else is then a run, one step for each message
(`receiveLoop_run`).
-/

namespace Lcom

open Lib

/-! ## A trace, message by message -/

/-- What `driver_receive` gave back, and the port accesses that followed. -/
structure ScanEvent where
  received : SysReply
  ports : List PortEvent
  deriving DecidableEq, Repr

/-- A message from the hardware came in, with the bit of the driver set. -/
def SysReply.carries (r : SysReply) (hook : Hook) : Bool :=
  !r.failed && (r.msg.notify && r.msg.hardware) && r.msg.raises hook

def IsReceive (e : SysEvent) : Prop := e.1 = .driverReceive

instance (e : SysEvent) : Decidable (IsReceive e) := inferInstanceAs (Decidable (_ = _))

/-- The port accesses with which a trace begins. -/
def leadingPorts (tr : List SysEvent) : List PortEvent :=
  (tr.takeWhile fun e => (portOf e).isSome).filterMap portOf

/-- The messages of a trace, each with the port accesses directly after it. -/
def messages : List SysEvent → List ScanEvent
  | [] => []
  | e :: tr => if IsReceive e then ⟨e.2, leadingPorts tr⟩ :: messages tr else messages tr

theorem messages_append {tr : List SysEvent} (h : ∀ e ∈ tr, ¬ IsReceive e) (rest : List SysEvent) :
    messages (tr ++ rest) = messages rest := by
  induction tr with
  | nil => rfl
  | cons e tr ih =>
    obtain ⟨he, htr⟩ := List.forall_mem_cons.mp h
    rw [List.cons_append, messages, if_neg he]
    exact ih htr

theorem messages_eq_nil {tr : List SysEvent} (h : ∀ e ∈ tr, ¬ IsReceive e) : messages tr = [] := by
  have hnone := messages_append h []
  rwa [List.append_nil] at hnone

theorem leadingPorts_cons {e : SysEvent} (he : portOf e = none) (tr : List SysEvent) :
    leadingPorts (e :: tr) = [] := by
  unfold leadingPorts
  rw [List.takeWhile_cons_of_neg (by simp [he])]
  rfl

/-- A driver leaves nothing but port accesses. -/
theorem isSome_portOf_of_driver {α : Type} {p : Driver α} {tr : List SysEvent} {a : α}
    (h : (Driver.sys p).Runs tr a) : ∀ e ∈ tr, (portOf e).isSome = true := by
  intro e he
  obtain ⟨op, hop⟩ := (asks_driver (P := fun call => ∃ op, call = .port op)
    (fun op => ⟨op, rfl⟩) p).trace h e he
  obtain ⟨call, r⟩ := e
  cases hop
  rfl

theorem leadingPorts_append {ports : List SysEvent} (h : ∀ e ∈ ports, (portOf e).isSome = true)
    (rest : List SysEvent) :
    leadingPorts (ports ++ rest) = ports.filterMap portOf ++ leadingPorts rest := by
  unfold leadingPorts
  rw [List.takeWhile_append_of_pos h, List.filterMap_append]

/-- Whether an exchange delivers a tick of the timer. -/
def SysEvent.ticks (e : SysEvent) : Bool :=
  e.1 = .driverReceive && !e.2.failed && e.2.msg.notify && e.2.msg.hardware && e.2.msg.raises .timer

/-- The ticks that some messages deliver. -/
def ticks (es : List ScanEvent) : Nat := es.countP fun e => e.received.carries .timer

theorem ticks_append (es : List ScanEvent) (e : ScanEvent) :
    ticks (es ++ [e]) = ticks es + if e.received.carries .timer then 1 else 0 := by
  unfold ticks
  rw [List.countP_append, List.countP_singleton]

theorem countP_ticks (tr : List SysEvent) :
    tr.countP SysEvent.ticks = ticks (messages tr) := by
  unfold ticks
  induction tr with
  | nil => rfl
  | cons e tr ih =>
    rw [messages, List.countP_cons, ih]
    by_cases he : IsReceive e
    · have hcall : e.1 = .driverReceive := he
      rw [if_pos he, List.countP_cons]
      simp [SysEvent.ticks, SysReply.carries, hcall, Bool.and_assoc]
    · have hcall : ¬ e.1 = .driverReceive := he
      rw [if_neg he]
      simp [SysEvent.ticks, hcall]

/-! ## Calls around the loop -/

/-- A call that is neither a port access nor waits for a message. -/
def Quiet (call : SysCall) : Prop := call ≠ .driverReceive ∧ ∀ op, call ≠ .port op

theorem portOf_of_quiet {e : SysEvent} (h : Quiet e.1) : portOf e = none := by
  obtain ⟨call, r⟩ := e
  cases call with
  | port op => exact absurd rfl (h.2 op)
  | _ => rfl

/-- Such calls leave no trace in the messages and in the ports. -/
theorem messages_quiet {tr : List SysEvent} (h : ∀ e ∈ tr, Quiet e.1) (rest : List SysEvent) :
    messages (tr ++ rest) = messages rest ∧
      (tr ++ rest).filterMap portOf = rest.filterMap portOf := by
  refine ⟨messages_append (fun e he => (h e he).1) rest, ?_⟩
  rw [List.filterMap_append, List.filterMap_eq_nil_iff.mpr fun e he => portOf_of_quiet (h e he),
    List.nil_append]

theorem messages_of_quiet {tr : List SysEvent} (h : ∀ e ∈ tr, Quiet e.1) :
    messages tr = [] ∧ tr.filterMap portOf = [] := by
  have hnone := messages_quiet h []
  rwa [List.append_nil] at hnone

theorem leadingPorts_of_quiet {tr : List SysEvent} (h : ∀ e ∈ tr, Quiet e.1) :
    leadingPorts tr = [] := by
  cases tr with
  | nil => rfl
  | cons e tr => exact leadingPorts_cons (portOf_of_quiet (h e List.mem_cons_self)) tr

/-! ## The loop -/

section
variable {σ : Type} {looping : σ → Bool} {iterate : σ → SysReply → Driver σ}

/-- One round of the loop. -/
def receiveStep (looping : σ → Bool) (iterate : σ → SysReply → Driver σ) (s : σ) (e : ScanEvent) :
    Option σ :=
  if looping s then (iterate s e.received).exec e.ports else none

/-- The loop is a run over its messages. What comes after it must not begin with a port access, since
    that would be taken for one of the last message. -/
theorem receiveLoop_run {fuel : Nat} {s s' : σ} {tr rest : List SysEvent} {ended : Bool}
    (h : (receiveLoop looping iterate fuel s).Runs tr (ended, s')) (hrest : messages rest = [])
    (hhead : leadingPorts rest = []) :
    ended = !looping s' ∧ run (receiveStep looping iterate) s (messages (tr ++ rest)) = some s' ∧
      (messages (tr ++ rest)).flatMap ScanEvent.ports = tr.filterMap portOf ∧
      leadingPorts (tr ++ rest) = [] := by
  induction fuel generalizing s tr with
  | zero =>
    obtain ⟨rfl, rfl, rfl⟩ := Prog.runs_ret_prod.mp h
    rw [List.nil_append, hrest]
    exact ⟨rfl, rfl, rfl, hhead⟩
  | succ fuel ih =>
    rw [receiveLoop] at h
    split at h
    · rename_i hlooping
      rw [Prog.query_bind, Prog.runs_ask] at h
      obtain ⟨r, tr, rfl, hbody⟩ := h
      obtain ⟨ports, s₁, tail, rfl, hround, hloop⟩ := Prog.runs_bind.mp hbody
      obtain ⟨hended, hrun, hall, hlead⟩ := ih hloop
      have hcut : messages ((SysCall.driverReceive, r) :: (ports ++ tail) ++ rest) =
          ⟨r, ports.filterMap portOf⟩ :: messages (tail ++ rest) := by
        have hreceive : IsReceive (SysCall.driverReceive, r) := rfl
        rw [List.cons_append, List.append_assoc, messages, if_pos hreceive,
          leadingPorts_append (isSome_portOf_of_driver hround), hlead, List.append_nil,
          messages_append (driver_ports hround)]
      rw [hcut]
      refine ⟨hended, run_cons_eq_some.mpr ⟨s₁, ?_, hrun⟩, ?_, leadingPorts_cons rfl _⟩
      · rw [receiveStep, if_pos hlooping]
        exact runs_driver hround
      · rw [List.flatMap_cons, hall, List.filterMap_cons_none rfl, List.filterMap_append]
    · rename_i hlooping
      obtain ⟨rfl, rfl, rfl⟩ := Prog.runs_ret_prod.mp h
      rw [List.nil_append, hrest]
      exact ⟨by simp [hlooping], rfl, rfl, hhead⟩

/-- The loop, and calls after it that neither wait nor touch a port. -/
theorem receiveLoop_bind_run {α : Type} {after : Bool × σ → Sys α} {fuel : Nat} {s : σ}
    {tr : List SysEvent} {a : α} (hafter : ∀ o, (after o).Asks Quiet)
    (h : (receiveLoop looping iterate fuel s >>= after).Runs tr a) :
    ∃ s' loop rest, tr = loop ++ rest ∧
      run (receiveStep looping iterate) s (messages tr) = some s' ∧
      (messages tr).flatMap ScanEvent.ports = tr.filterMap portOf ∧
      (after (!looping s', s')).Runs rest a := by
  obtain ⟨loop, ⟨ended, s'⟩, rest, rfl, hloop, hrest⟩ := Prog.runs_bind.mp h
  have hquiet := (hafter _).trace hrest
  obtain ⟨rfl, hrun, hports, -⟩ := receiveLoop_run hloop (messages_of_quiet hquiet).1
    (leadingPorts_of_quiet hquiet)
  refine ⟨s', loop, rest, rfl, hrun, ?_, hrest⟩
  rw [hports, List.filterMap_append, (messages_of_quiet hquiet).2, List.append_nil]

end

end Lcom
