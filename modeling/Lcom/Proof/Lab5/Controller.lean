import Lcom.Lib.Cooldown
import Lcom.Proof.Drivers.KbcIh
import Lcom.Proof.Lab3.TimedScan
import Lcom.Proof.Lab5.Move

/-!
# The image under control

What the controller does between two messages is known from what has been received: a key counts as
pressed when its make code has come and its break code has not come since (`video_test_controller_keys`),
the image moves by ten pixels at most once in a cooldown (`video_test_controller_steps`), and the
screen shows it where it was at the last frame (`video_test_controller_screen`).

`kbd_ih_valid` is never set back. Before the first code that is read without an error the erroneous
ones are ignored, and after it they count like the others (`countedCodes`); a message without a code
makes the last one count again, which changes nothing.
-/

namespace Lcom
namespace Lab5

open Lib

/-! ## Keys -/

inductive ControlKey where
  | w
  | a
  | s
  | d
  | shift
  deriving DecidableEq, Repr

namespace ControlKey

def makecode : ControlKey → UInt8
  | .w => wMakecode
  | .a => aMakecode
  | .s => sMakecode
  | .d => dMakecode
  | .shift => shiftMakecode

def breakcode : ControlKey → UInt8
  | .w => wBreakcode
  | .a => aBreakcode
  | .s => sBreakcode
  | .d => dBreakcode
  | .shift => shiftBreakcode

/-- Of these codes, none after the last make code of the key is its break code. -/
def Held (key : ControlKey) (codes : List UInt8) : Prop :=
  ∃ before after, codes = before ++ key.makecode :: after ∧ key.breakcode ∉ after

theorem not_held_nil (key : ControlKey) : ¬ key.Held [] := by
  rintro ⟨before, after, h, -⟩
  simp at h

theorem held_concat (key : ControlKey) (codes : List UInt8) (code : UInt8) :
    key.Held (codes ++ [code]) ↔ code = key.makecode ∨ code ≠ key.breakcode ∧ key.Held codes := by
  constructor
  · rintro ⟨before, after, h, hafter⟩
    rcases List.eq_nil_or_concat after with rfl | ⟨after, last, rfl⟩
    · obtain ⟨-, hlast⟩ := List.append_inj' h rfl
      exact .inl (List.singleton_inj.mp hlast)
    · have hsplit : codes ++ [code] = (before ++ key.makecode :: after) ++ [last] := by
        rw [h]
        simp
      obtain ⟨rfl, hlast⟩ := List.append_inj' hsplit rfl
      obtain rfl := List.singleton_inj.mp hlast
      rw [List.concat_eq_append, List.mem_append, List.mem_singleton, not_or] at hafter
      exact .inr ⟨Ne.symm hafter.2, before, after, rfl, hafter.1⟩
  · rintro (rfl | ⟨hne, before, after, rfl, hafter⟩)
    · exact ⟨codes, [], rfl, List.not_mem_nil⟩
    · refine ⟨before, after ++ [code], by simp, ?_⟩
      rw [List.mem_append, List.mem_singleton, not_or]
      exact ⟨hafter, Ne.symm hne⟩

end ControlKey

namespace Controller

/-- What the controller has noted of a key. -/
def Down (c : Controller) : ControlKey → Prop
  | .w => c.w_key_state = .pressed
  | .a => c.a_key_state = .pressed
  | .s => c.s_key_state = .pressed
  | .d => c.d_key_state = .pressed
  | .shift => c.move_state = .running

theorem keyAfter_eq_pressed {code makecode breakcode : UInt8} {key : KeyState}
    (hne : makecode ≠ breakcode) :
    keyAfter code makecode breakcode key = .pressed ↔
      code = makecode ∨ code ≠ breakcode ∧ key = .pressed := by
  unfold keyAfter
  by_cases hmake : code = makecode
  · subst hmake
    simp [hne]
  · by_cases hbreak : code = breakcode
    · simp [hbreak, Ne.symm hne]
    · simp [hmake, hbreak]

/-- What a scan code changes of the keys. -/
theorem down_handleScancode (c : Controller) (key : ControlKey) :
    c.handleScancode.Down key ↔
      c.kbd.scan_code = key.makecode ∨ c.kbd.scan_code ≠ key.breakcode ∧ c.Down key := by
  cases key with
  | w => exact keyAfter_eq_pressed (by decide)
  | a => exact keyAfter_eq_pressed (by decide)
  | s => exact keyAfter_eq_pressed (by decide)
  | d => exact keyAfter_eq_pressed (by decide)
  | shift =>
    change (if c.kbd.scan_code = shiftBreakcode then MoveState.walking else
      if c.kbd.scan_code = shiftMakecode then .running else c.move_state) = .running ↔
      c.kbd.scan_code = shiftMakecode ∨ c.kbd.scan_code ≠ shiftBreakcode ∧ c.move_state = .running
    by_cases hmake : c.kbd.scan_code = shiftMakecode
    · simp [hmake, shiftMakecode, shiftBreakcode]
    · by_cases hbreak : c.kbd.scan_code = shiftBreakcode
      · simp [hbreak, shiftMakecode, shiftBreakcode]
      · simp [hmake, hbreak]

/-! ## One message -/

variable {img : XpmImage} {cooldown : Nat} {clocks_per_frame : UInt16} {c c' : Controller}
  {es : List ScanEvent} {e : ScanEvent}

/-- The part of the timer: a frame may be drawn, and the cooldown goes on. -/
def tick (img : XpmImage) (clocks_per_frame : UInt16) (c : Controller) : Controller :=
  { c with
    toMover := c.toMover.orFault (timerBranch img clocks_per_frame c.toMover)
    elapsed := if c.elapsed ≠ 0 then c.elapsed - 1 else c.elapsed }

/-- The part of the keyboard. -/
inductive Keyed (c : Controller) (ports : List PortEvent) (c' : Controller) : Prop where
  | idle (none : consumed ports = []) (same : c' = c)
  | again (none : consumed ports = []) (valid : c.kbd.kbd_ih_valid = true)
      (handled : c' = c.handleScancode)
  | ignored (byte : UInt8) (marked : markedReads false ports = [(byte, true)])
      (invalid : c.kbd.kbd_ih_valid = false)
      (stored : c' = { c with kbd := ⟨byte, false⟩ })
  | taken (byte : UInt8) (mark : Bool) (marked : markedReads false ports = [(byte, mark)])
      (counts : c.kbd.kbd_ih_valid = true ∨ mark = false)
      (handled : c' = handleScancode { c with kbd := ⟨byte, true⟩ })

theorem keyed_keyboardBranch {ports : List PortEvent} (h : c.keyboardBranch.Runs ports c') :
    (∀ e ∈ ports.head?, e.dataByte? = none) ∧ c.Keyed ports c' := by
  obtain ⟨kbd, hkbd, rfl⟩ := Prog.runs_bind_ret.mp h
  obtain ⟨⟨r, rest, hpoll⟩, houtcome⟩ := kbcIh_outcome hkbd
  refine ⟨fun e he => ?_, ?_⟩
  · rw [hpoll] at he
    cases he
    exact dataByte?_poll r
  rcases houtcome with ⟨rfl, hnone⟩ | ⟨status, byte, hfirst, hone, hflags⟩
  · cases hvalid : c.kbd.kbd_ih_valid with
    | true => exact .again hnone hvalid rfl
    | false => exact .idle hnone rfl
  · have hmarked := hfirst.markedReads hone false
    rw [flagged_iff] at hflags
    rcases hflags with ⟨hflagged, rfl⟩ | ⟨hclean, rfl⟩
    · cases hvalid : c.kbd.kbd_ih_valid with
      | true => exact .taken byte _ hmarked (.inl hvalid) rfl
      | false =>
        rw [hflagged] at hmarked
        exact .ignored byte hmarked hvalid rfl
    · exact .taken byte _ hmarked (.inr (Bool.eq_false_of_not_eq_true hclean)) rfl

/-- Without the keyboard's bit no port is asked. -/
theorem keyed_nil {ports : List PortEvent} (h : ports = []) :
    (∀ e ∈ ports.head?, e.dataByte? = none) ∧ c.Keyed ports c := by
  subst h
  exact ⟨fun e hnone => (by cases hnone), .idle rfl rfl⟩

/-- **What a message does**: nothing when it did not come in; else the image may move, the keyboard has
    its turn, and then the timer. -/
theorem step_cases
    (h : receiveStep (fun c => c.looping) (iterate img cooldown clocks_per_frame) c e = some c') :
    c' = c ∧ e.ports = [] ∧ e.received.carries .timer = false ∨
      ∃ c₁, ((∀ port ∈ e.ports.head?, port.dataByte? = none) ∧ (c.move cooldown).Keyed e.ports c₁) ∧
        c' = if e.received.carries .timer then c₁.tick img clocks_per_frame else c₁ := by
  unfold receiveStep at h
  split at h
  · have hrun : (c.iterate img cooldown clocks_per_frame e.received).Runs e.ports c' := h
    unfold iterate at hrun
    split at hrun
    · next hfailed =>
      obtain ⟨hports, rfl⟩ := Prog.runs_ret.mp hrun
      exact .inl ⟨rfl, hports, by simp [SysReply.carries, hfailed]⟩
    · next hfailed =>
      right
      dsimp only at hrun
      split at hrun
      · next hmsg =>
        obtain ⟨c₁, hkeyboard, rfl⟩ := Prog.runs_bind_ret.mp hrun
        refine ⟨c₁, ?_, by simp [SysReply.carries, hfailed, hmsg, tick]⟩
        split at hkeyboard
        · exact keyed_keyboardBranch hkeyboard
        · obtain ⟨hports, rfl⟩ := Prog.runs_ret.mp hkeyboard
          exact keyed_nil hports
      · next hmsg =>
        obtain ⟨hports, rfl⟩ := Prog.runs_ret.mp hrun
        exact ⟨_, keyed_nil hports, by simp [SysReply.carries, hmsg]⟩
  · cases h

/-- A tick moves nothing and has no key pressed, whether or not a frame can be drawn. -/
theorem orFault_timerBranch (s : Mover) :
    (s.orFault (timerBranch img clocks_per_frame s)).kbd = s.kbd ∧
      (s.orFault (timerBranch img clocks_per_frame s)).x = s.x ∧
      (s.orFault (timerBranch img clocks_per_frame s)).y = s.y := by
  cases hbranch : timerBranch img clocks_per_frame s with
  | error f => exact ⟨rfl, rfl, rfl⟩
  | ok s' =>
    obtain ⟨due, -, hrest⟩ := bind_eq_ok.mp hbranch
    split at hrest
    · obtain ⟨cleared, -, hrest⟩ := bind_eq_ok.mp hrest
      obtain ⟨drawn, -, hrest⟩ := bind_eq_ok.mp hrest
      dsimp only at hrest
      split at hrest
      · cases hrest
        exact ⟨rfl, rfl, rfl⟩
      · obtain ⟨panel, -, hrest⟩ := bind_eq_ok.mp hrest
        cases hrest
        exact ⟨rfl, rfl, rfl⟩
    · cases hrest
      exact ⟨rfl, rfl, rfl⟩

/-! ## The keys -/

/-- The codes that count: all that were fetched, but for the ones at the beginning that came with an
    error. -/
def countedCodes (tr : List PortEvent) : List UInt8 :=
  ((markedReads false tr).dropWhile Prod.snd).map Prod.fst

/-- What the codes that count make of the keys. -/
structure Keys (c : Controller) (codes : List UInt8) : Prop where
  invalid : c.kbd.kbd_ih_valid = false → codes = []
  valid : c.kbd.kbd_ih_valid = true → ∃ earlier, codes = earlier ++ [c.kbd.scan_code]
  down : ∀ key, c.Down key ↔ key.Held codes

section
variable {tr ports : List PortEvent} {byte : UInt8} {mark : Bool}

theorem countedCodes_idle (hhead : ∀ e ∈ ports.head?, e.dataByte? = none)
    (hnone : consumed ports = []) : countedCodes (tr ++ ports) = countedCodes tr := by
  unfold countedCodes
  rw [markedReads_append hhead, markedReads_eq_nil _ hnone, List.append_nil]

/-- The first code that counts is one without an error. -/
theorem countedCodes_first (hhead : ∀ e ∈ ports.head?, e.dataByte? = none)
    (hmarked : markedReads false ports = [(byte, mark)]) (hnone : countedCodes tr = []) :
    countedCodes (tr ++ ports) = if mark then [] else [byte] := by
  have hempty : ((markedReads false tr).dropWhile Prod.snd) = [] := List.map_eq_nil_iff.mp hnone
  rw [countedCodes, markedReads_append hhead, hmarked, List.dropWhile_append, hempty]
  cases mark with
  | true => rfl
  | false => rfl

/-- After it every code counts. -/
theorem countedCodes_later (hhead : ∀ e ∈ ports.head?, e.dataByte? = none)
    (hmarked : markedReads false ports = [(byte, mark)]) (hsome : countedCodes tr ≠ []) :
    countedCodes (tr ++ ports) = countedCodes tr ++ [byte] := by
  have hrest : ((markedReads false tr).dropWhile Prod.snd).isEmpty = false := by
    rw [List.isEmpty_eq_false_iff]
    exact fun hempty => hsome (congrArg (List.map Prod.fst) hempty)
  rw [countedCodes, markedReads_append hhead, hmarked, List.dropWhile_append, hrest,
    if_neg Bool.false_ne_true, List.map_append]
  rfl

end

variable {codes : List UInt8}

theorem Keys.same (h : c.Keys codes) (hkbd : c'.kbd = c.kbd)
    (hdown : ∀ key, c'.Down key ↔ c.Down key) : c'.Keys codes where
  invalid := hkbd ▸ h.invalid
  valid := hkbd ▸ h.valid
  down key := (hdown key).trans (h.down key)

theorem down_move (c : Controller) (key : ControlKey) :
    (c.move cooldown).Down key ↔ c.Down key := by
  have hmoved : ∀ (state : KeyState) (x y : UInt16) (c : Controller),
      (c.moveIf cooldown state x y).Down key ↔ c.Down key := by
    intro state x y c
    unfold moveIf
    split
    · cases key <;> exact Iff.rfl
    · exact Iff.rfl
  unfold move
  split
  · have hall : (c.moveByKeys cooldown).Down key ↔ c.Down key := by
      unfold moveByKeys
      dsimp only
      rw [hmoved, hmoved, hmoved, hmoved]
    rw [← hall]
    cases key <;> exact Iff.rfl
  · exact Iff.rfl

theorem kbd_move (c : Controller) : (c.move cooldown).kbd = c.kbd := by
  have hmoved : ∀ (state : KeyState) (x y : UInt16) (c : Controller),
      (c.moveIf cooldown state x y).kbd = c.kbd := by
    intro state x y c
    unfold moveIf
    split
    · rfl
    · rfl
  unfold move
  split
  · change (c.moveByKeys cooldown).kbd = c.kbd
    unfold moveByKeys
    dsimp only
    rw [hmoved, hmoved, hmoved, hmoved]
  · rfl

/-- The keyboard's turn. -/
theorem Keys.keyed {tr ports : List PortEvent} (h : c.Keys (countedCodes tr))
    (hhead : ∀ e ∈ ports.head?, e.dataByte? = none) (hkeyed : c.Keyed ports c') :
    c'.Keys (countedCodes (tr ++ ports)) := by
  cases hkeyed with
  | idle hnone hsame =>
    subst hsame
    rw [countedCodes_idle hhead hnone]
    exact h
  | again hnone hvalid hhandled =>
    subst hhandled
    -- the last code counts once more
    obtain ⟨earlier, hlast⟩ := h.valid hvalid
    rw [countedCodes_idle hhead hnone]
    refine h.same rfl fun key => ?_
    rw [down_handleScancode, h.down key, hlast, ControlKey.held_concat]
    tauto
  | ignored byte hmarked hinvalid hstored =>
    subst hstored
    have hempty := h.invalid hinvalid
    rw [countedCodes_first hhead hmarked hempty, if_pos rfl]
    rw [hempty] at h
    refine ⟨fun _ => rfl, fun hvalid => ?_, fun key => ?_⟩
    · cases hvalid
    · rw [← h.down key]
      cases key <;> exact Iff.rfl
  | taken byte mark hmarked hcounts hhandled =>
    subst hhandled
    have hcodes : countedCodes (tr ++ ports) = countedCodes tr ++ [byte] := by
      cases hvalid : c.kbd.kbd_ih_valid with
      | true =>
        obtain ⟨earlier, hlast⟩ := h.valid hvalid
        exact countedCodes_later hhead hmarked (by simp [hlast])
      | false =>
        have hempty := h.invalid hvalid
        have hclean := hcounts.resolve_left (by simp [hvalid])
        rw [countedCodes_first hhead hmarked hempty, hempty, hclean, if_neg Bool.false_ne_true]
        rfl
    rw [hcodes]
    refine ⟨fun hinvalid => ?_, fun _ => ⟨_, rfl⟩, fun key => ?_⟩
    · cases hinvalid
    · rw [down_handleScancode, ControlKey.held_concat, ← h.down key]
      cases key <;> exact Iff.rfl

theorem Keys.step (h : c.Keys (countedCodes (es.flatMap ScanEvent.ports)))
    (hstep : receiveStep (fun c => c.looping) (iterate img cooldown clocks_per_frame) c e = some c') :
    c'.Keys (countedCodes ((es ++ [e]).flatMap ScanEvent.ports)) := by
  rw [List.flatMap_append, List.flatMap_singleton]
  rcases step_cases hstep with ⟨rfl, hnone, -⟩ | ⟨c₁, ⟨hhead, hkeyed⟩, rfl⟩
  · rw [hnone, List.append_nil]
    exact h
  · have hkeys := (h.same (@kbd_move cooldown c) (down_move c)).keyed hhead hkeyed
    split
    · have hkbd : (c₁.tick img clocks_per_frame).kbd = c₁.kbd := (orFault_timerBranch _).1
      exact hkeys.same hkbd fun key => by cases key <;> exact Iff.rfl
    · exact hkeys

/-! ## The place -/

/-- The image is where the steps have brought it, and it has not been moved too often. -/
structure OnTrack (cooldown : Nat) (c : Controller) (n : Nat) : Prop where
  x : c.x = UInt16.ofInt (100 + (c.steps.map Prod.fst).sum)
  y : c.y = UInt16.ofInt (100 + (c.steps.map Prod.snd).sum)
  short : ∀ step ∈ c.steps, step.1.natAbs ≤ 10 ∧ step.2.natAbs ≤ 10
  paced : Paced cooldown (cooldown / 10) c.steps.length n c.elapsed

/-- Two opposite keys, one after the other. -/
theorem axis_eq (back forth : KeyState) (z : UInt16) :
    (if forth = .pressed then (if back = .pressed then z - 10 else z) + 10
      else if back = .pressed then z - 10 else z) =
      z + UInt16.ofInt ((if forth = .pressed then 10 else 0) - if back = .pressed then 10 else 0) := by
  cases back with
  | pressed =>
    cases forth with
    | pressed => exact (UInt16.sub_add_cancel z 10).trans (UInt16.add_zero z).symm
    | notPressed => exact UInt16.sub_eq_add_neg z 10
  | notPressed =>
    cases forth with
    | pressed => rfl
    | notPressed => exact (UInt16.add_zero z).symm

theorem moveIf_eq (state : KeyState) (x y : UInt16) (c : Controller) :
    c.moveIf cooldown state x y = { c with
      x := if state = .pressed then x else c.x
      y := if state = .pressed then y else c.y
      elapsed := if state = .pressed then cooldown / c.move_state.toNat else c.elapsed } := by
  unfold moveIf
  split
  · rfl
  · rfl

/-- The four `if`s together. -/
theorem moveByKeys_place (c : Controller) :
    (c.moveByKeys cooldown).x = c.x + UInt16.ofInt c.stepOf.1 ∧
      (c.moveByKeys cooldown).y = c.y + UInt16.ofInt c.stepOf.2 ∧
      (c.moveByKeys cooldown).elapsed =
        if c.anyKey then cooldown / c.move_state.toNat else c.elapsed := by
  unfold moveByKeys
  simp only [moveIf_eq, ite_self]
  refine ⟨axis_eq c.a_key_state c.d_key_state c.x, axis_eq c.w_key_state c.s_key_state c.y, ?_⟩
  unfold anyKey
  cases c.w_key_state <;> cases c.a_key_state <;> cases c.s_key_state <;> cases c.d_key_state <;> rfl

theorem stepOf_of_no_key {c : Controller} (h : c.anyKey = false) : c.stepOf = (0, 0) := by
  unfold anyKey at h
  unfold stepOf
  simp at h
  simp [h]

theorem stepOf_short (c : Controller) : c.stepOf.1.natAbs ≤ 10 ∧ c.stepOf.2.natAbs ≤ 10 := by
  unfold stepOf
  cases c.w_key_state <;> cases c.a_key_state <;> cases c.s_key_state <;> cases c.d_key_state <;>
    decide

/-- Running, a step comes every tenth of a cooldown. -/
theorem rest_le (cooldown : Nat) (state : MoveState) : cooldown / 10 ≤ cooldown / state.toNat := by
  cases state with
  | running => exact le_refl _
  | walking => exact (Nat.div_le_self cooldown 10).trans (Nat.div_one cooldown).ge

/-- **A step**, if a key is pressed and the cooldown is over. -/
theorem OnTrack.move {n : Nat} (h : c.OnTrack cooldown n) : (c.move cooldown).OnTrack cooldown n := by
  unfold Controller.move
  split
  · next helapsed =>
    obtain ⟨hx, hy, hagain⟩ := @moveByKeys_place cooldown c
    cases hkey : c.anyKey with
    | false =>
      rw [hkey, if_neg Bool.false_ne_true] at hagain
      rw [stepOf_of_no_key hkey] at hx hy
      refine ⟨?_, ?_, h.short, ?_⟩
      · exact (hx.trans (UInt16.add_zero _)).trans h.x
      · exact (hy.trans (UInt16.add_zero _)).trans h.y
      · have hpaced := h.paced
        rw [← hagain] at hpaced
        exact hpaced
    | true =>
      rw [hkey, if_pos rfl] at hagain
      refine ⟨?_, ?_, ?_, ?_⟩
      · change (c.moveByKeys cooldown).x = UInt16.ofInt (100 + ((c.steps ++ [c.stepOf]).map _).sum)
        rw [hx, h.x, List.map_append, List.sum_append, ← Int.add_assoc, UInt16.ofInt_add]
        simp
      · change (c.moveByKeys cooldown).y = UInt16.ofInt (100 + ((c.steps ++ [c.stepOf]).map _).sum)
        rw [hy, h.y, List.map_append, List.sum_append, ← Int.add_assoc, UInt16.ofInt_add]
        simp
      · exact List.forall_mem_append.mpr ⟨h.short, List.forall_mem_singleton.mpr (stepOf_short c)⟩
      · have hpaced := h.paced
        rw [helapsed] at hpaced
        change Paced cooldown (cooldown / 10) (c.steps ++ [c.stepOf]).length n
          (c.moveByKeys cooldown).elapsed
        rw [List.length_append, hagain]
        exact hpaced.act (rest_le cooldown c.move_state)
  · exact h

/-- A state with the same place and the same steps. -/
theorem OnTrack.of_same {n : Nat} (h : c.OnTrack cooldown n) (hx : c'.x = c.x) (hy : c'.y = c.y)
    (hsteps : c'.steps = c.steps) (helapsed : c'.elapsed = c.elapsed) : c'.OnTrack cooldown n where
  x := by rw [hx, hsteps, h.x]
  y := by rw [hy, hsteps, h.y]
  short := hsteps ▸ h.short
  paced := by
    rw [hsteps, helapsed]
    exact h.paced

theorem OnTrack.keyed {n : Nat} {ports : List PortEvent} (h : c.OnTrack cooldown n)
    (hkeyed : c.Keyed ports c') : c'.OnTrack cooldown n := by
  cases hkeyed with
  | idle _ hsame =>
    subst hsame
    exact h
  | again _ _ hhandled =>
    subst hhandled
    exact h.of_same rfl rfl rfl rfl
  | ignored _ _ _ hstored =>
    subst hstored
    exact h.of_same rfl rfl rfl rfl
  | taken _ _ _ _ hhandled =>
    subst hhandled
    exact h.of_same rfl rfl rfl rfl

theorem OnTrack.tick {n : Nat} (h : c.OnTrack cooldown n) :
    (c.tick img clocks_per_frame).OnTrack cooldown (n + 1) := by
  obtain ⟨-, hx, hy⟩ := @orFault_timerBranch img clocks_per_frame c.toMover
  refine ⟨hx.trans h.x, hy.trans h.y, h.short, ?_⟩
  have hcountdown : (if c.elapsed ≠ 0 then c.elapsed - 1 else c.elapsed) = c.elapsed - 1 := by
    split
    · rfl
    · omega
  change Paced cooldown (cooldown / 10) c.steps.length (n + 1) (if _ then _ else _)
  rw [hcountdown]
  exact h.paced.tick

theorem OnTrack.step (h : c.OnTrack cooldown (ticks es))
    (hstep : receiveStep (fun c => c.looping) (iterate img cooldown clocks_per_frame) c e = some c') :
    c'.OnTrack cooldown (ticks (es ++ [e])) := by
  rw [ticks_append]
  rcases step_cases hstep with ⟨rfl, -, hnone⟩ | ⟨c₁, ⟨-, hkeyed⟩, rfl⟩
  · rw [hnone]
    exact h
  · have hmoved := h.move.keyed hkeyed
    split
    · exact hmoved.tick
    · exact hmoved

/-! ## The screen -/

section
variable {W H : Nat} {s₀ : Mover}

/-- All that moving changes of what both loops share is the place. -/
theorem toMover_move (c : Controller) :
    ∃ x y, (c.move cooldown).toMover = { c.toMover with x, y } := by
  unfold Controller.move
  split
  · unfold moveByKeys
    simp only [moveIf_eq]
    exact ⟨_, _, rfl⟩
  · exact ⟨c.x, c.y, rfl⟩

theorem Keyed.toMover {ports : List PortEvent} (h : c.Keyed ports c') :
    ∃ kbd, c'.toMover = { c.toMover with kbd } := by
  cases h with
  | idle _ hsame => exact ⟨c.kbd, by rw [hsame]⟩
  | again _ _ hhandled => exact ⟨c.kbd, by rw [hhandled]; rfl⟩
  | ignored _ _ _ hstored => exact ⟨_, by rw [hstored]⟩
  | taken _ _ _ _ hhandled => exact ⟨_, by rw [hhandled]; rfl⟩

/-- **One message** of the loop. -/
theorem timed_step (himg : Complete img) (hclocks : clocks_per_frame ≠ 0)
    (h : c.toMover.Timed W H img clocks_per_frame s₀ es)
    (hstep : receiveStep (fun c => c.looping) (iterate img cooldown clocks_per_frame) c e = some c') :
    c'.toMover.Timed W H img clocks_per_frame s₀ (es ++ [e]) := by
  rcases step_cases hstep with ⟨rfl, -, hnone⟩ | ⟨c₁, ⟨-, hkeyed⟩, rfl⟩
  · exact h.quiet hnone
  · obtain ⟨x, y, hmove⟩ := @toMover_move cooldown c
    obtain ⟨kbd, hkbd⟩ := hkeyed.toMover
    have htimed : c₁.toMover.Timed W H img clocks_per_frame s₀ es := by
      rw [hkbd, hmove]
      exact h.moved kbd x y
    split
    · next he =>
      obtain ⟨-, hdue⟩ := htimed.frameDue hclocks
      change (c₁.toMover.orFault (timerBranch img clocks_per_frame c₁.toMover)).Timed W H img _ _ _
      unfold timerBranch
      dsimp only
      rw [hdue, ok_bind]
      by_cases hframe : (s₀.counter + UInt32.ofNat (ticks es + 1)) % clocks_per_frame.toUInt32 = 0
      · obtain ⟨s', hdraw, hframed⟩ := @drawFrame_framed W H img s₀.panel
          c₁.toMover.timerIntHandler himg htimed.shows.ready
        rw [decide_eq_true hframe, if_pos rfl, hdraw]
        exact htimed.frame he hclocks hframe hframed
      · rw [decide_eq_false hframe, if_neg Bool.false_ne_true]
        exact htimed.tick he hclocks hframe
    · next he => exact htimed.quiet (by simpa using he)

end

end Controller

/-! ## The program -/

section
variable {hz : UInt32} {penguin : XpmImage} {heap vram : Nat → UInt8} {kbd : KbdGlobals} {fuel : Nat}
  {tr : List SysEvent} {ending : Ending} {c : Controller}

/-- The controller before its first message. -/
def Controller.initial (hz : UInt32) (kbd : KbdGlobals) (panel : Panel) : Controller :=
  { Controller.start hz.toUInt16.toNat (Mover.start kbd 0 100 100) with panel }

theorem videoTestController_reaches
    (h : (videoTestController hz penguin heap vram kbd 0 fuel).Runs tr (ending, c)) :
    Reaches (fun c => c.looping) (Controller.iterate penguin hz.toUInt16.toNat (hz.toUInt16 / 30))
      Controller.toMover heap vram (Controller.initial hz kbd) tr ending c := by
  unfold videoTestController at h
  dsimp only at h
  rw [Nat.one_mul] at h
  let start := Controller.initial hz kbd
  refine Reaches.call start .startup (.irqSetPolicy _ _ _) ⟨by simp, by simp⟩ h fun tr h => ?_
  refine Reaches.call start .startup (.irqSetPolicy _ _ _) ⟨by simp, by simp⟩ h fun tr h => ?_
  refine Reaches.call start .startup (.int86 _ _ _) ⟨by simp, by simp⟩ h fun tr h => ?_
  exact Reaches.memory h

theorem not_down_initial (hz : UInt32) (kbd : KbdGlobals) (panel : Panel) (key : ControlKey) :
    ¬ (Controller.initial hz kbd panel).Down key := by
  intro h
  cases key <;> cases h

/-- What the loop keeps, the program keeps. -/
theorem videoTestController_keeps {I : List ScanEvent → Controller → Prop}
    (hstart : ∀ panel, I [] (Controller.initial hz kbd panel))
    (hstep : ∀ es e c c', I es c → receiveStep (fun c => c.looping)
      (Controller.iterate penguin hz.toUInt16.toNat (hz.toUInt16 / 30)) c e = some c' →
        I (es ++ [e]) c')
    (h : (videoTestController hz penguin heap vram kbd 0 fuel).Runs tr (ending, c)) :
    I (messages tr) c ∧ (messages tr).flatMap ScanEvent.ports = tr.filterMap portOf := by
  cases videoTestController_reaches h with
  | early panel state quiet ends =>
    obtain ⟨hmessages, hports⟩ := messages_of_quiet quiet
    rw [hmessages, hports, state]
    exact ⟨hstart panel, rfl⟩
  | loop reply asked hmessages ports ends =>
    exact ⟨run_history I hstep (hstart _) hmessages, ports⟩

end

/-- **A key counts as pressed when its make code has come and its break code has not come since.** The
    codes are all that were fetched, from the first one on that came without an error. -/
theorem video_test_controller_keys (hz : UInt32) (penguin : XpmImage) (heap vram : Nat → UInt8)
    (fuel : Nat) (tr : List SysEvent) (ending : Ending) (c : Controller)
    (h : (videoTestController hz penguin heap vram ⟨0, false⟩ 0 fuel).Runs tr (ending, c)) :
    ∀ key, c.Down key ↔ key.Held (Controller.countedCodes (tr.filterMap portOf)) := by
  have hstart : ∀ panel, (Controller.initial hz ⟨0, false⟩ panel).Keys [] := by
    intro panel
    refine ⟨fun _ => rfl, fun hvalid => ?_, fun key => ?_⟩
    · cases hvalid
    · exact iff_of_false (not_down_initial hz _ panel key) key.not_held_nil
  obtain ⟨hkeys, hports⟩ := videoTestController_keeps
    (I := fun es c => c.Keys (Controller.countedCodes (es.flatMap ScanEvent.ports))) hstart
    (fun es e c c' hc hstep => hc.step hstep) h
  rw [hports] at hkeys
  exact hkeys.down

/-- **The image moves by ten pixels at most once in a tenth of a cooldown**, whatever is pressed and
    however many messages arrive; and it is where its steps have brought it. -/
theorem video_test_controller_steps (hz : UInt32) (penguin : XpmImage) (heap vram : Nat → UInt8)
    (kbd : KbdGlobals) (fuel : Nat) (tr : List SysEvent) (ending : Ending) (c : Controller)
    (h : (videoTestController hz penguin heap vram kbd 0 fuel).Runs tr (ending, c)) :
    c.x = UInt16.ofInt (100 + (c.steps.map Prod.fst).sum) ∧
      c.y = UInt16.ofInt (100 + (c.steps.map Prod.snd).sum) ∧
      (∀ step ∈ c.steps, step.1.natAbs ≤ 10 ∧ step.2.natAbs ≤ 10) ∧
      (c.steps ≠ [] → hz.toUInt16.toNat + (c.steps.length - 1) * (hz.toUInt16.toNat / 10) ≤
        tr.countP SysEvent.ticks) := by
  obtain ⟨htrack, -⟩ := videoTestController_keeps
    (I := fun es c => c.OnTrack hz.toUInt16.toNat (ticks es))
    (fun panel => ⟨rfl, rfl, fun _ hnone => absurd hnone List.not_mem_nil, .start _ _⟩)
    (fun es e c c' hc hstep => hc.step hstep) h
  refine ⟨htrack.x, htrack.y, htrack.short, fun hsteps => ?_⟩
  rw [countP_ticks]
  exact htrack.paced.last fun hnone => hsteps (List.length_eq_zero_iff.mp hnone)

/-- **The screen shows the image where it was at the last frame.** On a machine with at least thirty
    ticks in a second, in a mode with eight bits for a pixel: no fault happens, and every tick that is
    due for a frame has one. -/
theorem video_test_controller_screen (hz : UInt32) (penguin : XpmImage) (heap vram : Nat → UInt8)
    (kbd : KbdGlobals) (fuel : Nat) (tr : List SysEvent) (ending : Ending) (c : Controller)
    (himg : Complete penguin) (hfast : 30 ≤ hz.toUInt16.toNat)
    (hbits : ∀ reply, (SysCall.vbeGetModeInfo 0x105, reply) ∈ tr → reply.mode_info.BitsPerPixel = 8)
    (h : (videoTestController hz penguin heap vram kbd 0 fuel).Runs tr (ending, c)) :
    (∀ f, ending ≠ .faulted f) ∧
      c.toMover.Displays penguin (hz.toUInt16 / 30) (tr.countP SysEvent.ticks) := by
  have hclocks : hz.toUInt16 / 30 ≠ 0 := by
    intro hzero
    have hdiv := congrArg UInt16.toNat hzero
    rw [UInt16.toNat_div, UInt16.toNat_zero] at hdiv
    exact absurd hdiv (Nat.div_pos hfast (by decide)).ne'
  obtain ⟨hfaults, hdisplays, -⟩ := (videoTestController_reaches h).displays (I := fun _ _ => True)
    hbits (fun panel => rfl) (fun panel => trivial)
    fun W H s₀ es e c c' hc hstep => ⟨Controller.timed_step himg hclocks hc.1 hstep, trivial⟩
  exact ⟨hfaults, hdisplays⟩

/-! ### A dot that is moved up -/

/-- The port accesses of a `kbc_ih()` that finds `code`; the second poll shows a parity error. -/
def flaggedPorts (code : UInt8) : List SysEvent :=
  [granted (.port (.inb kbcRegStat)) 1, granted (.port (.inb kbcRegStat)) 0x81,
    granted (.port (.inb kbcRegOutBuf)) code.toUInt32]

/-- The code of `S` comes with an error, `W` is pressed, thirty ticks pass, and one more message
    comes. -/
def drive : List SysEvent :=
  smallMode ++ interrupt 2 :: flaggedPorts sMakecode ++ interrupt 2 :: scancodePorts wMakecode ++
    List.replicate 30 (interrupt 1) ++ [interrupt 0]

def dot : XpmImage := ⟨.indexed, 1, 1, [9]⟩

/-- The program on these messages: one tick for each frame. -/
def driveProgram : Sys (Ending × Controller) :=
  videoTestController 30 dot (fun _ => 3) (fun _ => 5) ⟨0, false⟩ 0 33

def driven : Ending × Controller :=
  (driveProgram.exec drive).getD (.running, .initial 30 ⟨0, false⟩ .startup)

theorem runs_driven : driveProgram.Runs drive driven := Prog.runs_getD (by decide +kernel) _

/-- The first code does not count. -/
theorem video_test_controller_keys_drive : driven.2.Down .w ∧ ¬ driven.2.Down .s := by
  have hkeys := video_test_controller_keys 30 dot (fun _ => 3) (fun _ => 5) 33 drive driven.1 driven.2
    runs_driven
  have hcodes : Controller.countedCodes (drive.filterMap portOf) = [wMakecode] := by decide +kernel
  rw [hcodes] at hkeys
  refine ⟨(hkeys .w).mpr ⟨[], [], rfl, List.not_mem_nil⟩, fun hdown => ?_⟩
  obtain ⟨before, after, hsplit, -⟩ := (hkeys .s).mp hdown
  have hmem : sMakecode ∈ [wMakecode] := hsplit ▸ List.mem_append_right before List.mem_cons_self
  exact absurd hmem (by decide)

theorem video_test_controller_steps_drive :
    driven.2.steps = [(0, -10)] ∧ driven.2.y = 90 := by
  have hsteps : driven.2.steps = [(0, -10)] := by decide +kernel
  obtain ⟨-, hy, -, -⟩ := video_test_controller_steps 30 dot (fun _ => 3) (fun _ => 5) ⟨0, false⟩ 33
    drive driven.1 driven.2 runs_driven
  rw [hsteps] at hy
  exact ⟨hsteps, hy⟩

/-- Thirty frames, the last of them before the dot is moved. -/
theorem video_test_controller_screen_drive :
    driven.2.frames.length = 30 ∧ ∀ earlier x y, driven.2.frames = earlier ++ [(x, y)] →
      driven.2.panel.screen = (imageLayer driven.2.panel.gpu.x_res.toNat
        driven.2.panel.gpu.y_res.toNat dot x y).onto
          (blackScreen driven.2.panel.gpu.x_res.toNat driven.2.panel.gpu.y_res.toNat) := by
  obtain ⟨-, hpace, hlast⟩ := video_test_controller_screen 30 dot (fun _ => 3) (fun _ => 5) ⟨0, false⟩
    33 drive driven.1 driven.2 (by decide) (by decide)
    (by simp [drive, smallMode, granted, interrupt, flaggedPorts, scancodePorts]) runs_driven
  exact ⟨hpace, hlast⟩

end Lab5
end Lcom
