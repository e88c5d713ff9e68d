import Lcom.Input.Keyboard
import Lcom.Lib.Run
import Lcom.Proof.Drivers.Kbc

/-!
# Scancodes in, key states out

`Keyboard_handle` takes one byte per interrupt and keeps a prefix flag between interrupts. Two
questions are settled here.

*When the reads succeed* (`keyboard_frames`): over any stream of complete scancode frames the
manager is a last-write-wins table of its five keys. The proof is a simulation: one frame, which
is one or two interrupts, is one write to an abstract key table.

*When the read fails* (`keyboard_inert_iff`): the handler looks at the local `scancode` all the
same, so it acts on whatever byte is there — an erroneous one the failing read has already
stored, or stack garbage. The theorem says for exactly which bytes that does no harm.
-/

namespace Lcom

open Lib

/-! ## The read -/

theorem keyboardReadScancode_stored {scancode : UInt8} {tr : List PortEvent} {o : Int × UInt8}
    (h : (keyboardReadScancode scancode).Runs tr o) :
    (o.1 = 0 ∨ o.1 = 1) ∧ o.2 = lastByte scancode tr := by
  rw [keyboardReadScancode, kbcReadStatus, utilSysInb_bind, Prog.runs_ask] at h
  obtain ⟨r, tr, rfl, h⟩ := h
  cases hb : PortEvent.byte? (.inb kbcRegStat, r) with
  | none =>
    simp only [hb] at h
    obtain ⟨rfl, rfl⟩ := Prog.runs_ret.mp h
    simp
  | some status =>
    simp only [hb] at h
    split at h
    · obtain ⟨rfl, rfl⟩ := Prog.runs_ret.mp h
      simp
    · split at h
      · obtain ⟨rfl, rfl⟩ := Prog.runs_ret.mp h
        simp
      · obtain ⟨tr₁, ⟨c, byte⟩, tr₂, rfl, hread, hret⟩ := Prog.runs_bind.mp h
        obtain ⟨-, hbyte⟩ := kbcReadOutbuff_stored hread
        dsimp only at hret hbyte
        split at hret <;> obtain ⟨rfl, rfl⟩ := Prog.runs_ret.mp hret <;> simpa using hbyte

/-- The handler acts on the byte the read left behind, whatever code the read returned. -/
theorem runs_keyboardHandle {k : Keyboard} {scancode : UInt8} {tr : List PortEvent} {r : Int}
    {byte : UInt8} (hread : (keyboardReadScancode scancode).Runs tr (r, byte))
    {o : Except Fault Keyboard} :
    (k.handle scancode).Runs tr o ↔ o = k.handleScancode byte := by
  rw [show k.handle scancode = keyboardReadScancode scancode >>= fun o =>
    Prog.ret (k.handleScancode o.2) from rfl, Prog.runs_bind_ret]
  constructor
  · intro h
    rcases h with ⟨⟨r', byte'⟩, hread', rfl⟩
    rw [(Prod.mk.inj (hread.unique hread')).2]
  · intro heq
    subst heq
    exact ⟨(r, byte), hread, rfl⟩

/-! ## Frames -/

/-- A complete scancode: one byte other than the prefix, or the prefix and any byte. -/
inductive ScanFrame where
  | single (b : UInt8) (h : b ≠ doubleByte)
  | extended (b : UInt8)
  deriving DecidableEq, Repr

namespace ScanFrame

/-- The bytes of the frame, in the order they arrive. -/
def bytes : ScanFrame → List UInt8
  | single b _ => [b]
  | extended b => [doubleByte, b]

/-- The key a seven-bit code names, with and without the prefix. -/
def keyOf (prefixed : Bool) (code : Nat) : Option KbKey :=
  if prefixed then
    if code = 0x48 then some .up
    else if code = 0x4B then some .left
    else if code = 0x50 then some .down
    else if code = 0x4D then some .right
    else none
  else if code = 0x01 then some .esc
  else none

/-- The key a frame denotes, and whether it is its make code: bit 7 marks the release. -/
def denotes : ScanFrame → Option (KbKey × Bool)
  | single b _ => (keyOf false (b.toNat % 128)).map (·, decide (b.toNat < 128))
  | extended b => (keyOf true (b.toNat % 128)).map (·, decide (b.toNat < 128))

end ScanFrame

/-- Whether the last of the frames that denote `key` is a make code; `none` if no frame does. -/
def lastDenoting (key : KbKey) (fs : List ScanFrame) : Option Bool :=
  ((fs.filterMap ScanFrame.denotes).reverse.find? (·.1 = key)).map (·.2)

/-- The key table with exactly the keys `down` pressed. -/
def Keyboard.ofMap (down : KbKey → Bool) : Keyboard where
  double_width := false
  keys := #v[down .esc, down .up, down .down, down .left, down .right,
    false, false, false, false, false, false, false, false, false, false,
    false, false, false, false, false]

theorem Keyboard.pressed_ofMap {down : KbKey → Bool} {key : KbKey} (h : key ≠ .invalid) :
    (Keyboard.ofMap down).pressed key = .ok (down key) := by
  cases key <;> first | rfl | exact absurd rfl h

theorem Keyboard.startup_eq_ofMap : Keyboard.startup = Keyboard.ofMap fun _ => false := by
  decide +kernel

theorem Keyboard.store_ofMap {down : KbKey → Bool} {key : KbKey} (h : key ≠ .invalid)
    (make : Bool) :
    store (Keyboard.ofMap down).keys key.index make =
      .ok (Keyboard.ofMap (Function.update down key make)).keys := by
  cases key <;> first | exact absurd rfl h | skip
  all_goals
    rw [store_of_lt (by decide)]
    congr 1

/-! ## One byte -/

theorem anyBit_breakBit (b : UInt8) : anyBit b 0x80 = decide (128 ≤ b.toNat) := by
  rw [anyBit_eq_testBit (i := 7) rfl, Nat.testBit_eq_decide_div_mod_eq, decide_eq_decide]
  have := b.toNat_lt
  omega

theorem toNat_and_0x7f (b : UInt8) : (b &&& 0x7f).toNat = b.toNat % 128 := by
  rw [UInt8.toNat_and]
  exact Nat.and_two_pow_sub_one_eq_mod _ 7

/-- The translation tables, read off the code and the make bit separately. -/
theorem Keyboard.translate_eq (b : UInt8) (prefixed : Bool) :
    Keyboard.translate b prefixed =
      ((ScanFrame.keyOf prefixed (b.toNat % 128)).getD .invalid, decide (b.toNat < 128)) := by
  have hmake : (if anyBit b 0x80 then false else true) = decide (b.toNat < 128) := by
    rw [anyBit_breakBit]
    by_cases h : b.toNat < 128
    · simp [h, Nat.not_le.mpr h]
    · simp [h, Nat.not_lt.mp h]
  have hcode : (if !decide (b.toNat < 128) then b &&& 0x7f else b).toNat = b.toNat % 128 := by
    by_cases h : b.toNat < 128
    · simp [h, Nat.mod_eq_of_lt h]
    · simpa only [h, decide_false, Bool.not_false, if_true] using toNat_and_0x7f b
  -- from here on the two tables are functions of the code alone
  simp only [Keyboard.translate, hmake]
  generalize (if !decide (b.toNat < 128) then b &&& 0x7f else b) = code at hcode ⊢
  simp only [← UInt8.toNat_inj, hcode]
  generalize b.toNat % 128 = c
  congr 1
  simp only [ScanFrame.keyOf]
  split_ifs <;> simp_all

/-- A byte that is not a fresh prefix: at most one key changes, and the flag is cleared. -/
theorem Keyboard.handleScancode_ofMap (down : KbKey → Bool) {prefixed : Bool} {b : UInt8}
    (hb : prefixed = false → b ≠ doubleByte) :
    ({ Keyboard.ofMap down with double_width := prefixed } : Keyboard).handleScancode b =
      .ok (Keyboard.ofMap (match ScanFrame.keyOf prefixed (b.toNat % 128) with
        | some key => Function.update down key (decide (b.toNat < 128))
        | none => down)) := by
  have hfresh : ¬ (b = doubleByte ∧ prefixed = false) := fun h => hb h.2 h.1
  simp only [Keyboard.handleScancode, if_neg hfresh, Keyboard.translate_eq]
  cases hkey : ScanFrame.keyOf prefixed (b.toNat % 128) with
  | none => rfl
  | some key =>
    have hvalid : key ≠ .invalid := by
      intro heq
      subst heq
      simp only [ScanFrame.keyOf] at hkey
      split_ifs at hkey <;> simp at hkey
    simp only [Option.getD_some, if_pos hvalid, Keyboard.store_ofMap hvalid]
    rfl

/-! ## Runs of the handler -/

/-- One keyboard interrupt: the content of the local `scancode` on entry, and the port accesses
    the handler makes. -/
structure KeyboardIrq where
  scancode : UInt8
  trace : List PortEvent
  deriving DecidableEq, Repr

/-- The read of this interrupt succeeds with `b`. -/
def KeyboardIrq.Delivers (irq : KeyboardIrq) (b : UInt8) : Prop :=
  (keyboardReadScancode irq.scancode).Runs irq.trace (0, b)

/-- One interrupt in a run; a run that has faulted stays faulted. -/
def Keyboard.step (k : Except Fault Keyboard) (irq : KeyboardIrq) :
    Option (Except Fault Keyboard) :=
  match k with
  | .error f => some (.error f)
  | .ok k => (k.handle irq.scancode).exec irq.trace

theorem Keyboard.step_of_delivers {k : Keyboard} {irq : KeyboardIrq} {b : UInt8}
    (h : irq.Delivers b) : Keyboard.step (.ok k) irq = some (k.handleScancode b) :=
  (runs_keyboardHandle h).mpr rfl

/-- The write a frame makes to the key table. -/
def ScanFrame.write (down : KbKey → Bool) (f : ScanFrame) : KbKey → Bool :=
  match f.denotes with
  | some (key, make) => Function.update down key make
  | none => down

/-- **One frame is one write.** The interrupts that deliver a frame take the table to the table
    with the frame's write done, and leave no prefix pending. -/
theorem Keyboard.run_frame {down : KbKey → Bool} {f : ScanFrame} {irqs : List KeyboardIrq}
    (h : List.Forall₂ KeyboardIrq.Delivers irqs f.bytes) :
    run Keyboard.step (.ok (Keyboard.ofMap down)) irqs =
      some (.ok (Keyboard.ofMap (f.write down))) := by
  cases f with
  | single b hb =>
    obtain ⟨irq, h₁, rfl⟩ : ∃ irq, irq.Delivers b ∧ irqs = [irq] := by
      cases h with
      | cons h₁ hnil => cases hnil; exact ⟨_, h₁, rfl⟩
    have hstep := Keyboard.handleScancode_ofMap down (show false = false → b ≠ doubleByte from fun _ => hb)
    rw [run, Keyboard.step_of_delivers h₁, Option.bind_some, run_nil, Option.some.injEq]
    refine hstep.trans ?_
    simp only [ScanFrame.write, ScanFrame.denotes]
    cases ScanFrame.keyOf false (b.toNat % 128) <;> rfl
  | extended b =>
    obtain ⟨irq₁, irq₂, h₁, h₂, rfl⟩ :
        ∃ irq₁ irq₂, irq₁.Delivers doubleByte ∧ irq₂.Delivers b ∧ irqs = [irq₁, irq₂] := by
      cases h with
      | cons h₁ h =>
        cases h with
        | cons h₂ hnil => cases hnil; exact ⟨_, _, h₁, h₂, rfl⟩
    have hstep := Keyboard.handleScancode_ofMap down
      (show true = false → b ≠ doubleByte from fun h => absurd h (by simp))
    -- the prefix only sets the flag
    have hpre : (Keyboard.ofMap down).handleScancode doubleByte =
        .ok { Keyboard.ofMap down with double_width := true } := rfl
    rw [run, Keyboard.step_of_delivers h₁, Option.bind_some, hpre, run,
      Keyboard.step_of_delivers h₂, Option.bind_some, run_nil, Option.some.injEq]
    refine hstep.trans ?_
    simp only [ScanFrame.write, ScanFrame.denotes]
    cases ScanFrame.keyOf true (b.toNat % 128) <;> rfl

theorem Keyboard.run_frames {down : KbKey → Bool} {fs : List ScanFrame}
    {irqs : List KeyboardIrq}
    (h : List.Forall₂ KeyboardIrq.Delivers irqs (fs.flatMap ScanFrame.bytes)) :
    run Keyboard.step (.ok (Keyboard.ofMap down)) irqs =
      some (.ok (Keyboard.ofMap (fs.foldl ScanFrame.write down))) := by
  induction fs generalizing down irqs with
  | nil =>
    cases h
    rfl
  | cons f fs ih =>
    rw [List.flatMap_cons] at h
    obtain ⟨irqs₁, irqs₂, rfl, h₁, h₂⟩ := forall₂_append_right h
    rw [run_append, Keyboard.run_frame h₁, Option.bind_some, ih h₂]
    rfl

/-- A fold of writes holds, at each key, the last write to it. -/
theorem foldl_write (down : KbKey → Bool) (fs : List ScanFrame) (key : KbKey) :
    fs.foldl ScanFrame.write down key = (lastDenoting key fs).getD (down key) := by
  induction fs using List.reverseRecOn with
  | nil => rfl
  | append_singleton fs f ih =>
    rw [List.foldl_append, List.foldl_cons, List.foldl_nil, ScanFrame.write]
    cases hd : f.denotes with
    | none =>
      refine ih.trans ?_
      simp [lastDenoting, hd]
    | some w =>
      obtain ⟨key', make⟩ := w
      by_cases hk : key = key'
      · subst hk
        simp [lastDenoting, hd]
      · refine (Function.update_of_ne hk _ _).trans (ih.trans ?_)
        simp [lastDenoting, hd, Ne.symm hk]

/-- **Over any stream of frames the key states are those of the last frames.** From the start-up
    state, with one byte per successful read, the whole stream leaves no prefix pending, has never
    indexed `keys[]` out of bounds (the result is `.ok`), and every key is down exactly when the
    last frame that denotes it is a make code. A further frame that denotes no key leaves the
    state as it is. -/
theorem keyboard_frames (fs : List ScanFrame) (irqs : List KeyboardIrq)
    (h : List.Forall₂ KeyboardIrq.Delivers irqs (fs.flatMap ScanFrame.bytes)) :
    ∃ k, run Keyboard.step (.ok Keyboard.startup) irqs = some (.ok k) ∧
      k.double_width = false ∧
      (∀ key, key ≠ .invalid → k.pressed key = .ok (lastDenoting key fs == some true)) ∧
      ∀ (f : ScanFrame) (irqs' : List KeyboardIrq), f.denotes = none → List.Forall₂ KeyboardIrq.Delivers irqs' f.bytes →
        run Keyboard.step (.ok k) irqs' = some (.ok k) := by
  refine ⟨Keyboard.ofMap (fs.foldl ScanFrame.write fun _ => false), ?_, rfl, ?_, ?_⟩
  · rw [Keyboard.startup_eq_ofMap]
    exact Keyboard.run_frames h
  · intro key hkey
    rw [Keyboard.pressed_ofMap hkey, foldl_write]
    cases lastDenoting key fs with
    | none => rfl
    | some make => cases make <;> rfl
  · intro f irqs' hf h'
    rw [Keyboard.run_frame h', ScanFrame.write, hf]

/-- An interrupt whose read succeeds at the first poll. -/
def promptIrq (b : UInt8) : KeyboardIrq where
  scancode := 0
  trace := [(.inb kbcRegStat, ⟨false, 0x01⟩), (.inb kbcRegStat, ⟨false, 0x01⟩),
    (.inb kbcRegOutBuf, ⟨false, b.toUInt32⟩)]

/-- `E0 48` (Up pressed), `01` (Esc pressed), `E0 C8` (Up released): Esc is down, Up is not. -/
theorem keyboard_frames_up_esc :
    ∃ k, run Keyboard.step (.ok Keyboard.startup) ([0xE0, 0x48, 0x01, 0xE0, 0xC8].map promptIrq) =
        some (.ok k) ∧
      k.pressed .esc = .ok true ∧ k.pressed .up = .ok false := by
  have hdeliver : List.Forall₂ KeyboardIrq.Delivers
      ([0xE0, 0x48, 0x01, 0xE0, 0xC8].map promptIrq) [0xE0, 0x48, 0x01, 0xE0, 0xC8] := by
    refine .cons ?_ (.cons ?_ (.cons ?_ (.cons ?_ (.cons ?_ .nil))))
    all_goals
      unfold KeyboardIrq.Delivers
      decide +kernel
  obtain ⟨k, hrun, -, hkeys, -⟩ :=
    keyboard_frames [.extended 0x48, .single 0x01 (by decide), .extended 0xC8] _ hdeliver
  exact ⟨k, hrun, hkeys .esc (by simp), hkeys .up (by simp)⟩

/-! ## The failing read -/

/-- Acting on the byte `b` changes nothing: no prefix is pending, `b` does not start one, and if
    it is the make or the break code of Esc, Esc is in that state already. -/
def Keyboard.Inert (k : Keyboard) (b : UInt8) : Prop :=
  k.double_width = false ∧ b ≠ doubleByte ∧
    (b = 0x01 → k.pressed .esc = .ok true) ∧ (b = 0x81 → k.pressed .esc = .ok false)

instance (k : Keyboard) (b : UInt8) : Decidable (k.Inert b) :=
  inferInstanceAs (Decidable (_ ∧ _ ∧ _ ∧ _))

theorem Keyboard.pressed_esc (k : Keyboard) : k.pressed .esc = .ok k.keys[0] := rfl

/-- Without a pending prefix, only `0xE0`, `0x01` and `0x81` can change the state. -/
theorem Keyboard.handleScancode_unprefixed {keys : Vector Bool 20} {b : UInt8}
    (hb : b ≠ doubleByte) :
    (Keyboard.mk false keys).handleScancode b = .ok (Keyboard.mk false
      (if b = 0x01 then keys.set 0 true else if b = 0x81 then keys.set 0 false else keys)) := by
  by_cases h1 : b = 0x01
  · subst h1
    rfl
  · by_cases h2 : b = 0x81
    · subst h2
      rfl
    · have hcode : b.toNat % 128 ≠ 1 := by
        intro h
        have hlt := b.toNat_lt
        have hcases : b.toNat = 0x01 ∨ b.toNat = 0x81 := by omega
        rcases hcases with h' | h'
        · exact h1 (UInt8.toNat_inj.mp h')
        · exact h2 (UInt8.toNat_inj.mp h')
      have hfresh : ¬ (b = doubleByte ∧ (Keyboard.mk false keys).double_width = false) :=
        fun h => hb h.1
      rw [Keyboard.handleScancode, if_neg hfresh, Keyboard.translate_eq, if_neg h1, if_neg h2]
      simp only [ScanFrame.keyOf, Bool.false_eq_true, if_false, if_neg hcode]
      rfl

/-- With a prefix pending, every byte clears it. -/
theorem Keyboard.handleScancode_prefixed {keys : Vector Bool 20} {b : UInt8} {k : Keyboard}
    (h : (Keyboard.mk true keys).handleScancode b = .ok k) : k.double_width = false := by
  have hfresh : ¬ (b = doubleByte ∧ (Keyboard.mk true keys).double_width = false) := by simp
  rw [Keyboard.handleScancode, if_neg hfresh] at h
  dsimp only at h
  split at h
  all_goals
    obtain ⟨keys', -, hk⟩ := bind_eq_ok.mp h
    exact Except.ok.inj hk ▸ rfl

theorem set_zero_eq_self_iff {keys : Vector Bool 20} {make : Bool} :
    keys.set 0 make = keys ↔ keys[0] = make := by
  constructor
  · intro h
    have := congrArg (fun v : Vector Bool 20 => v[0]) h
    simpa using this.symm
  · intro heq
    subst heq
    simp

theorem Keyboard.handleScancode_eq_self_iff {k : Keyboard} {b : UInt8} :
    k.handleScancode b = .ok k ↔ k.Inert b := by
  obtain ⟨dw, keys⟩ := k
  cases dw with
  | true =>
    constructor
    · intro h
      exact absurd (Keyboard.handleScancode_prefixed h) (by simp)
    · intro h
      exact absurd h.1 (by simp)
  | false =>
    by_cases hb : b = doubleByte
    · subst hb
      constructor
      · intro h
        exact absurd (congrArg Keyboard.double_width (Except.ok.inj h)) (by simp)
      · intro h
        exact absurd rfl h.2.1
    · rw [Keyboard.handleScancode_unprefixed hb, Keyboard.Inert, Keyboard.pressed_esc]
      simp only [Except.ok.injEq, Keyboard.mk.injEq, true_and, ne_eq, hb, not_false_eq_true]
      by_cases h1 : b = 0x01
      · subst h1
        simp [set_zero_eq_self_iff]
      · by_cases h2 : b = 0x81
        · subst h2
          simp [set_zero_eq_self_iff]
        · simp [h1, h2]

/-- **After a failed read the handler is inert for exactly the inert bytes.** Whatever the failing
    path — no byte ready, a status read that fails, an error flag, retries exhausted — the handler
    leaves the state alone if and only if the byte in `scancode` is inert: the last byte the
    read took from the data port if it took one, and the old stack content otherwise. -/
theorem keyboard_inert_iff (k : Keyboard) (scancode : UInt8) (tr : List PortEvent) (r : Int)
    (byte : UInt8) (hread : (keyboardReadScancode scancode).Runs tr (r, byte)) (_hfail : r ≠ 0) :
    (k.handle scancode).Runs tr (.ok k) ↔ k.Inert (lastByte scancode tr) := by
  have hbyte : byte = lastByte scancode tr := (keyboardReadScancode_stored hread).2
  rw [runs_keyboardHandle hread, ← hbyte, eq_comm]
  exact Keyboard.handleScancode_eq_self_iff

/-- A failing status read with `0x1E` on the stack is harmless. -/
theorem keyboard_inert_failed_status :
    (Keyboard.startup.handle 0x1E).Runs [(.inb kbcRegStat, ⟨true, 0⟩)] (.ok Keyboard.startup) :=
  (keyboard_inert_iff Keyboard.startup 0x1E [(.inb kbcRegStat, ⟨true, 0⟩)] 1 0x1E
    (by decide) (by decide)).mpr (by decide +kernel)

/-- The controller has no byte and the stack happens to hold `0x01`: Esc is pressed, although
    nobody touched the keyboard. -/
theorem keyboard_phantom_escape :
    ¬ ∀ (k : Keyboard) (scancode : UInt8) (tr : List PortEvent) (r : Int) (byte : UInt8),
      (keyboardReadScancode scancode).Runs tr (r, byte) → r ≠ 0 →
      (k.handle scancode).Runs tr (.ok k) := by
  intro h
  exact absurd (h Keyboard.startup 0x01 [(.inb kbcRegStat, ⟨false, 0x00⟩)] 1 0x01 (by decide)
    (by decide)) (by decide +kernel)

end Lcom
