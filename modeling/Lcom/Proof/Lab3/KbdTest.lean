import Lcom.Lab3.KbdTest
import Lcom.Proof.Drivers.KbcIh
import Lcom.Proof.Lab3.TimedScan

/-!
# What the two scans print

Both loops cut the stream of scan codes into prints with the same buffer of two bytes, whose first one
tells that a prefix is pending. On the bytes that `kbc_ih` reads successfully this is a fold
(`frame`), so the two print the same. They look at `scan_code` to see whether they are done, however,
and not at `kbd_ih_valid`: `kbdTest_shown_iff` says when that ends a scan too early.
-/

namespace Lcom

open Lib

/-! ## Cutting a stream into scan codes -/

/-- What a byte does to the first byte of the buffer and to the prints. -/
def frame (f : UInt8 × List ScancodePrint) (b : UInt8) : UInt8 × List ScancodePrint :=
  if b = doubleByte then (b, f.2)
  else if f.1 = doubleByte then (0, f.2 ++ [⟨!anyBit b breakBit, [f.1, b]⟩])
  else (b, f.2 ++ [⟨!anyBit b breakBit, [b]⟩])

def frames (bytes : List UInt8) : UInt8 × List ScancodePrint := bytes.foldl frame (0, [])

/-- The byte arrays that are printed, one after the other. -/
def printedBytes (printed : List ScancodePrint) : List UInt8 := printed.flatMap fun p => p.bytes

/-- No prefix follows a pending one. -/
def SinglePrefixes (stream : List UInt8) : Prop := ¬ [doubleByte, doubleByte] <:+: stream

instance (stream : List UInt8) : Decidable (SinglePrefixes stream) :=
  inferInstanceAs (Decidable (¬ _))

/-- Every make flag is the complement of bit 7 of the last byte. -/
def MakesShown (printed : List ScancodePrint) : Prop :=
  ∀ p ∈ printed, ∃ last, p.bytes.getLast? = some last ∧ p.make = !anyBit last breakBit

instance (printed : List ScancodePrint) : Decidable (MakesShown printed) :=
  decidable_of_iff (∀ p ∈ printed, ∃ last ∈ p.bytes.getLast?, p.make = !anyBit last breakBit)
    (forall₂_congr fun _ _ => exists_congr fun _ => Iff.rfl)

theorem SinglePrefixes.of_prefix {bytes stream : List UInt8} (h : SinglePrefixes stream)
    (hpre : bytes <+: stream) : SinglePrefixes bytes := fun hin =>
  h (hin.trans hpre.isInfix)

theorem frames_concat (bytes : List UInt8) (b : UInt8) :
    frames (bytes ++ [b]) = frame (frames bytes) b := by
  unfold frames
  rw [List.foldl_append, List.foldl_cons, List.foldl_nil]

theorem makesShown_concat {printed : List ScancodePrint} (h : MakesShown printed) (make : Bool)
    (bytes : List UInt8) (b : UInt8) (hmake : make = !anyBit b breakBit) :
    MakesShown (printed ++ [⟨make, bytes ++ [b]⟩]) := by
  intro p hp
  rcases List.mem_append.mp hp with hp | hp
  · exact h p hp
  · rw [List.mem_singleton.mp hp]
    exact ⟨b, List.getLast?_concat, hmake⟩

theorem printedBytes_concat (printed : List ScancodePrint) (p : ScancodePrint) :
    printedBytes (printed ++ [p]) = printedBytes printed ++ p.bytes := by
  unfold printedBytes
  rw [List.flatMap_append, List.flatMap_singleton]

/-- The prints are those of the bytes: no byte is lost or printed twice, and what has not been printed
    yet is the pending prefix. -/
def Framed (bytes : List UInt8) (f : UInt8 × List ScancodePrint) : Prop :=
  printedBytes f.2 ++ (if f.1 = doubleByte then [doubleByte] else []) = bytes ∧ MakesShown f.2

theorem Framed.frame {bytes : List UInt8} {f : UInt8 × List ScancodePrint} {b : UInt8}
    (hf : Framed bytes f) (h : SinglePrefixes (bytes ++ [b])) :
    Framed (bytes ++ [b]) (frame f b) := by
  obtain ⟨byte0, printed⟩ := f
  obtain ⟨hbytes, hmake⟩ := hf
  dsimp only at hbytes hmake
  unfold Framed Lcom.frame
  by_cases hb : b = doubleByte
  · have hpending : byte0 ≠ doubleByte := by
      intro hpending
      rw [if_pos hpending] at hbytes
      refine h ⟨printedBytes printed, [], ?_⟩
      rw [List.append_nil, ← hbytes, hb, List.append_assoc]
      rfl
    rw [if_neg hpending, List.append_nil] at hbytes
    rw [if_pos hb]
    dsimp only
    rw [if_pos hb, hbytes, hb]
    exact ⟨rfl, hmake⟩
  · rw [if_neg hb]
    by_cases hpending : byte0 = doubleByte
    · rw [if_pos hpending] at hbytes ⊢
      dsimp only
      rw [if_neg (by decide), List.append_nil, printedBytes_concat, hpending, ← hbytes,
        List.append_assoc]
      exact ⟨rfl, makesShown_concat hmake _ [doubleByte] b rfl⟩
    · rw [if_neg hpending, List.append_nil] at hbytes
      rw [if_neg hpending]
      dsimp only
      rw [if_neg hb, List.append_nil, printedBytes_concat, hbytes]
      exact ⟨rfl, makesShown_concat hmake _ [] b rfl⟩

theorem frames_framed {bytes : List UInt8} (h : SinglePrefixes bytes) :
    Framed bytes (frames bytes) := by
  induction bytes using List.reverseRecOn with
  | nil => exact ⟨rfl, fun p hp => absurd hp List.not_mem_nil⟩
  | append_singleton bytes b ih =>
    rw [frames_concat]
    exact (ih (h.of_prefix (List.prefix_append bytes [b]))).frame h

/-- More bytes only add prints. -/
theorem frames_prefix {bytes bytes' : List UInt8} (h : bytes <+: bytes') :
    (frames bytes).2 <+: (frames bytes').2 := by
  obtain ⟨rest, rfl⟩ := h
  induction rest using List.reverseRecOn with
  | nil => rw [List.append_nil]
  | append_singleton rest b ih =>
    rw [← List.append_assoc, frames_concat]
    refine ih.trans ?_
    unfold frame
    split
    · exact List.prefix_refl _
    · split
      · exact List.prefix_append _ _
      · exact List.prefix_append _ _

/-! ## One call of `kbc_ih` -/

namespace KbdTest

/-- One call, with the port accesses it makes. -/
def step (s : KbdTest) (ports : List PortEvent) : Option KbdTest :=
  if s.looping then s.readScancode.exec ports else none

theorem handleScancode_eq (s : KbdTest) :
    s.handleScancode.kbd = s.kbd ∧ s.handleScancode.read = s.read ++ [s.kbd.scan_code] ∧
      (s.handleScancode.byte0, s.handleScancode.printed) =
        frame (s.byte0, s.printed) s.kbd.scan_code := by
  unfold handleScancode printScancode frame
  dsimp only
  split
  · exact ⟨rfl, rfl, rfl⟩
  · split
    · exact ⟨rfl, rfl, rfl⟩
    · exact ⟨rfl, rfl, rfl⟩

/-- What a call comes to: a byte that is handled, or none. In the second case the loop ends exactly when
    a flagged break code of the escape key was taken. -/
inductive Scanned (s s' : KbdTest) (ports : List PortEvent) : Prop where
  | handled (bytes : s'.read = s.read ++ [s'.kbd.scan_code])
      (framed : (s'.byte0, s'.printed) = frame (s.byte0, s.printed) s'.kbd.scan_code)
      (clean : ¬ FlaggedRead escBreakcode ports)
  | idle (bytes : s'.read = s.read) (framed : (s'.byte0, s'.printed) = (s.byte0, s.printed))
      (ended : s'.looping = false ↔ FlaggedRead escBreakcode ports)

theorem looping_iff (s : KbdTest) : s.looping = true ↔ s.kbd.scan_code ≠ escBreakcode := by
  unfold looping
  exact bne_iff_ne

theorem not_looping_iff (s : KbdTest) : s.looping = false ↔ s.kbd.scan_code = escBreakcode := by
  unfold looping
  exact bne_eq_false_iff_eq

theorem step_cases {s s' : KbdTest} {ports : List PortEvent} (h : step s ports = some s') :
    s.looping = true ∧ (∃ r rest, ports = (.inb kbcRegStat, r) :: rest) ∧ Scanned s s' ports := by
  unfold step at h
  split at h
  · rename_i hlooping
    obtain ⟨kbd, hkbd, rfl⟩ := Prog.runs_bind_ret.mp (show s.readScancode.Runs ports s' from h)
    obtain ⟨hpoll, houtcome⟩ := kbcIh_outcome hkbd
    refine ⟨hlooping, hpoll, ?_⟩
    have hcode := (looping_iff s).mp hlooping
    rcases houtcome with ⟨rfl, hnone⟩ | ⟨status, byte, hfirst, hone, ⟨hflag, rfl⟩ | ⟨hflag, rfl⟩⟩
    · refine .idle rfl rfl (iff_of_false ?_ (not_flaggedRead hnone))
      rw [Bool.not_eq_false]
      exact hlooping
    · refine .idle rfl rfl ?_
      rw [hfirst.flaggedRead_iff hone, not_looping_iff]
      exact (and_iff_right hflag).symm
    · obtain ⟨hkbd, hread, hframe⟩ := handleScancode_eq { s with kbd := ⟨byte, true⟩ }
      refine .handled ?_ ?_ ?_
      · rw [if_pos rfl, hread, hkbd]
      · rw [if_pos rfl, hframe, hkbd]
      · rw [hfirst.flaggedRead_iff hone]
        exact fun hboth => hflag hboth.1
  · cases h

/-! ## A whole run -/

/-- The prints are at every moment those of the bytes read so far. -/
theorem run_frames {s s' : KbdTest} {calls : List (List PortEvent)}
    (hs : (s.byte0, s.printed) = frames s.read) (h : run step s calls = some s') :
    (s'.byte0, s'.printed) = frames s'.read := by
  refine run_invariant (fun s => (s.byte0, s.printed) = frames s.read) ?_ hs h
  intro s ports s' hs hstep
  obtain ⟨-, -, hscanned⟩ := step_cases hstep
  cases hscanned with
  | handled bytes framed clean => rw [framed, hs, bytes, frames_concat]
  | idle bytes framed ended => rw [framed, hs, bytes]

/-- How a run stands after the port accesses `tr`. -/
inductive Outcome (s : KbdTest) (tr : List PortEvent) : Prop where
  | going (looping : s.looping = true) (bytes : escBreakcode ∉ s.read)
      (clean : ¬ FlaggedRead escBreakcode tr)
  | escape (looping : s.looping = false) (before : List UInt8)
      (bytes : s.read = before ++ [escBreakcode]) (first : escBreakcode ∉ before)
      (clean : ¬ FlaggedRead escBreakcode tr)
  | phantom (looping : s.looping = false) (bytes : escBreakcode ∉ s.read)
      (flagged : FlaggedRead escBreakcode tr)

/-- A run starts with a poll, if it starts at all. -/
theorem run_head {s s' : KbdTest} {calls : List (List PortEvent)}
    (h : run step s calls = some s') : ∀ e ∈ calls.flatten.head?, e.dataByte? = none := by
  cases calls with
  | nil => simp
  | cons ports calls =>
    obtain ⟨s₁, h₁, -⟩ := run_cons_eq_some.mp h
    obtain ⟨-, ⟨r, rest, rfl⟩, -⟩ := step_cases h₁
    simp

/-- A call after which the loop goes on. -/
theorem Scanned.going {s s' : KbdTest} {ports : List PortEvent} (h : Scanned s s' ports)
    (hs : escBreakcode ∉ s.read) (hlooping : s'.looping = true) :
    ¬ FlaggedRead escBreakcode ports ∧ escBreakcode ∉ s'.read := by
  cases h with
  | handled bytes framed clean =>
    refine ⟨clean, ?_⟩
    rw [bytes, List.mem_append, List.mem_singleton]
    rintro (hold | hnew)
    · exact hs hold
    · exact (looping_iff s').mp hlooping hnew.symm
  | idle bytes framed ended =>
    refine ⟨fun hflagged => ?_, bytes ▸ hs⟩
    rw [ended.mpr hflagged] at hlooping
    cases hlooping

/-- The call that ends the loop. -/
theorem Scanned.last {s s' : KbdTest} {ports : List PortEvent} (h : Scanned s s' ports)
    (hs : escBreakcode ∉ s.read) (hended : s'.looping = false) : Outcome s' ports := by
  cases h with
  | handled bytes framed clean =>
    rw [(not_looping_iff s').mp hended] at bytes
    exact .escape hended s.read bytes hs clean
  | idle bytes framed ended => exact .phantom hended (bytes ▸ hs) (ended.mp hended)

theorem run_outcome {s s' : KbdTest} {calls : List (List PortEvent)} (hs : s.looping = true)
    (hbytes : escBreakcode ∉ s.read) (h : run step s calls = some s') :
    Outcome s' calls.flatten := by
  induction calls generalizing s with
  | nil =>
    cases h
    exact .going hs hbytes (not_flaggedRead rfl)
  | cons ports calls ih =>
    obtain ⟨s₁, h₁, hrun⟩ := run_cons_eq_some.mp h
    obtain ⟨-, -, hscanned⟩ := step_cases h₁
    rw [List.flatten_cons]
    cases hended : s₁.looping with
    | false =>
      -- a run that goes on with its condition false has no more calls
      cases calls with
      | nil =>
        obtain rfl : s₁ = s' := Option.some.inj hrun
        rw [List.flatten_nil, List.append_nil]
        exact hscanned.last hbytes hended
      | cons next calls =>
        obtain ⟨s₂, h₂, -⟩ := run_cons_eq_some.mp hrun
        rw [(step_cases h₂).1] at hended
        cases hended
    | true =>
      obtain ⟨hclean, hread⟩ := hscanned.going hbytes hended
      have happend := @flaggedRead_append escBreakcode ports calls.flatten (run_head hrun)
      rw [or_iff_right hclean] at happend
      cases ih hended hread hrun with
      | going looping bytes clean => exact .going looping bytes (mt happend.mp clean)
      | escape looping before bytes first clean =>
        exact .escape looping before bytes first (mt happend.mp clean)
      | phantom looping bytes flagged => exact .phantom looping bytes (happend.mpr flagged)

/-! ## One scan, against the stream -/

/-- What a scan is to print of a stream. When it has returned that are the bytes up to and including the
    first break code of the escape key. As long as it is going it has not read one, and it has printed
    what it read but for a pending prefix. -/
structure Shown (stream : List UInt8) (returned : Bool) (s : KbdTest) : Prop where
  make : MakesShown s.printed
  all : returned = true → ∃ before rest, stream = before ++ escBreakcode :: rest ∧
    escBreakcode ∉ before ∧ printedBytes s.printed = before ++ [escBreakcode]
  going : returned = false → escBreakcode ∉ s.read ∧
    (printedBytes s.printed = s.read ∨ printedBytes s.printed ++ [doubleByte] = s.read)

/-- The prints have the bytes that were read, but for a pending prefix. -/
theorem printed_read {s : KbdTest} (hframes : (s.byte0, s.printed) = frames s.read)
    (hread : SinglePrefixes s.read) :
    MakesShown s.printed ∧
      (printedBytes s.printed = s.read ∨ printedBytes s.printed ++ [doubleByte] = s.read) := by
  obtain ⟨hbytes, hmake⟩ := frames_framed hread
  rw [← hframes] at hbytes hmake
  refine ⟨hmake, ?_⟩
  dsimp only at hbytes
  split at hbytes
  · exact .inr hbytes
  · exact .inl (by rwa [List.append_nil] at hbytes)

theorem Outcome.shown_iff {s : KbdTest} {tr : List PortEvent} {stream : List UInt8}
    (h : Outcome s tr) (hframes : (s.byte0, s.printed) = frames s.read)
    (hstream : SinglePrefixes stream) (hread : s.read <+: stream) :
    Shown stream (!s.looping) s ↔ ¬ FlaggedRead escBreakcode tr := by
  obtain ⟨hmake, hbytes⟩ := printed_read hframes (hstream.of_prefix hread)
  cases h with
  | going looping bytes clean =>
    rw [looping]
    exact iff_of_true ⟨hmake, fun h => absurd h (by simp), fun _ => ⟨bytes, hbytes⟩⟩ clean
  | escape looping before bytes first clean =>
    rw [looping]
    refine iff_of_true ⟨hmake, fun _ => ?_, fun h => absurd h (by simp)⟩ clean
    obtain ⟨rest, rfl⟩ := hread
    refine ⟨before, rest, by rw [bytes]; simp, first, ?_⟩
    rcases hbytes with hall | hpending
    · rw [hall, bytes]
    · -- the last byte is no prefix
      rw [bytes] at hpending
      have hlast := congrArg List.getLast? hpending
      rw [List.getLast?_concat, List.getLast?_concat] at hlast
      exact absurd hlast (by decide)
  | phantom looping bytes flagged =>
    rw [looping]
    refine iff_of_false (fun hshown => bytes ?_) (not_not.mpr flagged)
    obtain ⟨before, rest, -, -, hprinted⟩ := hshown.all rfl
    have hmem : escBreakcode ∈ printedBytes s.printed := by
      rw [hprinted]
      simp
    rcases hbytes with hall | hpending
    · rwa [hall] at hmem
    · rw [← hpending]
      exact List.mem_append_left _ hmem

theorem takeWhile_escape {before : List UInt8} (h : escBreakcode ∉ before) (rest : List UInt8) :
    (before ++ escBreakcode :: rest).takeWhile (· ≠ escBreakcode) = before := by
  have hne : ∀ b ∈ before, decide (b ≠ escBreakcode) = true := by
    intro b hb
    refine decide_eq_true fun heq => h ?_
    rwa [heq] at hb
  rw [List.takeWhile_append_of_pos hne, List.takeWhile_cons_of_neg (by simp), List.append_nil]

/-- Two scans of one stream that have both read up to the first break code have read the same. -/
theorem read_eq {stream before before' : List UInt8} (h : before ++ [escBreakcode] <+: stream)
    (h' : before' ++ [escBreakcode] <+: stream) (hfirst : escBreakcode ∉ before)
    (hfirst' : escBreakcode ∉ before') : before = before' := by
  obtain ⟨rest, rfl⟩ := h
  obtain ⟨rest', h'⟩ := h'
  rw [List.append_assoc, List.append_assoc, List.singleton_append, List.singleton_append] at h'
  rw [← takeWhile_escape hfirst rest, ← h', takeWhile_escape hfirst' rest']

/-- The two scans make the same prints, as far as both have come. -/
def SamePrints (returned returned' : Bool) (s s' : KbdTest) : Prop :=
  (s.printed <+: s'.printed ∨ s'.printed <+: s.printed) ∧
    (returned = true → returned' = true → s.printed = s'.printed)

theorem samePrints_of_clean {s s' : KbdTest} {tr tr' : List PortEvent} {stream : List UInt8}
    (h : Outcome s tr) (h' : Outcome s' tr') (hclean : ¬ FlaggedRead escBreakcode tr)
    (hclean' : ¬ FlaggedRead escBreakcode tr') (hframes : (s.byte0, s.printed) = frames s.read)
    (hframes' : (s'.byte0, s'.printed) = frames s'.read) (hread : s.read <+: stream)
    (hread' : s'.read <+: stream) : SamePrints (!s.looping) (!s'.looping) s s' := by
  have hprinted : s.printed = (frames s.read).2 := congrArg Prod.snd hframes
  have hprinted' : s'.printed = (frames s'.read).2 := congrArg Prod.snd hframes'
  constructor
  · rw [hprinted, hprinted']
    exact (List.prefix_or_prefix_of_prefix hread hread').imp frames_prefix frames_prefix
  · intro hreturned hreturned'
    have hescape : ∃ before, s.read = before ++ [escBreakcode] ∧ escBreakcode ∉ before := by
      cases h with
      | going looping bytes clean => simp [looping] at hreturned
      | escape looping before bytes first clean => exact ⟨before, bytes, first⟩
      | phantom looping bytes flagged => exact absurd flagged hclean
    have hescape' : ∃ before, s'.read = before ++ [escBreakcode] ∧ escBreakcode ∉ before := by
      cases h' with
      | going looping bytes clean => simp [looping] at hreturned'
      | escape looping before bytes first clean => exact ⟨before, bytes, first⟩
      | phantom looping bytes flagged => exact absurd flagged hclean'
    obtain ⟨before, hbytes, hfirst⟩ := hescape
    obtain ⟨before', hbytes', hfirst'⟩ := hescape'
    rw [hbytes] at hread hprinted
    rw [hbytes'] at hread' hprinted'
    rw [hprinted, hprinted', read_eq hread hread' hfirst hfirst']

/-! ## The loops -/

/-- A round of `kbd_test_scan` is one call of `kbc_ih`, or nothing at all. -/
theorem runs_iterate {s s' : KbdTest} {r : SysReply} {ports : List PortEvent}
    (h : (s.iterate r).Runs ports s') :
    s.readScancode.Runs ports s' ∨ s' = s ∧ ports = [] := by
  have hidle : ∀ {o : KbdTest}, (Prog.ret s : Driver KbdTest).Runs ports o → o = s ∧ ports = [] := by
    intro o hret
    obtain ⟨hports, rfl⟩ := Prog.runs_ret.mp hret
    exact ⟨rfl, hports⟩
  unfold iterate at h
  split at h
  · exact .inr (hidle h)
  · split at h
    · split at h
      · exact .inl h
      · exact .inr (hidle h)
    · exact .inr (hidle h)

end KbdTest

/-- Message by message, the loop makes a run of calls. -/
theorem run_calls {s s' : KbdTest} {es : List ScanEvent}
    (h : run (receiveStep KbdTest.looping KbdTest.iterate) s es = some s') :
    ∃ calls, run KbdTest.step s calls = some s' ∧
      calls.flatten = es.flatMap ScanEvent.ports := by
  induction es generalizing s with
  | nil => exact ⟨[], h, rfl⟩
  | cons e es ih =>
    obtain ⟨s₁, h₁, hrun⟩ := run_cons_eq_some.mp h
    obtain ⟨calls, hcalls, hports⟩ := ih hrun
    rw [List.flatMap_cons, ← hports]
    unfold receiveStep at h₁
    split at h₁
    · rename_i hlooping
      rcases KbdTest.runs_iterate (show (s.iterate e.received).Runs e.ports s₁ from h₁) with
        hread | ⟨rfl, hnone⟩
      · refine ⟨e.ports :: calls, run_cons_eq_some.mpr ⟨s₁, ?_, hcalls⟩, rfl⟩
        rw [KbdTest.step, if_pos hlooping]
        exact hread
      · exact ⟨calls, hcalls, by rw [hnone, List.nil_append]⟩
    · cases h₁

theorem kbdPollLoop_run {fuel : Nat} {s s' : KbdTest} {tr : List PortEvent} {ended : Bool}
    (hs : s.looping = true) (h : (kbdPollLoop fuel s).Runs tr (ended, s')) :
    ended = !s'.looping ∧ ∃ calls, run KbdTest.step s calls = some s' ∧ calls.flatten = tr := by
  induction fuel generalizing s tr with
  | zero =>
    obtain ⟨rfl, rfl, rfl⟩ := Prog.runs_ret_prod.mp h
    exact ⟨by simp [hs], [], rfl, rfl⟩
  | succ fuel ih =>
    rw [kbdPollLoop] at h
    obtain ⟨ports, s₁, tail, rfl, hread, hrest⟩ := Prog.runs_bind.mp h
    have hstep : KbdTest.step s ports = some s₁ := by
      rw [KbdTest.step, if_pos hs]
      exact hread
    split at hrest
    · rename_i hlooping
      obtain ⟨hended, calls, hrun, hcalls⟩ := ih hlooping hrest
      exact ⟨hended, ports :: calls, run_cons_eq_some.mpr ⟨s₁, hstep, hrun⟩,
        by rw [List.flatten_cons, hcalls]⟩
    · rename_i hlooping
      obtain ⟨rfl, rfl, rfl⟩ := Prog.runs_ret_prod.mp hrest
      exact ⟨by simp [hlooping], [ports], run_cons_eq_some.mpr ⟨s₁, hstep, rfl⟩, by simp⟩

/-! ## The two functions -/

/-- The subscription with which the scan starts was granted. -/
def Subscribed (tr : List SysEvent) : Prop := ∀ e ∈ tr.head?, e.2.failed = false

theorem kbdTestScan_run {kbd : KbdGlobals} {fuel : Nat} {tr : List SysEvent} {o : Option Int}
    {s : KbdTest} (h : (kbdTestScan kbd fuel).Runs tr (o, s)) :
    ¬ Subscribed tr ∧ o.isSome = true ∧ s = KbdTest.start kbd ∨
      Subscribed tr ∧ o.isSome = !s.looping ∧ ∃ calls,
        run KbdTest.step (KbdTest.start kbd) calls = some s ∧
          calls.flatten = tr.filterMap portOf := by
  unfold kbdTestScan at h
  rcases runs_call h with ⟨r, rfl, hfailed, ho⟩ | ⟨r, tr, rfl, hok, h⟩
  · obtain ⟨rfl, rfl⟩ := Prod.mk.inj ho
    refine .inl ⟨fun hsubscribed => ?_, rfl, rfl⟩
    have hgranted := hsubscribed _ rfl
    rw [hfailed] at hgranted
    cases hgranted
  · refine .inr ⟨fun e he => by cases he; exact hok, ?_⟩
    obtain ⟨loop, ⟨ended, s₁⟩, rest, rfl, hloop, hend⟩ := Prog.runs_bind.mp h
    have hrest : s₁ = s ∧ o.isSome = ended ∧ rest.filterMap portOf = [] := by
      cases ended with
      | false =>
        obtain ⟨rfl, rfl, rfl⟩ := Prog.runs_ret_prod.mp hend
        exact ⟨rfl, rfl, rfl⟩
      | true =>
        rcases runs_call hend with ⟨r', rfl, -, ho⟩ | ⟨r', tr, rfl, -, hret⟩
        · obtain ⟨rfl, rfl⟩ := Prod.mk.inj ho
          exact ⟨rfl, rfl, rfl⟩
        · obtain ⟨rfl, rfl, rfl⟩ := Prog.runs_ret_prod.mp hret
          exact ⟨rfl, rfl, rfl⟩
    obtain ⟨rfl, hsome, hports⟩ := hrest
    obtain ⟨hended, hrun, hall, -⟩ := receiveLoop_run hloop (show messages [] = [] from rfl) rfl
    obtain ⟨calls, hcalls, hflat⟩ := run_calls hrun
    refine ⟨hsome.trans hended, calls, hcalls, ?_⟩
    rw [hflat, hall, List.filterMap_cons_none rfl, List.filterMap_append, hports, List.append_nil]

theorem isRead_of_run {s s' : KbdTest} {calls : List (List PortEvent)}
    (h : run KbdTest.step s calls = some s') : ∀ e ∈ calls.flatten, e.isRead = true := by
  induction calls generalizing s with
  | nil => simp
  | cons ports calls ih =>
    obtain ⟨s₁, h₁, hrun⟩ := run_cons_eq_some.mp h
    rw [List.flatten_cons]
    refine List.forall_mem_append.mpr ⟨fun e he => ?_, ih hrun⟩
    unfold KbdTest.step at h₁
    split at h₁
    · obtain ⟨kbd, hkbd, -⟩ := Prog.runs_bind_ret.mp (show s.readScancode.Runs ports s₁ from h₁)
      obtain ⟨port, hport⟩ := (asks_kbcIh _).trace hkbd e he
      unfold PortEvent.isRead
      rw [hport]
    · cases h₁

theorem kbdTestPoll_run {command : UInt8} {kbd : KbdGlobals} {fuel : Nat} {tr : List PortEvent}
    {o : Option Int} {s : KbdTest} (hkbd : (KbdTest.start kbd).looping = true)
    (h : (kbdTestPoll command kbd fuel).Runs tr (o, s)) :
    o.isSome = !s.looping ∧ ∃ calls, run KbdTest.step (KbdTest.start kbd) calls = some s ∧
      (FlaggedRead escBreakcode calls.flatten ↔
        FlaggedRead escBreakcode (tr.takeWhile PortEvent.isRead)) := by
  obtain ⟨loop, ⟨ended, s₁⟩, rest, rfl, hloop, hend⟩ := Prog.runs_bind.mp h
  obtain ⟨hended, calls, hrun, rfl⟩ := kbdPollLoop_run hkbd hloop
  have hrest : s₁ = s ∧ o.isSome = ended ∧ consumed (rest.takeWhile PortEvent.isRead) = [] := by
    cases ended with
    | false =>
      obtain ⟨rfl, rfl, rfl⟩ := Prog.runs_ret_prod.mp hend
      exact ⟨rfl, rfl, rfl⟩
    | true =>
      rcases Prog.runs_check.mp hend with ⟨r, -, henable, ho⟩ | ⟨tr₁, tr₂, rfl, henable, hret⟩
      · obtain ⟨rfl, rfl⟩ := Prod.mk.inj ho
        exact ⟨rfl, rfl, keyboardEnableInterrupts_reads henable⟩
      · obtain ⟨rfl, rfl, rfl⟩ := Prog.runs_ret_prod.mp hret
        rw [List.append_nil]
        exact ⟨rfl, rfl, keyboardEnableInterrupts_reads henable⟩
  obtain ⟨rfl, hsome, hnone⟩ := hrest
  refine ⟨hsome.trans hended, calls, hrun, ?_⟩
  have hhead : ∀ e ∈ (rest.takeWhile PortEvent.isRead).head?, e.dataByte? = none := fun e he =>
    List.filterMap_eq_nil_iff.mp hnone e (List.mem_of_head? he)
  rw [List.takeWhile_append_of_pos (isRead_of_run hrun), flaggedRead_append hhead,
    or_iff_left (not_flaggedRead hnone)]

/-- **When the two scans print the stream.** From the start of the program, of any stream in which no
    prefix follows a pending one. -/
theorem kbdTest_shown_iff {stream : List UInt8} (hstream : SinglePrefixes stream)
    {fuel fuel' : Nat} {command : UInt8} {tr : List SysEvent} {tr' : List PortEvent}
    {o o' : Option Int} {s s' : KbdTest}
    (hscan : (kbdTestScan .startup fuel).Runs tr (o, s))
    (hpoll : (kbdTestPoll command .startup fuel').Runs tr' (o', s'))
    (hread : s.read <+: stream) (hread' : s'.read <+: stream) :
    (KbdTest.Shown stream o.isSome s ∧ KbdTest.Shown stream o'.isSome s' ∧
        KbdTest.SamePrints o.isSome o'.isSome s s') ↔
      Subscribed tr ∧ ¬ FlaggedRead escBreakcode (tr.filterMap portOf) ∧
        ¬ FlaggedRead escBreakcode (tr'.takeWhile PortEvent.isRead) := by
  have hstart : (KbdTest.start .startup).looping = true := rfl
  have hnone : escBreakcode ∉ (KbdTest.start .startup).read := List.not_mem_nil
  obtain ⟨hreturned', calls', hrun', hflagged'⟩ := kbdTestPoll_run hstart hpoll
  have houtcome' := KbdTest.run_outcome hstart hnone hrun'
  have hframes' := KbdTest.run_frames rfl hrun'
  have hshown' := houtcome'.shown_iff hframes' hstream hread'
  rcases kbdTestScan_run hscan with ⟨hrefused, hsome, rfl⟩ | ⟨hsubscribed, hreturned, calls, hrun, hcalls⟩
  · -- a scan that could not subscribe has printed nothing
    refine iff_of_false (fun h => ?_) fun h => hrefused h.1
    obtain ⟨before, rest, -, -, hprinted⟩ := h.1.all hsome
    exact List.append_ne_nil_of_right_ne_nil before (by simp) hprinted.symm
  · have houtcome := KbdTest.run_outcome hstart hnone hrun
    have hframes := KbdTest.run_frames rfl hrun
    have hshown := houtcome.shown_iff hframes hstream hread
    rw [hreturned, hreturned', hshown, hshown', ← hflagged', ← hcalls]
    constructor
    · intro h
      exact ⟨hsubscribed, h.1, h.2.1⟩
    · intro h
      exact ⟨h.2.1, h.2.2, KbdTest.samePrints_of_clean houtcome houtcome' h.2.1 h.2.2 hframes hframes'
        hread hread'⟩

/-! ## A stream that is printed, and one that is not -/

/-- A scan by interrupts of the codes. -/
def scanByInterrupts (codes : List UInt8) : List SysEvent :=
  granted (.irqSetPolicy kbcIrqKbd true .keyboard) 0 ::
    codes.flatMap (fun code => interrupt 2 :: scancodePorts code) ++ [granted (.irqRmPolicy .keyboard) 0]

/-- A scan by polling, whose calls of `kbc_ih` make the accesses `ports`. Afterwards the controller does
    not answer any more. -/
def scanByPolling (ports : List SysEvent) : List PortEvent :=
  ports.filterMap portOf ++ [(.inb kbcRegStat, ⟨true, 0⟩)]

/-- `A` pressed, the right arrow released, and the escape key. -/
def someStream : List UInt8 := [0x1E, 0xE0, 0xCD, 0x81]

theorem kbdTest_shown_some :
    ∃ s s', (kbdTestScan .startup 5).Runs (scanByInterrupts someStream) (some 0, s) ∧
      (kbdTestPoll 0 .startup 5).Runs (scanByPolling (someStream.flatMap scancodePorts))
        (some 1, s') ∧
      (KbdTest.Shown someStream true s ∧ KbdTest.Shown someStream true s' ∧
          KbdTest.SamePrints true true s s' ↔
        Subscribed (scanByInterrupts someStream) ∧
          ¬ FlaggedRead escBreakcode ((scanByInterrupts someStream).filterMap portOf) ∧
          ¬ FlaggedRead escBreakcode
            ((scanByPolling (someStream.flatMap scancodePorts)).takeWhile PortEvent.isRead)) := by
  let printed : List ScancodePrint := [⟨true, [0x1E]⟩, ⟨false, [0xE0, 0xCD]⟩, ⟨false, [0x81]⟩]
  let s : KbdTest := ⟨⟨0x81, true⟩, 0x81, 0xCD, printed, someStream⟩
  have hscan : (kbdTestScan .startup 5).Runs (scanByInterrupts someStream) (some 0, s) := by
    decide +kernel
  have hpoll : (kbdTestPoll 0 .startup 5).Runs (scanByPolling (someStream.flatMap scancodePorts))
      (some 1, s) := by decide +kernel
  exact ⟨s, s, hscan, hpoll, kbdTest_shown_iff (by decide) hscan hpoll (List.prefix_refl _)
    (List.prefix_refl _)⟩

/-- The accesses of a `kbc_ih()` that takes a break code of the escape key with a parity error. -/
def flaggedEscape : List SysEvent :=
  [granted (.port (.inb kbcRegStat)) 1, granted (.port (.inb kbcRegStat)) 0x81,
    granted (.port (.inb kbcRegOutBuf)) 0x81]

/-- A scan by polling that ends with a byte nobody has read successfully. -/
theorem kbdTest_phantom :
    ¬ ∀ stream fuel fuel' command tr tr' o o' s s', SinglePrefixes stream →
      (kbdTestScan .startup fuel).Runs tr (o, s) →
      (kbdTestPoll command .startup fuel').Runs tr' (o', s') → s.read <+: stream →
      s'.read <+: stream →
      KbdTest.Shown stream o.isSome s ∧ KbdTest.Shown stream o'.isSome s' ∧
        KbdTest.SamePrints o.isSome o'.isSome s s' := by
  intro h
  let printed : List ScancodePrint := [⟨true, [0x1E]⟩, ⟨false, [0xE0, 0xCD]⟩, ⟨false, [0x81]⟩]
  have hscan : (kbdTestScan .startup 5).Runs (scanByInterrupts someStream)
      (some 0, ⟨⟨0x81, true⟩, 0x81, 0xCD, printed, someStream⟩) := by decide +kernel
  have hpoll : (kbdTestPoll 0 .startup 5).Runs (scanByPolling flaggedEscape)
      (some 1, ⟨⟨0x81, false⟩, 0, 0, [], []⟩) := by decide +kernel
  obtain ⟨-, hshown, -⟩ := h someStream _ _ _ _ _ _ _ _ _ (by decide) hscan hpoll
    (List.prefix_refl _) (List.nil_prefix)
  obtain ⟨before, rest, -, -, hprinted⟩ := hshown.all rfl
  exact List.append_ne_nil_of_right_ne_nil before (by simp) hprinted.symm

end Lcom
