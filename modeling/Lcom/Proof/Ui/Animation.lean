import Lcom.Ui.Sprite
import Mathlib.Data.Nat.ModEq

/-!
# The animation of a sprite

Two counters share the work: `current_delay` counts the draws of one frame, and `current_frame`
moves on when it comes round. Both are a function of how often the sprite was drawn — quotient and
remainder of one division — which is what keeps the frame inside the arrays at every draw.
-/

namespace Lcom

open Lib

namespace Sprite

/-- The frame a sprite shows after `n` draws. -/
def frameAfter (framesc delay : UInt32) (n : Nat) : Nat :=
  if delay = 0 then 0 else n / (delay.toNat + 1) % framesc.toNat

/-- The counters stand where `n` draws leave them. -/
structure OnSchedule (s : Sprite) (n : Nat) : Prop where
  frame : s.current_frame.toNat = frameAfter s.framesc s.delay n
  count : s.current_delay.toNat = n % (s.delay.toNat + 1)

/-- The additions `Sprite_draw` makes on its counters stay inside 32 bits. -/
structure NoWrap (s : Sprite) : Prop where
  frame : (s.current_frame + 1).toNat = s.current_frame.toNat + 1
  count : s.current_delay ≠ s.delay → (s.current_delay + 1).toNat = s.current_delay.toNat + 1

/-- The arrays hold an entry for each frame. -/
structure ArraysHold (s : Sprite) : Prop where
  some : 0 < s.framesc.toNat
  offsets : s.offsets.length = s.framesc.toNat
  sizes : s.sizes.length = s.framesc.toNat

/-- A draw changes the counters only. -/
structure SameFrames (s s' : Sprite) : Prop where
  offsets : s'.offsets = s.offsets
  sizes : s'.sizes = s.sizes
  framesc : s'.framesc = s.framesc
  delay : s'.delay = s.delay
  transparent : s'.transparent = s.transparent

theorem SameFrames.trans {s s' s'' : Sprite} (h : SameFrames s s') (h' : SameFrames s' s'') :
    SameFrames s s'' :=
  ⟨h'.offsets.trans h.offsets, h'.sizes.trans h.sizes, h'.framesc.trans h.framesc,
    h'.delay.trans h.delay, h'.transparent.trans h.transparent⟩

theorem frameAfter_lt {framesc : UInt32} (h : 0 < framesc.toNat) (delay : UInt32) (n : Nat) :
    frameAfter framesc delay n < framesc.toNat := by
  unfold frameAfter
  split
  · exact h
  · exact Nat.mod_lt _ h

section
variable {s : Sprite} {n : Nat}

theorem OnSchedule.frame_lt (h : s.OnSchedule n) (hf : 0 < s.framesc.toNat) :
    s.current_frame.toNat < s.framesc.toNat := by
  rw [h.frame]
  exact frameAfter_lt hf _ _

theorem OnSchedule.count_le (h : s.OnSchedule n) : s.current_delay.toNat ≤ s.delay.toNat := by
  have hlt : n % (s.delay.toNat + 1) < s.delay.toNat + 1 := Nat.mod_lt _ (Nat.succ_pos _)
  have hcount := h.count
  omega

theorem OnSchedule.noWrap (h : s.OnSchedule n) (hf : 0 < s.framesc.toNat) : s.NoWrap where
  frame := by
    have hlt := h.frame_lt hf
    have htop := s.framesc.toNat_lt
    rw [UInt32.toNat_add]
    exact Nat.mod_eq_of_lt (by simp; omega)
  count := by
    intro hne
    have hle := h.count_le
    have htop := s.delay.toNat_lt
    have hne' : s.current_delay.toNat ≠ s.delay.toNat := fun heq => hne (UInt32.toNat_inj.mp heq)
    rw [UInt32.toNat_add]
    exact Nat.mod_eq_of_lt (by simp; omega)

theorem sameFrames_advance (s : Sprite) : s.SameFrames s.advance := by
  unfold advance
  split
  · exact ⟨rfl, rfl, rfl, rfl, rfl⟩
  · split <;> exact ⟨rfl, rfl, rfl, rfl, rfl⟩

theorem advance_img (s : Sprite) : s.advance.img = s.img := by
  unfold advance
  split
  · rfl
  · split <;> rfl

/-- The last draw of a frame: the quotient moves on, the remainder starts again. -/
theorem divMod_succ_of_eq {n d : Nat} (h : n % (d + 1) = d) :
    (n + 1) / (d + 1) = n / (d + 1) + 1 ∧ (n + 1) % (d + 1) = 0 := by
  have hn := Nat.div_add_mod n (d + 1)
  have hpos : 0 < d + 1 := Nat.succ_pos d
  refine (Nat.div_mod_unique hpos).mpr ⟨?_, hpos⟩
  rw [Nat.mul_add]
  omega

/-- Any other draw: the quotient stays, the remainder moves on. -/
theorem divMod_succ_of_ne {n d : Nat} (h : n % (d + 1) ≠ d) :
    (n + 1) / (d + 1) = n / (d + 1) ∧ (n + 1) % (d + 1) = n % (d + 1) + 1 := by
  have hn := Nat.div_add_mod n (d + 1)
  have hpos : 0 < d + 1 := Nat.succ_pos d
  have hlt := Nat.mod_lt n hpos
  refine (Nat.div_mod_unique hpos).mpr ⟨?_, ?_⟩
  · omega
  · omega

/-- One draw keeps the schedule. -/
theorem OnSchedule.advance (h : s.OnSchedule n) (hf : 0 < s.framesc.toNat) :
    s.advance.OnSchedule (n + 1) := by
  have hwrap := h.noWrap hf
  have hcount := h.count
  have hframe := h.frame
  unfold Sprite.advance
  by_cases hzero : s.delay = 0
  · -- a sprite without a delay stands still
    rw [if_pos hzero]
    refine ⟨?_, ?_⟩
    · rw [hframe]
      unfold frameAfter
      rw [if_pos hzero, if_pos hzero]
    · rw [hcount, hzero]
      simp [Nat.mod_one]
  · rw [if_neg hzero]
    unfold frameAfter at hframe
    rw [if_neg hzero] at hframe
    by_cases hlast : s.current_delay = s.delay
    · rw [if_pos hlast]
      rw [hlast] at hcount
      obtain ⟨hdiv, hmod⟩ := divMod_succ_of_eq hcount.symm
      refine ⟨?_, ?_⟩
      · unfold frameAfter
        dsimp only
        rw [if_neg hzero, UInt32.toNat_mod, hwrap.frame, hframe, hdiv, Nat.mod_add_mod]
      · dsimp only
        rw [hmod]
        rfl
    · rw [if_neg hlast]
      have hne : n % (s.delay.toNat + 1) ≠ s.delay.toNat := by
        rw [← hcount]
        exact fun heq => hlast (UInt32.toNat_inj.mp heq)
      obtain ⟨hdiv, hmod⟩ := divMod_succ_of_ne hne
      refine ⟨?_, ?_⟩
      · unfold frameAfter
        dsimp only
        rw [if_neg hzero, hframe, hdiv]
      · dsimp only
        rw [hwrap.count hlast, hcount, hmod]

/-! ## A run of draws -/

theorem frameOf_eq_ok {vs : List Vec2} {i : UInt32} (h : i.toNat < vs.length) :
    frameOf vs i = .ok vs[i.toNat] := by
  unfold frameOf
  rw [List.getElem?_eq_getElem h]

/-- A sprite with an image draws: the frame is one of its arrays, and only the counters move. -/
theorem draw_of_valid {img : XpmImage} (himg : s.img = some img) (hvalid : img.type ≠ .invalid)
    (hframes : s.ArraysHold) (h : s.OnSchedule n) (position : Vec2) :
    ∃ call, s.draw position = .ok (s.advance, some call) := by
  have hlt := h.frame_lt hframes.some
  have hoffset := frameOf_eq_ok (hframes.offsets.symm ▸ hlt)
  have hsize := frameOf_eq_ok (hframes.sizes.symm ▸ hlt)
  unfold draw
  rw [himg]
  dsimp only
  rw [if_neg hvalid, hoffset, hsize]
  exact ⟨_, rfl⟩

theorem SameFrames.arraysHold {s' : Sprite} (h : s.SameFrames s') (hframes : s.ArraysHold) :
    s'.ArraysHold where
  some := h.framesc ▸ hframes.some
  offsets := by rw [h.offsets, h.framesc, hframes.offsets]
  sizes := by rw [h.sizes, h.framesc, hframes.sizes]

/-- A sprite without an image draws nothing, and its counters stand still. -/
theorem drawAll_of_null (himg : s.img = none) (positions : List Vec2) :
    s.drawAll positions = .ok (s, []) := by
  induction positions with
  | nil => rfl
  | cons position rest ih =>
    have hdraw : s.draw position = .ok (s, none) := by
      unfold draw
      rw [himg]
    unfold drawAll
    rw [hdraw, ok_bind]
    dsimp only
    rw [ih]
    rfl

/-- A sprite with an image draws every time, and keeps its schedule. -/
theorem drawAll_of_valid {img : XpmImage} (hvalid : img.type ≠ .invalid) (positions : List Vec2)
    {s : Sprite} {n : Nat} (himg : s.img = some img) (hframes : s.ArraysHold) (h : s.OnSchedule n) :
    ∃ s' calls, s.drawAll positions = .ok (s', calls) ∧ calls.length = positions.length ∧
      s.SameFrames s' ∧ s'.OnSchedule (n + calls.length) := by
  induction positions generalizing s n with
  | nil => exact ⟨s, [], rfl, rfl, ⟨rfl, rfl, rfl, rfl, rfl⟩, h⟩
  | cons position rest ih =>
    obtain ⟨call, hdraw⟩ := draw_of_valid himg hvalid hframes h position
    have hsame := sameFrames_advance s
    obtain ⟨s', calls, hrest, hlen, hsame', hn⟩ := ih (s.advance_img.trans himg)
      (hsame.arraysHold hframes) (h.advance hframes.some)
    refine ⟨s', call :: calls, ?_, by rw [List.length_cons, List.length_cons, hlen],
      hsame.trans hsame', ?_⟩
    · unfold drawAll
      rw [hdraw, ok_bind]
      dsimp only
      rw [hrest]
      rfl
    · rw [List.length_cons, Nat.add_comm calls.length 1, ← Nat.add_assoc]
      exact hn

/-- A sprite whose image did not load draws nothing either. -/
theorem drawAll_of_invalid {img : XpmImage} (himg : s.img = some img) (hinvalid : img.type = .invalid)
    (h : s.OnSchedule n) (positions : List Vec2) :
    ∃ s', s.drawAll positions = .ok (s', []) ∧ s.SameFrames s' ∧ s'.OnSchedule n := by
  cases positions with
  | nil => exact ⟨s, rfl, ⟨rfl, rfl, rfl, rfl, rfl⟩, h⟩
  | cons position rest =>
    refine ⟨{ s with img := none }, ?_, ⟨rfl, rfl, rfl, rfl, rfl⟩, h.frame, h.count⟩
    have hdraw : s.draw position = .ok ({ s with img := none }, none) := by
      unfold draw
      rw [himg]
      exact if_pos hinvalid
    unfold drawAll
    rw [hdraw, ok_bind]
    dsimp only
    rw [drawAll_of_null rfl]
    rfl

end

section
variable (img : XpmImage) (offsets sizes : List Vec2) (framesc delay : UInt32) (transparent : Bool)

/-- The counters of a fresh sprite. -/
theorem onSchedule_create : (create img offsets sizes framesc delay transparent).OnSchedule 0 where
  frame := by
    change 0 = frameAfter framesc delay 0
    unfold frameAfter
    rw [Nat.zero_div, Nat.zero_mod, ite_self]
  count := (Nat.zero_mod _).symm

/-- **The animation is on schedule after every run of draws**, whatever the delay and the number of
    frames: no draw leaves the arrays, and no counter wraps. -/
theorem drawAll_create (hframesc : 1 ≤ framesc) (hoffsets : offsets.length = framesc.toNat)
    (hsizes : sizes.length = framesc.toNat) (positions : List Vec2) :
    ∃ s calls, (create img offsets sizes framesc delay transparent).drawAll positions =
        .ok (s, calls) ∧
      (img.type ≠ .invalid → calls.length = positions.length) ∧
      s.current_frame.toNat = (if delay = 0 then 0
        else calls.length / (delay.toNat + 1) % framesc.toNat) ∧
      s.current_frame < framesc ∧ s.current_delay ≤ delay ∧ s.NoWrap := by
  have hpos : 0 < framesc.toNat := UInt32.le_iff_toNat_le.mp hframesc
  have hframes : (create img offsets sizes framesc delay transparent).ArraysHold :=
    ⟨hpos, hoffsets, hsizes⟩
  have hstart := onSchedule_create img offsets sizes framesc delay transparent
  have hrun : ∃ s calls, (create img offsets sizes framesc delay transparent).drawAll positions =
      .ok (s, calls) ∧ (img.type ≠ .invalid → calls.length = positions.length) ∧
      (create img offsets sizes framesc delay transparent).SameFrames s ∧
      s.OnSchedule calls.length := by
    by_cases hvalid : img.type = .invalid
    · obtain ⟨s, hdraw, hsame, hn⟩ := drawAll_of_invalid rfl hvalid hstart positions
      exact ⟨s, [], hdraw, fun h => absurd hvalid h, hsame, hn⟩
    · obtain ⟨s, calls, hdraw, hlen, hsame, hn⟩ :=
        drawAll_of_valid hvalid positions rfl hframes hstart
      rw [Nat.zero_add] at hn
      exact ⟨s, calls, hdraw, fun _ => hlen, hsame, hn⟩
  obtain ⟨s, calls, hdraw, hlen, hsame, hn⟩ := hrun
  have hfc : s.framesc = framesc := hsame.framesc
  have hd : s.delay = delay := hsame.delay
  have hspos : 0 < s.framesc.toNat := hfc ▸ hpos
  have hframe := hn.frame
  unfold frameAfter at hframe
  rw [hfc, hd] at hframe
  refine ⟨s, calls, hdraw, hlen, hframe, ?_, ?_, hn.noWrap hspos⟩
  · rw [UInt32.lt_iff_toNat_lt, ← hfc]
    exact hn.frame_lt hspos
  · rw [UInt32.le_iff_toNat_le, ← hd]
    exact hn.count_le

/-- Two frames of 2³² draws each: after two draws the first one is still shown. -/
theorem drawAll_create_slow :
    ∃ s calls, (create ⟨.indexed, 68, 34, []⟩ [⟨0, 0⟩, ⟨34, 0⟩] [⟨34, 34⟩, ⟨34, 34⟩] 2 0xFFFFFFFF
      false).drawAll [⟨0, 0⟩, ⟨5, 5⟩] = .ok (s, calls) ∧ s.current_frame.toNat = 0 := by
  obtain ⟨s, calls, hdraw, hlen, hframe, -⟩ := drawAll_create ⟨.indexed, 68, 34, []⟩
    [⟨0, 0⟩, ⟨34, 0⟩] [⟨34, 34⟩, ⟨34, 34⟩] 2 0xFFFFFFFF false (by decide) rfl rfl
    [⟨0, 0⟩, ⟨5, 5⟩]
  refine ⟨s, calls, hdraw, ?_⟩
  rw [hframe, hlen (by decide)]
  decide

end

end Sprite

end Lcom
