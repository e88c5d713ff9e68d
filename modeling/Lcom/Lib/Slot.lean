import Mathlib.Tactic

/-!
# A place that is read without being emptied

A buffer with room for one item. Its producer puts items in and clears it when the next one begins; its
consumer looks at a flag and reads what is there, which leaves the item and the flag as they are. Items
are numbered from 1, and the numbers of those that were read are kept.

Whether every item is read once and in order (`Once`) is then a question of what comes between two
changes. `read_once_iff` answers it for two changes and a read: a run goes wrong for good at the first
step that does not meet the condition.
-/

namespace Lcom
namespace Lib

/-- `count` items have been put in, `full` marks the last of them, and `taken` are the numbers of the items
    that were read. -/
structure Slot where
  count : Nat
  full : Bool
  taken : List Nat

namespace Slot

def put (b : Slot) : Slot := { b with count := b.count + 1, full := true }

def clear (b : Slot) : Slot := { b with full := false }

def read (b : Slot) : Slot := if b.full then { b with taken := b.taken ++ [b.count] } else b

/-- The item there has not been read. -/
def Unread (b : Slot) : Prop := b.full = true ∧ b.count ∉ b.taken

/-- What holds of every slot: only an item that was put in is there, or read. -/
structure Valid (b : Slot) : Prop where
  held : b.full = true → 0 < b.count
  past : ∀ n ∈ b.taken, n ≤ b.count

/-- Every item has been read once and in order, except for the last one if it is still there. -/
inductive Once (b : Slot) : Prop where
  | level (taken : b.taken = List.range' 1 b.count)
  | pending (k : Nat) (count : b.count = k + 1) (full : b.full = true)
      (taken : b.taken = List.range' 1 k)

/-- An item has been read twice, or it can no longer be read. -/
inductive Spoilt (b : Slot) : Prop where
  | twice (taken : ¬ b.taken.Nodup)
  | lost (n : Nat) (positive : 0 < n) (past : n ≤ b.count) (missed : n ∉ b.taken)
      (gone : n = b.count → b.full = false)

theorem mem_range'_one {n k : Nat} : n ∈ List.range' 1 k ↔ 0 < n ∧ n ≤ k := by
  rw [List.mem_range'_1]
  omega

theorem Spoilt.not_once {b : Slot} (h : b.Spoilt) : ¬ b.Once := by
  rintro (taken | ⟨k, count, full, taken⟩)
  · cases h with
    | twice twice => exact twice (taken ▸ List.nodup_range')
    | lost n positive past missed gone =>
      rw [taken, mem_range'_one] at missed
      exact missed ⟨positive, past⟩
  · cases h with
    | twice twice => exact twice (taken ▸ List.nodup_range')
    | lost n positive past missed gone =>
      rw [taken, mem_range'_one] at missed
      have hlast : n = b.count := by omega
      rw [gone hlast] at full
      cases full

theorem unread_of_pending {b : Slot} {k : Nat} (count : b.count = k + 1) (full : b.full = true)
    (taken : b.taken = List.range' 1 k) : b.Unread := by
  refine ⟨full, ?_⟩
  rw [taken, mem_range'_one, count]
  omega

theorem Once.pending_of_unread {b : Slot} (h : b.Once) (hv : b.Valid) (hunread : b.Unread) :
    ∃ k, b.count = k + 1 ∧ b.taken = List.range' 1 k := by
  cases h with
  | level taken =>
    have hmissed := hunread.2
    rw [taken, mem_range'_one] at hmissed
    exact absurd ⟨hv.held hunread.1, le_refl _⟩ hmissed
  | pending k count full taken => exact ⟨k, count, taken⟩

theorem Once.level_of_read {b : Slot} (h : b.Once) (hread : ¬ b.Unread) :
    b.taken = List.range' 1 b.count := by
  cases h with
  | level taken => exact taken
  | pending k count full taken => exact absurd (unread_of_pending count full taken) hread

/-! ## What a producer does -/

/-- One turn of the producer: nothing, a clearing, or a new item. `begins` and `completes` say what it was
    asked for; a full slot is cleared whenever an item begins. -/
inductive Turn (begins completes : Prop) (b b' : Slot) : Prop where
  | idle (going : b.full = true → ¬ begins) (unfinished : ¬ completes) (eq : b' = b)
  | cleared (begun : begins) (unfinished : ¬ completes) (eq : b' = b.clear)
  | filled (empty : b.full = false) (finished : completes) (eq : b' = b.put)

variable {B C B' C' : Prop} {b b' b'' : Slot}

theorem Turn.valid (h : Turn B C b b') (hv : b.Valid) : b'.Valid := by
  cases h with
  | idle going unfinished eq => exact eq ▸ hv
  | cleared begun unfinished eq =>
    rw [eq]
    exact ⟨fun hfull => absurd hfull (by simp [clear]), hv.past⟩
  | filled empty finished eq =>
    rw [eq]
    exact ⟨fun _ => Nat.succ_pos _, fun n hn => Nat.le_succ_of_le (hv.past n hn)⟩

theorem Turn.unread_iff (h : Turn B C b b') (hv : b.Valid) :
    b'.Unread ↔ b.Unread ∧ ¬ B ∨ C := by
  cases h with
  | idle going unfinished eq =>
    rw [eq, or_iff_left unfinished]
    exact ⟨fun hunread => ⟨hunread, going hunread.1⟩, fun hunread => hunread.1⟩
  | cleared begun unfinished eq =>
    rw [eq]
    refine iff_of_false (fun hunread => absurd hunread.1 (by simp [clear])) ?_
    rintro (hold | hfinished)
    · exact hold.2 begun
    · exact unfinished hfinished
  | filled empty finished eq =>
    rw [eq]
    refine iff_of_true ⟨rfl, fun hmem => ?_⟩ (.inr finished)
    exact absurd (hv.past _ hmem) (Nat.not_succ_le_self b.count)

/-- The item there has been read already, before the turn and after it. -/
theorem Turn.stale_iff (h : Turn B C b b') (hv : b.Valid) :
    b'.full = true ∧ ¬ b'.Unread ↔ (b.full = true ∧ ¬ b.Unread) ∧ ¬ B := by
  cases h with
  | idle going unfinished eq =>
    rw [eq]
    exact ⟨fun hstale => ⟨hstale, going hstale.1⟩, fun hstale => hstale.1⟩
  | cleared begun unfinished eq =>
    rw [eq]
    exact iff_of_false (fun hstale => absurd hstale.1 (by simp [clear])) fun hstale => hstale.2 begun
  | filled empty finished eq =>
    have hunread := ((Turn.filled empty finished eq).unread_iff (B := B) hv).mpr (.inr finished)
    refine iff_of_false (fun hstale => hstale.2 hunread) fun hstale => ?_
    rw [empty] at hstale
    cases hstale.1.1

theorem Turn.once (h : Turn B C b b') (ho : b.Once) (hkept : b.Unread → ¬ B) : b'.Once := by
  cases h with
  | idle going unfinished eq => exact eq ▸ ho
  | cleared begun unfinished eq =>
    rw [eq]
    cases ho with
    | level taken => exact .level taken
    | pending k count full taken =>
      exact absurd begun (hkept (unread_of_pending count full taken))
  | filled empty finished eq =>
    rw [eq]
    cases ho with
    | level taken => exact .pending b.count rfl rfl taken
    | pending k count full taken =>
      rw [empty] at full
      cases full

theorem Turn.spoilt (h : Turn B C b b') (hs : b.Spoilt) : b'.Spoilt := by
  cases hs with
  | twice taken =>
    cases h with
    | idle going unfinished eq => exact .twice (eq ▸ taken)
    | cleared begun unfinished eq => exact .twice (eq ▸ taken)
    | filled empty finished eq => exact .twice (eq ▸ taken)
  | lost n positive past missed gone =>
    cases h with
    | idle going unfinished eq => exact eq ▸ .lost n positive past missed gone
    | cleared begun unfinished eq => exact eq ▸ .lost n positive past missed fun _ => rfl
    | filled empty finished eq =>
      refine eq ▸ .lost n positive (Nat.le_succ_of_le past) missed fun hlast => ?_
      exact absurd past (by simp only [put] at hlast; omega)

/-- An item that has not been read is lost when the next one begins. -/
theorem Turn.loses (h : Turn B C b b') (hv : b.Valid) (hunread : b.Unread) (hbegins : B) :
    b'.Spoilt := by
  cases h with
  | idle going unfinished eq => exact absurd hbegins (going hunread.1)
  | cleared begun unfinished eq =>
    exact eq ▸ .lost b.count (hv.held hunread.1) (le_refl _) hunread.2 fun _ => rfl
  | filled empty finished eq =>
    rw [hunread.1] at empty
    cases empty

/-! ## What a read does -/

theorem read_valid (hv : b.Valid) : b.read.Valid := by
  unfold read
  split
  · refine ⟨hv.held, fun n hn => ?_⟩
    rcases List.mem_append.mp hn with hold | hnew
    · exact hv.past n hold
    · exact (List.mem_singleton.mp hnew).le
  · exact hv

theorem not_unread_read (b : Slot) : ¬ b.read.Unread := by
  unfold read
  split
  · exact fun hunread => hunread.2 (List.mem_append_right _ List.mem_cons_self)
  · rename_i hempty
    exact fun hunread => hempty hunread.1

theorem read_once (hv : b.Valid) (ho : b.Once) (hfresh : b.full = true → b.Unread) :
    b.read.Once := by
  unfold read
  split
  · rename_i hfull
    obtain ⟨k, count, taken⟩ := ho.pending_of_unread hv (hfresh hfull)
    refine .level ?_
    dsimp only
    rw [taken, count, List.range'_1_concat, Nat.add_comm 1 k]
  · exact ho

theorem read_spoilt (hs : b.Spoilt) : b.read.Spoilt := by
  unfold read
  split
  · rename_i hfull
    cases hs with
    | twice taken =>
      exact .twice fun hnodup => taken (hnodup.sublist (List.sublist_append_left _ _))
    | lost n positive past missed gone =>
      refine .lost n positive past (fun hmem => ?_) gone
      rcases List.mem_append.mp hmem with hold | hnew
      · exact missed hold
      · rw [gone (List.mem_singleton.mp hnew)] at hfull
        cases hfull
  · exact hs

/-- An item that is read again has been read twice. -/
theorem read_repeats (hfull : b.full = true) (hstale : ¬ b.Unread) : b.read.Spoilt := by
  have hmem : b.count ∈ b.taken := by
    by_contra hmissed
    exact hstale ⟨hfull, hmissed⟩
  unfold read
  rw [if_pos hfull]
  refine .twice fun hnodup => ?_
  exact (List.nodup_append.mp hnodup).2.2 _ hmem _ List.mem_cons_self rfl

/-! ## Two turns and a read -/

/-- Neither turn begins an item before the one there has been read, and one of them does if that one has
    been read before. -/
def InTime (b : Slot) (B C B' : Prop) : Prop :=
  (b.Unread → ¬ B) ∧ (b.Unread ∨ C → ¬ B') ∧ (b.full = true ∧ ¬ b.Unread → B ∨ B')

/-- **When two turns and a read keep the order.** A read after two turns that were not in time cannot be
    made up for. -/
theorem read_once_iff (h : Turn B C b b') (h' : Turn B' C' b' b'') (hv : b.Valid) (ho : b.Once) :
    (b.InTime B C B' → b''.read.Once) ∧ (¬ b.InTime B C B' → b''.read.Spoilt) := by
  have hv' := h.valid hv
  have hv'' := h'.valid hv'
  have hstale : b''.full = true ∧ ¬ b''.Unread ↔ ((b.full = true ∧ ¬ b.Unread) ∧ ¬ B) ∧ ¬ B' :=
    (h'.stale_iff hv').trans (and_congr_left fun _ => h.stale_iff hv)
  constructor
  · rintro ⟨hfirst, hsecond, htest⟩
    have ho' := h.once ho hfirst
    have ho'' := h'.once ho' fun hunread => hsecond (((h.unread_iff hv).mp hunread).imp_left And.left)
    refine read_once hv'' ho'' fun hfull => ?_
    by_contra hold
    obtain ⟨⟨hboth, hnot⟩, hnot'⟩ := hstale.mp ⟨hfull, hold⟩
    exact (htest hboth).elim hnot hnot'
  · intro hlost
    by_cases hfirst : b.Unread → ¬ B
    · by_cases hsecond : b.Unread ∨ C → ¬ B'
      · have htest : ¬ (b.full = true ∧ ¬ b.Unread → B ∨ B') := fun htest =>
          hlost ⟨hfirst, hsecond, htest⟩
        obtain ⟨hboth, hneither⟩ := Classical.not_imp.mp htest
        obtain ⟨hfull, hold⟩ := hstale.mpr ⟨⟨hboth, fun hb => hneither (.inl hb)⟩,
          fun hb => hneither (.inr hb)⟩
        exact read_repeats hfull hold
      · obtain ⟨hunread, hbegins⟩ := Classical.not_imp.mp hsecond
        refine read_spoilt (h'.loses hv' ((h.unread_iff hv).mpr ?_) (not_not.mp hbegins))
        exact hunread.imp_left fun hu => ⟨hu, hfirst hu⟩
    · obtain ⟨hunread, hbegins⟩ := Classical.not_imp.mp hfirst
      exact read_spoilt (h'.spoilt (h.loses hv hunread (not_not.mp hbegins)))

end Slot

end Lib
end Lcom
