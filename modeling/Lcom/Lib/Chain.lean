import Lcom.Lib.Memory

/-!
# Cells that are linked in a heap

A heap maps the addresses of the allocated cells to what they hold; a pointer is an address or NULL.
Reading or writing through a pointer that is not the address of an allocated cell is a `Fault`, and so
is freeing it, so a program whose result is `.ok` touches no cell after it was freed.

`Chain` says what a pointer leads to: cell after cell along a link field, up to another pointer. Its
rules follow the operations: a chain is cut and joined (`chain_append`), it does not see what happens
to other cells (`Chain.congr`), and a chain up to NULL is the only one from where it starts
(`Chain.unique`). That is why it cannot come back to a cell (`Chain.nodup`), and why its cells are all
that can be reached (`Chain.reachable_iff`).
-/

namespace Lcom
namespace Lib

/-- What the allocated cells hold. -/
abbrev Heap (ι β : Type) := ι → Option β

namespace Heap

variable {ι β : Type}

/-- `*p`. -/
def read (h : Heap ι β) : Option ι → Except Fault β
  | none => .error .nullDereference
  | some a =>
    match h a with
    | none => .error .outOfBounds
    | some c => .ok c

theorem read_of_eq {h : Heap ι β} {a : ι} {c : β} (ha : h a = some c) : h.read (some a) = .ok c := by
  unfold read
  dsimp only
  rw [ha]

section
variable [DecidableEq ι]

/-- The cell gets a content: a block that is handed out, or a cell that is written. -/
def set (h : Heap ι β) (a : ι) (c : β) : Heap ι β := Function.update h a (some c)

/-- The cell is not allocated any more. -/
def erase (h : Heap ι β) (a : ι) : Heap ι β := Function.update h a none

/-- `*p = c`. -/
def write (h : Heap ι β) (p : Option ι) (c : β) : Except Fault (Heap ι β) :=
  match p with
  | none => .error .nullDereference
  | some a =>
    match h a with
    | none => .error .outOfBounds
    | some _ => .ok (h.set a c)

/-- `free(p)`. -/
def free (h : Heap ι β) (p : Option ι) : Except Fault (Heap ι β) :=
  match p with
  | none => .ok h
  | some a =>
    match h a with
    | none => .error .outOfBounds
    | some _ => .ok (h.erase a)

variable {h : Heap ι β} {a b : ι} {c : β}

@[simp] theorem set_self : h.set a c a = some c := Function.update_self ..

theorem set_of_ne (hne : b ≠ a) : h.set a c b = h b := Function.update_of_ne hne ..

@[simp] theorem erase_self : h.erase a a = none := Function.update_self ..

theorem erase_of_ne (hne : b ≠ a) : h.erase a b = h b := Function.update_of_ne hne ..

theorem write_of_eq {old : β} (ha : h a = some old) : h.write (some a) c = .ok (h.set a c) := by
  unfold write
  dsimp only
  rw [ha]

theorem free_of_eq (ha : h a = some c) : h.free (some a) = .ok (h.erase a) := by
  unfold free
  dsimp only
  rw [ha]

end

/-! ## Chains -/

/-- From `p` the links lead through these cells and then to `q`. -/
def Chain (next : β → Option ι) (h : Heap ι β) : Option ι → List (ι × β) → Option ι → Prop
  | p, [], q => p = q
  | p, (a, c) :: cells, q => p = some a ∧ h a = some c ∧ Chain next h (next c) cells q

/-- What can be reached from `p` along the links, allocated or not. -/
inductive Reachable (next : β → Option ι) (h : Heap ι β) (p : Option ι) : ι → Prop where
  | here {a : ι} (eq : p = some a) : Reachable next h p a
  | link {a b : ι} {c : β} (before : Reachable next h p a) (cell : h a = some c)
      (eq : next c = some b) : Reachable next h p b

variable {next : β → Option ι} {h h' : Heap ι β} {p q : Option ι} {a b : ι} {c : β}
  {cells cells' : List (ι × β)}

theorem chain_append : Chain next h p (cells ++ cells') q ↔
    ∃ r, Chain next h p cells r ∧ Chain next h r cells' q := by
  induction cells generalizing p with
  | nil =>
    constructor
    · intro hchain
      exact ⟨p, rfl, hchain⟩
    · rintro ⟨r, rfl, hchain⟩
      exact hchain
  | cons cell cells ih =>
    obtain ⟨a, c⟩ := cell
    simp only [List.cons_append, Chain, ih]
    constructor
    · rintro ⟨hp, ha, r, hcells, hcells'⟩
      exact ⟨r, ⟨hp, ha, hcells⟩, hcells'⟩
    · rintro ⟨r, ⟨hp, ha, hcells⟩, hcells'⟩
      exact ⟨hp, ha, r, hcells, hcells'⟩

theorem Chain.allocated (hchain : Chain next h p cells q) (hmem : (a, c) ∈ cells) :
    h a = some c := by
  induction cells generalizing p with
  | nil => exact absurd hmem List.not_mem_nil
  | cons cell cells ih =>
    obtain ⟨-, ha, hrest⟩ := hchain
    rcases List.mem_cons.mp hmem with heq | hlater
    · obtain ⟨rfl, rfl⟩ := Prod.mk.inj heq
      exact ha
    · exact ih hrest hlater

theorem Chain.not_mem (hchain : Chain next h p cells q) (ha : h a = none) :
    a ∉ cells.map Prod.fst := by
  intro hmem
  obtain ⟨cell, hcell, rfl⟩ := List.mem_map.mp hmem
  exact Option.some_ne_none cell.2 ((hchain.allocated hcell).symm.trans ha)

/-- What happens to other cells does not matter. -/
theorem Chain.congr (hchain : Chain next h p cells q)
    (hsame : ∀ a c, (a, c) ∈ cells → h' a = h a) : Chain next h' p cells q := by
  induction cells generalizing p with
  | nil => exact hchain
  | cons cell cells ih =>
    obtain ⟨hp, ha, hrest⟩ := hchain
    refine ⟨hp, (hsame _ _ List.mem_cons_self).trans ha, ih hrest fun a c hmem => ?_⟩
    exact hsame a c (List.mem_cons_of_mem _ hmem)

theorem Chain.eq_nil (hchain : Chain next h none cells q) : cells = [] := by
  cases cells with
  | nil => rfl
  | cons cell cells => cases hchain.1

section
variable [DecidableEq ι]

theorem Chain.set (hchain : Chain next h p cells q) (hnot : a ∉ cells.map Prod.fst) (c : β) :
    Chain next (h.set a c) p cells q :=
  hchain.congr fun _ _ hmem => set_of_ne fun heq => hnot (heq ▸ List.mem_map_of_mem hmem)

theorem Chain.erase (hchain : Chain next h p cells q) (hnot : a ∉ cells.map Prod.fst) :
    Chain next (h.erase a) p cells q :=
  hchain.congr fun _ _ hmem => erase_of_ne fun heq => hnot (heq ▸ List.mem_map_of_mem hmem)

/-- A cell is written, and the chain goes on from its new link. -/
theorem Chain.relink {left right : List (ι × β)} {d : β} {q' : Option ι}
    (hchain : Chain next h p (left ++ (a, d) :: cells) q) (hnot : a ∉ left.map Prod.fst)
    (hright : Chain next (h.set a c) (next c) right q') :
    Chain next (h.set a c) p (left ++ (a, c) :: right) q' := by
  obtain ⟨r, hleft, hr, -, -⟩ := chain_append.mp hchain
  exact chain_append.mpr ⟨r, hleft.set hnot c, hr, set_self, hright⟩

end

/-- Two ways from one pointer to NULL are the same. -/
theorem Chain.unique (hchain : Chain next h p cells none) (hchain' : Chain next h p cells' none) :
    cells = cells' := by
  induction cells generalizing p cells' with
  | nil =>
    cases cells' with
    | nil => rfl
    | cons cell' cells' =>
      rw [show p = none from hchain] at hchain'
      cases hchain'.1
  | cons cell cells ih =>
    obtain ⟨rfl, ha, hrest⟩ := hchain
    cases cells' with
    | nil => cases hchain'
    | cons cell' cells' =>
      obtain ⟨a, c⟩ := cell
      obtain ⟨a', c'⟩ := cell'
      obtain ⟨hp, ha', hrest'⟩ := hchain'
      obtain rfl : a = a' := Option.some.inj hp
      obtain rfl : c = c' := Option.some.inj (ha.symm.trans ha')
      rw [ih hrest hrest']

/-- A chain up to NULL has no cycle. -/
theorem Chain.nodup (hchain : Chain next h p cells none) : (cells.map Prod.fst).Nodup := by
  induction cells generalizing p with
  | nil => exact List.nodup_nil
  | cons cell cells ih =>
    obtain ⟨a, c⟩ := cell
    rw [List.map_cons, List.nodup_cons]
    refine ⟨fun hmem => ?_, ih hchain.2.2⟩
    -- the cells from the second visit on are as many as those from the first one
    obtain ⟨⟨a', c'⟩, hcell, heq⟩ := List.mem_map.mp hmem
    obtain rfl : a' = a := heq
    obtain ⟨before, after, rfl⟩ := List.append_of_mem hcell
    obtain ⟨r, -, hagain⟩ := chain_append.mp hchain.2.2
    obtain rfl : p = r := hchain.1.trans hagain.1.symm
    have hlength := congrArg List.length (hchain.unique hagain)
    simp only [List.length_cons, List.length_append] at hlength
    omega

theorem Chain.fst_ne {left : List (ι × β)} {d : β}
    (hchain : Chain next h p (left ++ (b, d) :: (a, c) :: cells) none) : b ≠ a := by
  have hnodup := hchain.nodup
  rw [List.map_append, List.map_cons, List.map_cons] at hnodup
  intro heq
  exact (List.nodup_cons.mp (List.nodup_append.mp hnodup).2.1).1 (heq ▸ List.mem_cons_self)

section
variable [DecidableEq ι] {left : List (ι × β)} {d d' : β}

/-- A new cell behind the last one: `b` is linked to it. -/
theorem Chain.extend (hchain : Chain next h p (left ++ [(b, d)]) none) (ha : h a = none)
    (hlink : next d' = some a) (hend : next c = none) :
    Chain next ((h.set a c).set b d') p (left ++ [(b, d'), (a, c)]) none := by
  have hnodup := hchain.nodup
  rw [List.map_append] at hnodup
  have hb : b ∉ left.map Prod.fst := fun hmem =>
    (List.nodup_append.mp hnodup).2.2 b hmem b List.mem_cons_self rfl
  have hnot := hchain.not_mem ha
  have hab : a ≠ b := fun heq => hnot (by simp [heq])
  exact (hchain.set hnot c).relink hb ⟨hlink, (set_of_ne hab).trans set_self, hend⟩

/-- The cell behind `b` leaves the chain: `b` is linked to what came after it. -/
theorem Chain.unlink (hchain : Chain next h p (left ++ (b, d) :: (a, c) :: cells) none)
    (hlink : next d' = next c) :
    Chain next ((h.set b d').erase a) p (left ++ (b, d') :: cells) none := by
  have hnodup := hchain.nodup
  simp only [List.map_append, List.map_cons, List.nodup_append, List.nodup_cons, List.mem_cons,
    not_or] at hnodup
  obtain ⟨-, ⟨⟨hba, hbcells⟩, hacells, -⟩, hapart⟩ := hnodup
  have hbleft : b ∉ left.map Prod.fst := fun hmem => hapart b hmem b (.inl rfl) rfl
  have haleft : a ∉ left.map Prod.fst := fun hmem => hapart a hmem a (.inr (.inl rfl)) rfl
  obtain ⟨r, -, -, -, -, -, hcells⟩ := chain_append.mp hchain
  have hlinked : Chain next (h.set b d') p (left ++ (b, d') :: cells) none :=
    hchain.relink hbleft (hlink ▸ hcells.set hbcells d')
  refine hlinked.erase ?_
  simp [haleft, Ne.symm hba, hacells]

end

theorem Reachable.cons (ha : h a = some c) (hreach : Reachable next h (next c) b) :
    Reachable next h (some a) b := by
  induction hreach with
  | here eq => exact .link (.here rfl) ha eq
  | link before cell eq ih => exact .link ih cell eq

/-- The cells up to NULL are what can be reached. -/
theorem Chain.reachable_iff (hchain : Chain next h p cells none) :
    Reachable next h p a ↔ a ∈ cells.map Prod.fst := by
  constructor
  · intro hreach
    induction hreach with
    | here eq =>
      cases cells with
      | nil => exact absurd (eq.symm.trans hchain) (by simp)
      | cons cell cells =>
        obtain rfl : cell.1 = _ := Option.some.inj (hchain.1.symm.trans eq)
        exact List.mem_map_of_mem List.mem_cons_self
    | link before cell eq ih =>
      obtain ⟨⟨a, c⟩, hmem, rfl⟩ := List.mem_map.mp ih
      obtain rfl : c = _ := Option.some.inj ((hchain.allocated hmem).symm.trans cell)
      obtain ⟨left, right, rfl⟩ := List.append_of_mem hmem
      obtain ⟨r, -, hrest⟩ := chain_append.mp hchain
      cases right with
      | nil => exact absurd (eq.symm.trans hrest.2.2) (by simp)
      | cons cell right =>
        obtain rfl : cell.1 = _ := Option.some.inj (hrest.2.2.1.symm.trans eq)
        exact List.mem_map_of_mem (List.mem_append_right _ (List.mem_cons_of_mem _ List.mem_cons_self))
  · intro hmem
    induction cells generalizing p with
    | nil => exact absurd hmem List.not_mem_nil
    | cons cell cells ih =>
      obtain ⟨hp, ha, hrest⟩ := hchain
      rcases List.mem_cons.mp hmem with rfl | hlater
      · exact .here hp
      · exact hp ▸ (ih hrest hlater).cons ha

end Heap

end Lib
end Lcom
