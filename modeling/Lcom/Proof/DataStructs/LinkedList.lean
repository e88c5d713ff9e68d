import Lcom.DataStructs.LinkedList
import Lcom.Lib.Run

/-!
# The list behind the pointers

`Node_append` and `Node_remove` relink nodes in place. What they maintain is `NodeList.Owns`: from the head
the links lead through the nodes of the list to NULL, these nodes are new since the list was started, and
nothing else in the heap has changed. Each call then does to the data what it does to a list on paper
(`nodeCalls_refine`), whatever addresses `malloc` picks, those of freed nodes included.
-/

namespace Lcom

open Lib

variable {α : Type}

/-! ## What the list is -/

/-- The data of the nodes. -/
def dataOf (cells : List (Addr × Node α)) : List α := cells.map fun cell => cell.2.data

/-- The list is made of these nodes, and apart from them the heap is as it was at the start. -/
structure NodeList.Owns (heap₀ : Heap Addr (Node α)) (list : NodeList α)
    (cells : List (Addr × Node α)) : Prop where
  chain : Heap.Chain Node.next list.heap list.head cells none
  new : ∀ a ∈ cells.map Prod.fst, heap₀ a = none
  others : ∀ a, a ∉ cells.map Prod.fst → list.heap a = heap₀ a

/-- The rule for a call: what has joined the list was free, what has left it is free, and the rest of the
    heap is as it was. -/
theorem NodeList.Owns.relinked {heap₀ : Heap Addr (Node α)} {list list' : NodeList α}
    {cells cells' : List (Addr × Node α)} (hlist : list.Owns heap₀ cells)
    (hchain : Heap.Chain Node.next list'.heap list'.head cells' none)
    (hjoined : ∀ a ∈ cells'.map Prod.fst, a ∈ cells.map Prod.fst ∨ list.heap a = none)
    (hleft : ∀ a ∈ cells.map Prod.fst, a ∉ cells'.map Prod.fst → list'.heap a = none)
    (hkept : ∀ a, a ∉ cells.map Prod.fst → a ∉ cells'.map Prod.fst → list'.heap a = list.heap a) :
    list'.Owns heap₀ cells' := by
  refine ⟨hchain, fun a ha => ?_, fun a ha => ?_⟩
  · by_cases hmem : a ∈ cells.map Prod.fst
    · exact hlist.new a hmem
    · exact (hlist.others a hmem).symm.trans ((hjoined a ha).resolve_left hmem)
  · by_cases hmem : a ∈ cells.map Prod.fst
    · exact (hleft a hmem ha).trans (hlist.new a hmem).symm
    · exact (hkept a hmem ha).trans (hlist.others a hmem)

namespace Node

variable {heap heap₀ : Heap Addr (Node α)} {list : NodeList α} {p q : Option Addr} {a : Addr}
  {node : Node α} {cells : List (Addr × Node α)}

theorem load_of_eq (ha : heap a = some node) : load heap (some a) = .ok node := by
  unfold load
  rw [Heap.read_of_eq ha]
  rfl

theorem storeNext_of_eq (ha : heap a = some node) (next : Option Addr) :
    storeNext heap (some a) next = .ok (heap.set a { node with next }) := by
  unfold storeNext
  rw [load_of_eq ha]
  change (heap.write (some a) { node with next }).mapError Stop.fault = _
  rw [Heap.write_of_eq ha]
  rfl

theorem release_of_eq (ha : heap a = some node) : release heap (some a) = .ok (heap.erase a) := by
  unfold release
  rw [Heap.free_of_eq ha]
  rfl

/-! ## `Node_append` -/

theorem findLast_chain {last : Addr × Node α} {fuel : Nat} (hfuel : cells.length < fuel)
    (hchain : Heap.Chain Node.next heap p (cells ++ [last]) none) :
    findLast heap fuel p = .ok (some last.1) := by
  induction cells generalizing p fuel with
  | nil =>
    obtain ⟨fuel, rfl⟩ := Nat.exists_eq_succ_of_ne_zero (Nat.ne_of_gt hfuel)
    obtain ⟨rfl, ha, hend⟩ := hchain
    rw [findLast, load_of_eq ha]
    change (if last.2.next = none then _ else _) = _
    rw [if_pos (show last.2.next = none from hend)]
    rfl
  | cons cell cells ih =>
    obtain ⟨fuel, rfl⟩ := Nat.exists_eq_succ_of_ne_zero (Nat.ne_zero_of_lt hfuel)
    obtain ⟨rfl, ha, hrest⟩ := hchain
    have hnext : cell.2.next ≠ none := by
      intro hnone
      rw [hnone] at hrest
      exact List.append_ne_nil_of_right_ne_nil cells (by simp) hrest.eq_nil
    rw [findLast, load_of_eq ha]
    change (if cell.2.next = none then _ else _) = _
    rw [if_neg hnext]
    exact ih (Nat.lt_of_succ_lt_succ hfuel) hrest

/-- On an empty list the new node becomes the head. -/
theorem append_empty (hlist : list.Owns heap₀ []) (hblock : list.heap a = none) (fuel : Nat)
    (data : α) :
    ∃ list', append fuel list (some a) data = .ok list' ∧
      list'.Owns heap₀ [(a, ⟨data, none⟩)] := by
  obtain ⟨heap, head⟩ := list
  obtain rfl : head = none := hlist.chain
  refine ⟨⟨heap.set a ⟨data, none⟩, some a⟩, rfl, hlist.relinked ⟨rfl, Heap.set_self, rfl⟩ ?_ ?_ ?_⟩
  · intro b hb
    rw [List.mem_singleton.mp hb]
    exact .inr hblock
  · intro b hb
    exact absurd hb List.not_mem_nil
  · intro b _ hb
    exact Heap.set_of_ne fun heq => hb (List.mem_singleton.mpr heq)

/-- On another list the last node is linked to the new one. -/
theorem append_last {left : List (Addr × Node α)} {b : Addr} {last : Node α} {fuel : Nat}
    (hlist : list.Owns heap₀ (left ++ [(b, last)])) (hfuel : left.length < fuel)
    (hblock : list.heap a = none) (data : α) :
    ∃ list', append fuel list (some a) data = .ok list' ∧
      list'.Owns heap₀ (left ++ [(b, { last with next := some a }), (a, ⟨data, none⟩)]) := by
  obtain ⟨heap, head⟩ := list
  have hnot := hlist.chain.not_mem hblock
  have hchain := hlist.chain.set hnot ⟨data, none⟩
  have hlast : heap.set a ⟨data, none⟩ b = some last := hchain.allocated (by simp)
  have hlinked : Heap.Chain Node.next
      ((heap.set a ⟨data, none⟩).set b { last with next := some a }) head
      (left ++ [(b, { last with next := some a }), (a, ⟨data, none⟩)]) none :=
    hlist.chain.extend hblock rfl rfl
  have happend : append fuel ⟨heap, head⟩ (some a) data =
      .ok ⟨(heap.set a ⟨data, none⟩).set b { last with next := some a }, head⟩ := by
    have hhead : head ≠ none := by
      rintro rfl
      exact List.append_ne_nil_of_right_ne_nil left (List.cons_ne_nil (b, last) [])
        hlist.chain.eq_nil
    unfold append create
    change (if head = none then _ else _) = _
    rw [if_neg hhead]
    change ((findLast _ fuel head).bind _) = _
    rw [findLast_chain hfuel hchain]
    change ((storeNext _ (some b) (some a)).bind _) = _
    rw [storeNext_of_eq hlast]
    rfl
  refine ⟨_, happend, hlist.relinked hlinked ?_ ?_ ?_⟩
  · intro d hd
    simp only [List.map_append, List.map_cons, List.map_nil, List.mem_append, List.mem_cons,
      List.not_mem_nil, or_false] at hd
    rcases hd with hleft | rfl | rfl
    · exact .inl (by simp [hleft])
    · exact .inl (by simp)
    · exact .inr hblock
  · intro d hd hnot
    simp only [List.map_append, List.map_cons, List.map_nil, List.mem_append, List.mem_cons] at hd hnot
    tauto
  · intro d _ hd
    simp only [List.map_append, List.map_cons, List.map_nil, List.mem_append, List.mem_cons,
      List.not_mem_nil, or_false, not_or] at hd
    calc ((heap.set a ⟨data, none⟩).set b { last with next := some a }) d
      _ = heap.set a ⟨data, none⟩ d := Heap.set_of_ne hd.2.1
      _ = heap d := Heap.set_of_ne hd.2.2

theorem append_spec {fuel : Nat} (hlist : list.Owns heap₀ cells) (hfuel : cells.length ≤ fuel)
    (hblock : list.heap a = none) (data : α) :
    ∃ list' cells', append fuel list (some a) data = .ok list' ∧ list'.Owns heap₀ cells' ∧
      cells'.map Prod.fst = cells.map Prod.fst ++ [a] ∧ dataOf cells' = dataOf cells ++ [data] := by
  rcases List.eq_nil_or_concat cells with rfl | ⟨left, ⟨b, last⟩, rfl⟩
  · obtain ⟨list', happend, hlist'⟩ := append_empty hlist hblock fuel data
    exact ⟨list', _, happend, hlist', rfl, rfl⟩
  · rw [List.concat_eq_append] at hlist hfuel ⊢
    have hshort : left.length < fuel := by
      rw [List.length_append, List.length_singleton] at hfuel
      omega
    obtain ⟨list', happend, hlist'⟩ := append_last hlist hshort hblock data
    exact ⟨list', _, happend, hlist', by simp, by simp [dataOf]⟩

/-- Calls of `Node_append` one after another, with blocks that are all different and free. -/
theorem appends_spec {blocks : List (Addr × α)} {fuel : Nat} (hlist : list.Owns heap₀ cells)
    (hfuel : cells.length + blocks.length ≤ fuel) (hnodup : (blocks.map Prod.fst).Nodup)
    (hfree : ∀ a ∈ blocks.map Prod.fst, list.heap a = none) :
    ∃ list' cells',
      blocks.foldlM (fun list block => append fuel list (some block.1) block.2) list = .ok list' ∧
        list'.Owns heap₀ cells' ∧ dataOf cells' = dataOf cells ++ blocks.map Prod.snd := by
  induction blocks generalizing list cells with
  | nil => exact ⟨list, cells, rfl, hlist, (List.append_nil _).symm⟩
  | cons block blocks ih =>
    rw [List.map_cons, List.nodup_cons] at hnodup
    rw [List.length_cons] at hfuel
    have hshort : cells.length ≤ fuel := by omega
    obtain ⟨list₁, cells₁, happend, hlist₁, haddr₁, hdata₁⟩ :=
      append_spec hlist hshort (hfree block.1 List.mem_cons_self) block.2
    have hlength₁ := congrArg List.length haddr₁
    rw [List.length_append, List.length_map, List.length_map, List.length_singleton] at hlength₁
    have hfree₁ : ∀ a ∈ blocks.map Prod.fst, list₁.heap a = none := by
      intro a ha
      have hnot : a ∉ cells.map Prod.fst :=
        hlist.chain.not_mem (hfree a (List.mem_cons_of_mem _ ha))
      have hne : a ≠ block.1 := fun heq => hnodup.1 (heq ▸ ha)
      rw [hlist₁.others a (by rw [haddr₁]; simp [hnot, hne]), ← hlist.others a hnot]
      exact hfree a (List.mem_cons_of_mem _ ha)
    have hfuel₁ : cells₁.length + blocks.length ≤ fuel := by omega
    obtain ⟨list', cells', happends, hlist', hdata⟩ := ih hlist₁ hfuel₁ hnodup.2 hfree₁
    refine ⟨list', cells', ?_, hlist', by rw [hdata, hdata₁]; simp⟩
    rw [List.foldlM_cons, happend]
    exact happends

/-! ## `Node_remove` -/

variable {data : α} {before after : List (Addr × Node α)} {fuel : Nat}

/-- The first node with the data. -/
theorem exists_first_of_mem (hmem : data ∈ dataOf cells) :
    ∃ before a node after, cells = before ++ (a, node) :: after ∧ node.data = data ∧
      ∀ cell ∈ before, cell.2.data ≠ data := by
  obtain ⟨left, right, hsplit, hnot⟩ := List.eq_append_cons_of_mem hmem
  obtain ⟨before, rest, rfl, rfl, hrest⟩ := List.map_eq_append_iff.mp hsplit
  obtain ⟨⟨a, node⟩, after, rfl, hdata, -⟩ := List.map_eq_cons_iff.mp hrest
  refine ⟨before, a, node, after, rfl, hdata, fun cell hcell heq => hnot ?_⟩
  exact heq ▸ List.mem_map_of_mem hcell

section
variable [DecidableEq α]

/-- The search goes on behind the nodes with other data. -/
theorem findData_skip (hchain : Heap.Chain Node.next heap p before q)
    (hbefore : ∀ cell ∈ before, cell.2.data ≠ data) (fuel : Nat) (prev : Option Addr) :
    findData heap data (before.length + fuel) prev p =
      findData heap data fuel (before.foldl (fun _ cell => some cell.1) prev) q := by
  induction before generalizing p prev with
  | nil =>
    obtain rfl : p = q := hchain
    rw [List.length_nil, Nat.zero_add, List.foldl_nil]
  | cons cell before ih =>
    obtain ⟨rfl, hcell, hrest⟩ := hchain
    rw [List.length_cons, Nat.succ_add, findData, if_neg (Option.some_ne_none _), load_of_eq hcell]
    change (if cell.2.data = data then _ else _) = _
    rw [if_neg (hbefore cell List.mem_cons_self)]
    exact ih hrest (fun cell hmem => hbefore cell (List.mem_cons_of_mem _ hmem)) _

theorem findData_found (hfuel : before.length < fuel)
    (hchain : Heap.Chain Node.next heap p (before ++ (a, node) :: after) q)
    (hbefore : ∀ cell ∈ before, cell.2.data ≠ data) (hdata : node.data = data)
    (prev : Option Addr) :
    findData heap data fuel prev p =
      .ok (before.foldl (fun _ cell => some cell.1) prev, some a) := by
  obtain ⟨fuel, rfl⟩ := Nat.exists_eq_add_of_lt hfuel
  obtain ⟨r, hskip, rfl, ha, -⟩ := Heap.chain_append.mp hchain
  rw [Nat.add_assoc, findData_skip hskip hbefore, findData, if_neg (Option.some_ne_none a),
    load_of_eq ha]
  change (if node.data = data then _ else _) = _
  rw [if_pos hdata]
  rfl

theorem findData_absent (hfuel : cells.length < fuel)
    (hchain : Heap.Chain Node.next heap p cells none)
    (habsent : ∀ cell ∈ cells, cell.2.data ≠ data) (prev : Option Addr) :
    ∃ prev', findData heap data fuel prev p = .ok (prev', none) := by
  obtain ⟨fuel, rfl⟩ := Nat.exists_eq_add_of_lt hfuel
  rw [Nat.add_assoc, findData_skip hchain habsent]
  exact ⟨_, rfl⟩

theorem erase_dataOf (hdata : node.data = data) (hbefore : ∀ cell ∈ before, cell.2.data ≠ data) :
    (dataOf (before ++ (a, node) :: after)).erase data = dataOf before ++ dataOf after := by
  have hnot : data ∉ dataOf before := by
    intro hmem
    obtain ⟨cell, hcell, heq⟩ := List.mem_map.mp hmem
    exact hbefore cell hcell heq
  calc (dataOf (before ++ (a, node) :: after)).erase data
    _ = (dataOf before ++ node.data :: dataOf after).erase data := by simp [dataOf]
    _ = dataOf before ++ (node.data :: dataOf after).erase data := List.erase_append_right _ hnot
    _ = dataOf before ++ dataOf after := by rw [hdata, List.erase_cons_head]

/-- The data is in the head node. -/
theorem remove_head (hlist : list.Owns heap₀ ((a, node) :: after)) (hdata : node.data = data) :
    ∃ list', remove fuel list data = .ok list' ∧ list'.Owns heap₀ after := by
  obtain ⟨heap, head⟩ := list
  obtain ⟨hhead, ha, hrest⟩ := hlist.chain
  obtain rfl : head = some a := hhead
  have hnodup := hlist.chain.nodup
  rw [List.map_cons, List.nodup_cons] at hnodup
  have hremove : remove fuel ⟨heap, some a⟩ data = .ok ⟨heap.erase a, node.next⟩ := by
    unfold remove
    rw [if_neg (Option.some_ne_none a), load_of_eq ha]
    change (if node.data = data then _ else _) = _
    rw [if_pos hdata, release_of_eq ha]
    rfl
  refine ⟨_, hremove, hlist.relinked (hrest.erase hnodup.1) ?_ ?_ ?_⟩
  · intro b hb
    exact .inl (List.mem_cons_of_mem _ hb)
  · intro b hb hnot
    obtain rfl : b = a := (List.mem_cons.mp hb).resolve_right hnot
    exact Heap.erase_self
  · intro b hb _
    exact Heap.erase_of_ne fun heq => hb (heq ▸ List.mem_cons_self)

/-- The head node has other data: what is done with `prev` and `temp`, once they are found. -/
theorem remove_search {cell : Addr × Node α} {found : Option Addr × Option Addr}
    (hchain : Heap.Chain Node.next list.heap list.head (cell :: cells) q)
    (hdata : cell.2.data ≠ data)
    (hfound : findData list.heap data fuel none list.head = .ok found) :
    remove fuel list data = (if found.2 = none then pure list else do
      let node ← load list.heap found.2
      let heap ← storeNext list.heap found.1 node.next
      let heap ← release heap found.2
      pure ⟨heap, list.head⟩) := by
  obtain ⟨hhead, ha, -⟩ := hchain
  unfold remove
  rw [hfound, hhead, if_neg (Option.some_ne_none cell.1), load_of_eq ha]
  change (if cell.2.data = data then _ else _) = _
  rw [if_neg hdata]
  rfl

/-- The data is first found in the node after `b`. -/
theorem remove_after {left : List (Addr × Node α)} {b : Addr} {prev : Node α}
    (hlist : list.Owns heap₀ (left ++ (b, prev) :: (a, node) :: after))
    (hfuel : left.length + 1 < fuel) (hdata : node.data = data)
    (hleft : ∀ cell ∈ left, cell.2.data ≠ data) (hprev : prev.data ≠ data) :
    ∃ list', remove fuel list data = .ok list' ∧
      list'.Owns heap₀ (left ++ (b, { prev with next := node.next }) :: after) := by
  obtain ⟨heap, head⟩ := list
  have hchain := hlist.chain
  have hba : b ≠ a := hchain.fst_ne
  have hb : heap b = some prev := hchain.allocated (by simp)
  have ha : heap a = some node := hchain.allocated (by simp)
  have hbefore : ∀ cell ∈ left ++ [(b, prev)], cell.2.data ≠ data := by
    intro cell hcell
    rcases List.mem_append.mp hcell with hcell | hcell
    · exact hleft cell hcell
    · rw [List.mem_singleton.mp hcell]
      exact hprev
  have hfound : findData heap data fuel none head = .ok (some b, some a) := by
    rw [List.append_cons] at hchain
    rw [findData_found (by simpa using hfuel) hchain hbefore hdata, List.foldl_append]
    rfl
  have hremove : remove fuel ⟨heap, head⟩ data =
      .ok ⟨(heap.set b { prev with next := node.next }).erase a, head⟩ := by
    obtain ⟨first, rest, hfirst⟩ := List.exists_cons_of_ne_nil
      (List.append_ne_nil_of_right_ne_nil left (List.cons_ne_nil (b, prev) []))
    rw [List.append_cons, hfirst] at hchain
    rw [remove_search hchain (hbefore first (hfirst ▸ List.mem_cons_self)) hfound,
      if_neg (Option.some_ne_none a), load_of_eq ha]
    change ((storeNext heap (some b) node.next).bind _) = _
    rw [storeNext_of_eq hb]
    change ((release _ (some a)).bind _) = _
    rw [release_of_eq ((Heap.set_of_ne (Ne.symm hba)).trans ha)]
    rfl
  have hlinked : Heap.Chain Node.next ((heap.set b { prev with next := node.next }).erase a) head
      (left ++ (b, { prev with next := node.next }) :: after) none :=
    hchain.unlink rfl
  refine ⟨_, hremove, hlist.relinked hlinked ?_ ?_ ?_⟩
  · intro d hd
    simp only [List.map_append, List.map_cons, List.mem_append, List.mem_cons] at hd ⊢
    tauto
  · intro d hd hnot
    obtain rfl : d = a := by
      simp only [List.map_append, List.map_cons, List.mem_append, List.mem_cons] at hd hnot
      tauto
    exact Heap.erase_self
  · intro d hd _
    simp only [List.map_append, List.map_cons, List.mem_append, List.mem_cons, not_or] at hd
    calc ((heap.set b { prev with next := node.next }).erase a) d
      _ = heap.set b { prev with next := node.next } d := Heap.erase_of_ne hd.2.2.1
      _ = heap d := Heap.set_of_ne hd.2.1

theorem remove_absent (hlist : list.Owns heap₀ cells) (hfuel : cells.length < fuel)
    (habsent : data ∉ dataOf cells) : remove fuel list data = .ok list := by
  have hother : ∀ cell ∈ cells, cell.2.data ≠ data := by
    intro cell hcell heq
    exact habsent (heq ▸ List.mem_map_of_mem hcell)
  obtain ⟨prev, hfound⟩ := findData_absent hfuel hlist.chain hother none
  cases cells with
  | nil =>
    unfold remove
    rw [if_pos (show list.head = none from hlist.chain)]
    rfl
  | cons cell cells =>
    rw [remove_search hlist.chain (hother cell List.mem_cons_self) hfound]
    rfl

theorem remove_spec (hlist : list.Owns heap₀ cells) (hfuel : cells.length < fuel) (data : α) :
    ∃ list' cells', remove fuel list data = .ok list' ∧ list'.Owns heap₀ cells' ∧
      dataOf cells' = (dataOf cells).erase data := by
  by_cases hmem : data ∈ dataOf cells
  · obtain ⟨before, a, node, after, rfl, hdata, hbefore⟩ := exists_first_of_mem hmem
    rw [erase_dataOf hdata hbefore]
    rcases List.eq_nil_or_concat before with rfl | ⟨left, ⟨b, prev⟩, rfl⟩
    · obtain ⟨list', hremove, hlist'⟩ := remove_head hlist hdata
      exact ⟨list', after, hremove, hlist', rfl⟩
    · simp only [List.concat_eq_append, List.append_assoc, List.singleton_append] at *
      have hshort : left.length + 1 < fuel := by
        rw [List.length_append, List.length_cons] at hfuel
        omega
      obtain ⟨list', hremove, hlist'⟩ := remove_after hlist hshort hdata
        (fun cell hcell => hbefore cell (List.mem_append_left _ hcell)) (hbefore (b, prev) (by simp))
      exact ⟨list', _, hremove, hlist', by simp [dataOf]⟩
  · exact ⟨list, cells, remove_absent hlist hfuel hmem, hlist, (List.erase_of_not_mem hmem).symm⟩

end

end Node

/-! ## Any calls -/

/-- What the call does to a list on paper. -/
def NodeCall.applyTo [DecidableEq α] (data : List α) : NodeCall α → List α
  | .append _ d => data ++ [d]
  | .remove d => data.erase d

/-- The list on paper after the calls. -/
def referenceList [DecidableEq α] (calls : List (NodeCall α)) : List α :=
  calls.foldl NodeCall.applyTo []

/-- A call that returns. -/
def NodeList.step [DecidableEq α] (fuel : Nat) (list : NodeList α) (call : NodeCall α) :
    Option (NodeList α) :=
  (call.exec fuel list).toOption

/-- `malloc` hands out a block that is not in use. -/
def AllocationSucceeds (list : NodeList α) : NodeCall α → Prop
  | .append block _ => ∃ a, block = some a ∧ list.heap a = none
  | .remove _ => True

/-- From the head the links lead through nodes with these data to NULL, no node twice; what can be reached
    is what was allocated for the list and not freed; and the nodes that were there before are as they
    were. -/
structure NodeList.Refines (heap₀ : Heap Addr (Node α)) (list : NodeList α) (data : List α) :
    Prop where
  nodes : ∃ cells, Heap.Chain Node.next list.heap list.head cells none ∧
    (cells.map Prod.fst).Nodup ∧ dataOf cells = data
  reachable : ∀ a, Heap.Reachable Node.next list.heap list.head a ↔
    heap₀ a = none ∧ list.heap a ≠ none
  others : ∀ a, heap₀ a ≠ none → list.heap a = heap₀ a

section
variable {heap₀ : Heap Addr (Node α)} {list : NodeList α} {cells : List (Addr × Node α)}

theorem NodeList.owns_nil (heap₀ : Heap Addr (Node α)) : NodeList.Owns heap₀ ⟨heap₀, none⟩ [] :=
  ⟨rfl, fun _ ha => absurd ha List.not_mem_nil, fun _ _ => rfl⟩

theorem NodeList.Owns.refines (hlist : list.Owns heap₀ cells) :
    list.Refines heap₀ (dataOf cells) := by
  refine ⟨⟨cells, hlist.chain, hlist.chain.nodup, rfl⟩, fun a => ?_, fun a ha => ?_⟩
  · rw [hlist.chain.reachable_iff]
    constructor
    · intro hmem
      obtain ⟨cell, hcell, rfl⟩ := List.mem_map.mp hmem
      exact ⟨hlist.new _ hmem, by simp [hlist.chain.allocated hcell]⟩
    · rintro ⟨hnew, hallocated⟩
      by_contra hnot
      exact hallocated ((hlist.others a hnot).trans hnew)
  · exact hlist.others a fun hmem => ha (hlist.new a hmem)

variable [DecidableEq α] {fuel : Nat}

/-- One call. -/
theorem NodeList.Owns.step (hlist : list.Owns heap₀ cells) (hfuel : cells.length < fuel)
    (call : NodeCall α) (hmalloc : AllocationSucceeds list call) :
    ∃ list' cells', list.step fuel call = some list' ∧ list'.Owns heap₀ cells' ∧
      dataOf cells' = call.applyTo (dataOf cells) ∧ cells'.length ≤ cells.length + 1 := by
  cases call with
  | append block data =>
    obtain ⟨a, rfl, ha⟩ := hmalloc
    obtain ⟨list', cells', happend, hlist', -, hdata⟩ :=
      Node.append_spec hlist (Nat.le_of_lt hfuel) ha data
    have hlength := congrArg List.length hdata
    simp only [dataOf, List.length_map, List.length_append, List.length_singleton] at hlength
    exact ⟨list', cells', congrArg Except.toOption happend, hlist', hdata, Nat.le_of_eq hlength⟩
  | remove data =>
    obtain ⟨list', cells', hremove, hlist', hdata⟩ := Node.remove_spec hlist hfuel data
    have hlength := congrArg List.length hdata
    have hshorter : ((dataOf cells).erase data).length ≤ (dataOf cells).length := List.length_erase_le
    simp only [dataOf, List.length_map] at hlength hshorter
    exact ⟨list', cells', congrArg Except.toOption hremove, hlist', hdata, by omega⟩

/-- A run of calls, from any list. -/
theorem NodeList.Owns.run {calls : List (NodeCall α)} (hlist : list.Owns heap₀ cells)
    (hfuel : cells.length + calls.length ≤ fuel)
    (hmalloc : EveryStep (NodeList.step fuel) AllocationSucceeds list calls) :
    ∃ list' cells', run (NodeList.step fuel) list calls = some list' ∧ list'.Owns heap₀ cells' ∧
      dataOf cells' = calls.foldl NodeCall.applyTo (dataOf cells) := by
  induction calls generalizing list cells with
  | nil => exact ⟨list, cells, rfl, hlist, rfl⟩
  | cons call calls ih =>
    rw [List.length_cons] at hfuel
    have hshort : cells.length < fuel := by omega
    obtain ⟨list₁, cells₁, hstep, hlist₁, hdata₁, hlength⟩ :=
      hlist.step hshort call (hmalloc [] call calls list rfl rfl)
    have hfuel₁ : cells₁.length + calls.length ≤ fuel := by omega
    obtain ⟨list', cells', hrun, hlist', hdata⟩ :=
      ih hlist₁ hfuel₁ ((everyStep_cons hstep).mp hmalloc).2
    refine ⟨list', cells', run_cons_eq_some.mpr ⟨list₁, hstep, hrun⟩, hlist', ?_⟩
    rw [hdata, hdata₁, List.foldl_cons]

end

/-- **The refinement.** -/
theorem nodeCalls_refine [DecidableEq α] {fuel : Nat} (heap₀ : Heap Addr (Node α))
    (calls : List (NodeCall α)) (hfuel : calls.length ≤ fuel)
    (hmalloc : EveryStep (NodeList.step fuel) AllocationSucceeds ⟨heap₀, none⟩ calls) :
    ∃ list, run (NodeList.step fuel) ⟨heap₀, none⟩ calls = some list ∧
      list.Refines heap₀ (referenceList calls) := by
  have hlength : ([] : List (Addr × Node α)).length + calls.length ≤ fuel := by simpa using hfuel
  obtain ⟨list, cells, hrun, hlist, hdata⟩ := (NodeList.owns_nil heap₀).run hlength hmalloc
  have hrefines := hlist.refines
  rw [hdata] at hrefines
  exact ⟨list, hrun, hrefines⟩

/-- With a duplicate, data that is not there, and a node that gets the address of a freed one. -/
theorem nodeCalls_refine_reuse : ∃ list,
    run (NodeList.step 7) ⟨fun _ => none, none⟩
      [.append (some 10) 7, .append (some 20) 5, .append (some 30) 7, .remove 7,
        .append (some 10) 9, .remove 4, .remove 5] = some list ∧
      list.Refines (fun _ => none) [7, 9] := by
  refine nodeCalls_refine (fun _ => none) _ (by decide) ?_
  refine (everyStep_cons rfl).mpr ⟨⟨10, rfl, rfl⟩, ?_⟩
  refine (everyStep_cons rfl).mpr ⟨⟨20, rfl, rfl⟩, ?_⟩
  refine (everyStep_cons rfl).mpr ⟨⟨30, rfl, rfl⟩, ?_⟩
  refine (everyStep_cons rfl).mpr ⟨trivial, ?_⟩
  refine (everyStep_cons rfl).mpr ⟨⟨10, rfl, rfl⟩, ?_⟩
  refine (everyStep_cons rfl).mpr ⟨trivial, ?_⟩
  exact (everyStep_cons rfl).mpr ⟨trivial, everyStep_nil⟩

end Lcom
