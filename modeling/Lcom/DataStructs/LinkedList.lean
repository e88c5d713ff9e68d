import Lcom.Lib.Chain

/-!
# Linked lists — `data_structs/linked_list.c`

The functions work in a heap of nodes, which may hold nodes of other lists as well. What `malloc` answers
is an argument of the call: any address, or NULL. `data` is a pointer that is only passed on and compared,
so its type is a parameter. The loops take a fuel.
-/

namespace Lcom

open Lib

/-- The address of a node. A pointer to one is an `Option Addr`, with `none` for NULL. -/
abbrev Addr := Nat

/-- `Node`. -/
structure Node (α : Type) where
  data : α
  next : Option Addr
  deriving DecidableEq, Repr

/-- Why a call does not return: undefined behaviour, `exit(1)`, or a loop for which the fuel did not
    suffice. -/
inductive Stop where
  | fault (fault : Fault)
  | exited
  | unfinished
  deriving DecidableEq, Repr

/-- A list: the heap its nodes are in, and the variable `head` points to. -/
structure NodeList (α : Type) where
  heap : Heap Addr (Node α)
  head : Option Addr

namespace Node

variable {α : Type}

/-- `*p`, for a pointer to a node. -/
def load (heap : Heap Addr (Node α)) (p : Option Addr) : Except Stop (Node α) :=
  (heap.read p).mapError .fault

/-- `p->next = next`. -/
def storeNext (heap : Heap Addr (Node α)) (p next : Option Addr) :
    Except Stop (Heap Addr (Node α)) := do
  let node ← load heap p
  (heap.write p { node with next }).mapError .fault

/-- `free(p)`. -/
def release (heap : Heap Addr (Node α)) (p : Option Addr) : Except Stop (Heap Addr (Node α)) :=
  (heap.free p).mapError .fault

/-- `Node_create(data)`, when `malloc` returns `block`. -/
def create (heap : Heap Addr (Node α)) (block : Option Addr) (data : α) :
    Except Stop (Option Addr × Heap Addr (Node α)) :=
  match block with
  | none => .error .exited
  | some newNode => .ok (some newNode, heap.set newNode ⟨data, none⟩)

/-- `while (temp->next != NULL)` of `Node_append`: where `temp` points to in the end. -/
def findLast (heap : Heap Addr (Node α)) : Nat → Option Addr → Except Stop (Option Addr)
  | 0, _ => .error .unfinished
  | fuel + 1, temp => do
    let node ← load heap temp
    if node.next = none then pure temp else findLast heap fuel node.next

/-- `Node_append(head, data)`. -/
def append (fuel : Nat) (list : NodeList α) (block : Option Addr) (data : α) :
    Except Stop (NodeList α) := do
  let (newNode, heap) ← create list.heap block data
  if list.head = none then pure ⟨heap, newNode⟩
  else
    let temp ← findLast heap fuel list.head
    let heap ← storeNext heap temp newNode
    pure ⟨heap, list.head⟩

variable [DecidableEq α]

/-- `while (temp != NULL && temp->data != data)` of `Node_remove`: `prev` and `temp` in the end. -/
def findData (heap : Heap Addr (Node α)) (data : α) :
    Nat → Option Addr → Option Addr → Except Stop (Option Addr × Option Addr)
  | 0, _, _ => .error .unfinished
  | fuel + 1, prev, temp =>
    if temp = none then pure (prev, temp)
    else do
      let node ← load heap temp
      if node.data = data then pure (prev, temp) else findData heap data fuel temp node.next

/-- `Node_remove(head, data)`. -/
def remove (fuel : Nat) (list : NodeList α) (data : α) : Except Stop (NodeList α) :=
  if list.head = none then pure list
  else do
    let node ← load list.heap list.head
    if node.data = data then
      let heap ← release list.heap list.head
      pure ⟨heap, node.next⟩
    else
      let (prev, temp) ← findData list.heap data fuel none list.head
      if temp = none then pure list
      else
        let node ← load list.heap temp
        let heap ← storeNext list.heap prev node.next
        let heap ← release heap temp
        pure ⟨heap, list.head⟩

end Node

/-- A call on the list. -/
inductive NodeCall (α : Type) where
  | append (block : Option Addr) (data : α)
  | remove (data : α)
  deriving DecidableEq, Repr

/-- The call, made. -/
def NodeCall.exec {α : Type} [DecidableEq α] (fuel : Nat) (list : NodeList α) :
    NodeCall α → Except Stop (NodeList α)
  | .append block data => Node.append fuel list block data
  | .remove data => Node.remove fuel list data

end Lcom
