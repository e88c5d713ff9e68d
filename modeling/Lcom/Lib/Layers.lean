import Lcom.Lib.Loop

/-!
# Pictures made of layers

A layer says what is seen at each position; where it is `none`, what lies below shows through. Layers
put one over the other are a layer again, and `onto` is associative, so a picture can be described in
the order it is painted in, whichever part of it one program draws.

`Paints` ties this to a program: an action that changes a state, of which `view` is what can be seen,
goes through and puts a layer over what was there.
-/

namespace Lcom
namespace Lib

/-- What is seen at each position; `none` where there is nothing. -/
abbrev Layer (P β : Type) := P → Option β

namespace Layer

variable {P β : Type}

def empty : Layer P β := fun _ => none

/-- One layer over another. -/
def onto (top below : Layer P β) : Layer P β := fun p => (top p).or (below p)

/-- Layers, in the order in which they are painted. -/
def stack : List (Layer P β) → Layer P β
  | [] => empty
  | layer :: above => (stack above).onto layer

@[simp] theorem empty_onto (layer : Layer P β) : empty.onto layer = layer := rfl

theorem onto_assoc (top middle below : Layer P β) :
    (top.onto middle).onto below = top.onto (middle.onto below) :=
  funext fun _ => Option.or_assoc

theorem onto_of_none {top : Layer P β} {p : P} (h : top p = none) (below : Layer P β) :
    top.onto below p = below p := by
  unfold onto
  rw [h, Option.none_or]

/-! ## Programs that paint -/

/-- Where `ok` holds, the action goes through, keeps it, and puts the layer over what was seen. -/
def Paints {σ : Type} (ok : σ → Prop) (view : σ → Layer P β) (action : σ → Except Fault σ)
    (layer : Layer P β) : Prop :=
  ∀ s, ok s → ∃ s', action s = .ok s' ∧ ok s' ∧ view s' = layer.onto (view s)

end Layer

end Lib
end Lcom
