import Mathlib.Tactic
import Mathlib.Data.List.TakeWhile

/-!
# Checked memory

C arrays, with the bound checks C leaves out. An access outside an array, or through a null
pointer, is undefined behaviour; here it is a `Fault` that ends the computation, so "the code
never indexes outside the array" is the statement that a result is `.ok`.
-/

namespace Lcom
namespace Lib

/-- The undefined behaviours a C expression can run into. -/
inductive Fault where
  | outOfBounds
  | nullDereference
  deriving DecidableEq, Repr

variable {α : Type} {n : Nat}

/-- `v[i]` as a value. -/
def load (v : Vector α n) (i : Nat) : Except Fault α :=
  if h : i < n then .ok v[i] else .error .outOfBounds

/-- `v[i] = a`. -/
def store (v : Vector α n) (i : Nat) (a : α) : Except Fault (Vector α n) :=
  if h : i < n then .ok (v.set i a) else .error .outOfBounds

theorem load_of_lt {v : Vector α n} {i : Nat} (h : i < n) : load v i = .ok v[i] := by
  rw [load, dif_pos h]

theorem store_of_lt {v : Vector α n} {i : Nat} {a : α} (h : i < n) :
    store v i a = .ok (v.set i a) := by
  rw [store, dif_pos h]

theorem bind_eq_ok {α β : Type} {x : Except Fault α} {f : α → Except Fault β} {b : β} :
    (x >>= f) = .ok b ↔ ∃ a, x = .ok a ∧ f a = .ok b := by
  cases x with
  | error e => simp [bind, Except.bind]
  | ok a => simp [bind, Except.bind]

@[simp] theorem ok_bind {α β : Type} (a : α) (f : α → Except Fault β) :
    ((Except.ok a : Except Fault α) >>= f) = f a := rfl

theorem ok_of_map {α β : Type} {result : Except Fault α} {f : α → β} {b : β}
    (h : result.map f = .ok b) : ∃ a, result = .ok a ∧ f a = b := by
  cases result with
  | error e => cases h
  | ok a => exact ⟨a, rfl, Except.ok.inj h⟩

/-! ## Strings -/

/-- The characters before the terminating NUL of the memory a string pointer points to. -/
def cString (mem : List UInt8) : List UInt8 := mem.takeWhile (· ≠ 0)

/-- The memory holds a string: there is a NUL to stop at. -/
def Terminated (mem : List UInt8) : Prop := 0 ∈ mem

instance (mem : List UInt8) : Decidable (Terminated mem) := inferInstanceAs (Decidable (0 ∈ mem))

/-- The string in the memory, as a function that reads up to the NUL finds it. -/
def loadString (mem : List UInt8) : Except Fault (List UInt8) :=
  if Terminated mem then .ok (cString mem) else .error .outOfBounds

/-- `s` and its NUL, stored at the start of a character array. -/
def overwrite (dst : Vector UInt8 n) (s : List UInt8) (h : s.length < n) : Vector UInt8 n :=
  ⟨(s ++ 0 :: dst.toList.drop (s.length + 1)).toArray, by simp; omega⟩

/-- Store a string and its NUL into a character array. -/
def storeString (dst : Vector UInt8 n) (s : List UInt8) : Except Fault (Vector UInt8 n) :=
  if h : s.length < n then .ok (overwrite dst s h) else .error .outOfBounds

/-- `strcpy(dst, src)`. -/
def strcpy (dst : Vector UInt8 n) (src : List UInt8) : Except Fault (Vector UInt8 n) :=
  loadString src >>= storeString dst

theorem storeString_of_lt {dst : Vector UInt8 n} {s : List UInt8} (h : s.length < n) :
    storeString dst s = .ok (overwrite dst s h) := dif_pos h

theorem storeString_of_le {dst : Vector UInt8 n} {s : List UInt8} (h : n ≤ s.length) :
    storeString dst s = .error .outOfBounds := dif_neg (Nat.not_lt.mpr h)

theorem toList_overwrite {dst : Vector UInt8 n} {s : List UInt8} (h : s.length < n) :
    (overwrite dst s h).toList = s ++ 0 :: dst.toList.drop (s.length + 1) := rfl

theorem cString_append_zero {s : List UInt8} (hs : 0 ∉ s) (rest : List UInt8) :
    cString (s ++ 0 :: rest) = s := by
  rw [cString, List.takeWhile_append_of_pos, List.takeWhile_cons_of_neg (by simp), List.append_nil]
  intro b hb
  have hne : b ≠ 0 := by
    intro heq
    subst heq
    exact hs hb
  simpa using hne

/-- What stands behind a NUL is not part of the string. -/
theorem cString_append_nul (s rest : List UInt8) : cString (s ++ 0 :: rest) = cString s := by
  unfold cString
  induction s with
  | nil => rfl
  | cons b s ih =>
    rw [List.cons_append, List.takeWhile_cons, List.takeWhile_cons, ih]

theorem cString_overwrite {dst : Vector UInt8 n} {s : List UInt8} (h : s.length < n)
    (hs : 0 ∉ s) : cString (overwrite dst s h).toList = s := by
  rw [toList_overwrite, cString_append_zero hs]

theorem zero_not_mem_cString (mem : List UInt8) : 0 ∉ cString mem := by
  intro h
  simpa using List.mem_takeWhile_imp h

theorem terminated_iff_length_lt {mem : List UInt8} :
    Terminated mem ↔ (cString mem).length < mem.length := by
  constructor
  · intro h
    refine lt_of_le_of_ne (List.takeWhile_prefix _).length_le fun heq => ?_
    have hall : cString mem = mem := (List.takeWhile_prefix _).eq_of_length heq
    rw [Terminated, ← hall] at h
    exact zero_not_mem_cString mem h
  · intro hlt
    by_contra hzero
    have hall : cString mem = mem := by
      refine List.takeWhile_eq_self_iff.mpr fun b hb => ?_
      have hne : b ≠ 0 := by
        intro he
        subst he
        exact hzero hb
      simpa using hne
    rw [hall] at hlt
    exact absurd hlt (lt_irrefl _)

end Lib
end Lcom
