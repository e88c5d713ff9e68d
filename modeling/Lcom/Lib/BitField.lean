import Mathlib.Tactic

/-!
# Fields of bits

A number that is put together from fields with `|||` gives every field back (`field_or`,
`field_shiftLeft`, `field_shiftLeft_apart`), and its low bytes are all there is to it when it is
small enough (`eq_of_bytes`).
-/

namespace Lcom
namespace Lib

/-- The `size` bits of `x` from bit `pos` on. -/
def field (x pos size : Nat) : Nat := x / 2 ^ pos % 2 ^ size

/-- Two fields have no bit in common. -/
def Apart (pos size pos' size' : Nat) : Prop := pos + size ≤ pos' ∨ pos' + size' ≤ pos

instance (pos size pos' size' : Nat) : Decidable (Apart pos size pos' size') :=
  inferInstanceAs (Decidable (_ ∨ _))

theorem Apart.symm {pos size pos' size' : Nat} (h : Apart pos size pos' size') :
    Apart pos' size' pos size := Or.symm h

variable {x y v pos size pos' size' bits : Nat}

theorem field_lt (x pos size : Nat) : field x pos size < 2 ^ size :=
  Nat.mod_lt _ (Nat.two_pow_pos size)

theorem field_or : field (x ||| y) pos size = field x pos size ||| field y pos size := by
  unfold field
  rw [Nat.or_div_two_pow, Nat.or_mod_two_pow]

/-- What is put into a field is read back from it. -/
theorem field_shiftLeft (hv : v < 2 ^ size) : field (v <<< pos) pos size = v := by
  unfold field
  rw [Nat.shiftLeft_eq, Nat.mul_div_cancel _ (Nat.two_pow_pos pos), Nat.mod_eq_of_lt hv]

/-- Any other field has nothing of it. -/
theorem field_shiftLeft_apart (hv : v < 2 ^ size') (h : Apart pos size pos' size') :
    field (v <<< pos') pos size = 0 := by
  unfold field
  rw [Nat.shiftLeft_eq]
  rcases h with hbelow | habove
  · obtain ⟨d, rfl⟩ := Nat.exists_eq_add_of_le hbelow
    have hshift : v * 2 ^ (pos + size + d) = v * 2 ^ d * 2 ^ size * 2 ^ pos := by ring
    rw [hshift, Nat.mul_div_cancel _ (Nat.two_pow_pos pos), Nat.mul_mod_left]
  · have hsmall : v * 2 ^ pos' < 2 ^ pos := by
      calc v * 2 ^ pos' < 2 ^ size' * 2 ^ pos' :=
            Nat.mul_lt_mul_of_pos_right hv (Nat.two_pow_pos pos')
        _ = 2 ^ (pos' + size') := by rw [Nat.pow_add, Nat.mul_comm]
        _ ≤ 2 ^ pos := Nat.pow_le_pow_right (by decide) habove
    rw [Nat.div_eq_of_lt hsmall, Nat.zero_mod]

theorem shiftLeft_lt (hv : v < 2 ^ size) (h : pos + size ≤ bits) : v <<< pos < 2 ^ bits := by
  rw [Nat.shiftLeft_eq]
  calc v * 2 ^ pos < 2 ^ size * 2 ^ pos := Nat.mul_lt_mul_of_pos_right hv (Nat.two_pow_pos pos)
    _ = 2 ^ (pos + size) := by rw [Nat.pow_add, Nat.mul_comm]
    _ ≤ 2 ^ bits := Nat.pow_le_pow_right (by decide) h

/-- A mask whose low bits are all set keeps the low bits. -/
theorem and_mod_of_mask {mask : Nat} (h : mask % 2 ^ size = 2 ^ size - 1) :
    (x &&& mask) % 2 ^ size = x % 2 ^ size := by
  rw [Nat.and_mod_two_pow, h, Nat.and_two_pow_sub_one_eq_mod, Nat.mod_mod]

/-- Numbers of `n` bytes with the same bytes are equal. -/
theorem eq_of_bytes {a b n : Nat} (ha : a < 256 ^ n) (hb : b < 256 ^ n)
    (h : ∀ k < n, a / 256 ^ k % 256 = b / 256 ^ k % 256) : a = b := by
  have hlow : ∀ m ≤ n, a % 256 ^ m = b % 256 ^ m := by
    intro m hm
    induction m with
    | zero => rw [Nat.pow_zero, Nat.mod_one, Nat.mod_one]
    | succ m ih => rw [Nat.mod_pow_succ, Nat.mod_pow_succ, ih (by omega), h m hm]
  have hall := hlow n (le_refl n)
  rwa [Nat.mod_eq_of_lt ha, Nat.mod_eq_of_lt hb] at hall

end Lib
end Lcom
