import Lcom.Lib.Memory

/-!
# Copies between blocks of bytes

`memcpy` between two blocks, with its four bounds checked. What a copy does is said by two facts:
when it goes through (`memcpy_of_inside`), and which byte every index holds afterwards
(`getElem?_splice`).
-/

namespace Lcom
namespace Lib

/-- `src[i]` as a value, for a signed index. -/
def loadByte (src : List UInt8) (i : Int) : Except Fault UInt8 :=
  if i < 0 then .error .outOfBounds
  else
    match src[i.toNat]? with
    | none => .error .outOfBounds
    | some b => .ok b

/-- `count` bytes of a block, from `offset` on. -/
def slice (src : List UInt8) (offset count : Int) : Except Fault (List UInt8) :=
  if 0 ≤ offset ∧ 0 ≤ count ∧ offset + count ≤ src.length then
    .ok ((src.drop offset.toNat).take count.toNat)
  else .error .outOfBounds

/-- A block after `bytes` have been written into it from `offset` on. -/
def splice (dst : List UInt8) (offset : Nat) (bytes : List UInt8) : List UInt8 :=
  dst.take offset ++ bytes ++ dst.drop (offset + bytes.length)

/-- `memcpy(dst + dest, src + from, count)`. -/
def memcpy (dst : List UInt8) (dest : Int) (src : List UInt8) (offset count : Int) :
    Except Fault (List UInt8) := do
  let bytes ← slice src offset count
  if 0 ≤ dest ∧ dest + count ≤ dst.length then pure (splice dst dest.toNat bytes)
  else .error .outOfBounds

/-- `memset(dst, byte, count)`. -/
def memset (dst : List UInt8) (byte : UInt8) (count : Nat) : Except Fault (List UInt8) :=
  memcpy dst 0 (List.replicate count byte) 0 count

theorem loadByte_of_lt {src : List UInt8} {i : Nat} (h : i < src.length) :
    loadByte src i = .ok src[i] := by
  have hneg : ¬ (i : Int) < 0 := by omega
  unfold loadByte
  rw [if_neg hneg, Int.toNat_natCast, List.getElem?_eq_getElem h]

theorem slice_of_inside {src : List UInt8} {offset count : Int} (hoffset : 0 ≤ offset)
    (hcount : 0 ≤ count) (hend : offset + count ≤ src.length) :
    slice src offset count = .ok ((src.drop offset.toNat).take count.toNat) :=
  if_pos ⟨hoffset, hcount, hend⟩

theorem length_splice {dst bytes : List UInt8} {offset : Nat}
    (h : offset + bytes.length ≤ dst.length) : (splice dst offset bytes).length = dst.length := by
  simp only [splice, List.length_append, List.length_take, List.length_drop]
  omega

/-- Inside the range that is written stand the new bytes, everywhere else the old ones. -/
theorem getElem?_splice {dst bytes : List UInt8} {offset : Nat}
    (h : offset + bytes.length ≤ dst.length) (i : Nat) :
    (splice dst offset bytes)[i]? =
      if offset ≤ i ∧ i < offset + bytes.length then bytes[i - offset]? else dst[i]? := by
  have htake : (dst.take offset).length = offset := by
    rw [List.length_take]
    omega
  unfold splice
  rw [List.append_assoc, List.getElem?_append, htake, List.getElem?_append, List.getElem?_drop]
  by_cases hlow : i < offset
  · rw [if_pos hlow, if_neg (by omega), List.getElem?_take, if_pos hlow]
  · rw [if_neg hlow]
    by_cases hhigh : i < offset + bytes.length
    · rw [if_pos (by omega), if_pos (by omega)]
    · rw [if_neg (by omega), if_neg (by omega)]
      congr 1
      omega

theorem memcpy_of_inside {dst src : List UInt8} {dest offset count : Int} (hdest : 0 ≤ dest)
    (hoffset : 0 ≤ offset) (hcount : 0 ≤ count) (hdst : dest + count ≤ dst.length)
    (hsrc : offset + count ≤ src.length) :
    memcpy dst dest src offset count =
      .ok (splice dst dest.toNat ((src.drop offset.toNat).take count.toNat)) := by
  unfold memcpy
  rw [slice_of_inside hoffset hcount hsrc, ok_bind, if_pos ⟨hdest, hdst⟩]
  rfl

/-- A copy of a whole block. -/
theorem memcpy_all {dst src : List UInt8} (h : dst.length = src.length) :
    memcpy dst 0 src 0 src.length = .ok src := by
  rw [memcpy_of_inside (le_refl _) (le_refl _) (Int.natCast_nonneg _) (by omega) (by omega)]
  simp [splice, h]

theorem memset_all {dst : List UInt8} {count : Nat} (h : dst.length = count) (byte : UInt8) :
    memset dst byte count = .ok (List.replicate count byte) := by
  have hcopy := @memcpy_all dst (List.replicate count byte) (by rw [h, List.length_replicate])
  rwa [List.length_replicate] at hcopy

end Lib
end Lcom
