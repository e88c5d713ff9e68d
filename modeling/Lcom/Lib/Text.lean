import Mathlib.Tactic
import Mathlib.Data.Nat.Digits.Defs
import Mathlib.Data.List.TakeWhile

/-!
# Formatted text: `%s` and `%lld`

The conversions of `fprintf` and `fscanf` that a line of whitespace-separated fields is written
and read with, over the bytes of the file. A scan returns what it converted and the rest of the
input, or `none` for a matching or an input failure.

The round trips are `scanString_print` and `scanInt_print`: a field is read back as it was
written, whatever whitespace stands before it, as long as the byte after it cannot belong to it.
-/

namespace Lcom
namespace Lib

abbrev Text := List UInt8

/-- `isspace` in the C locale. -/
def isSpace (b : UInt8) : Bool := b == 32 || (decide (9 ≤ b) && decide (b ≤ 13))

def isDigit (b : UInt8) : Bool := decide (48 ≤ b) && decide (b ≤ 57)

/-- A text without a field in it. -/
def Blank (s : Text) : Prop := ∀ b ∈ s, isSpace b = true

/-- `%s`: whitespace is skipped, then a run of other bytes is taken; end of input fails. -/
def scanString (s : Text) : Option (Text × Text) :=
  let s := s.dropWhile isSpace
  if s = [] then none else some (s.takeWhile (!isSpace ·), s.dropWhile (!isSpace ·))

/-- The number a run of digits writes. -/
def digitsValue (ds : Text) : Nat := ds.foldl (fun n d => 10 * n + (d - 48).toNat) 0

/-- Digits up to the first byte that is none; no digit fails. -/
def scanNat (s : Text) : Option (Nat × Text) :=
  let ds := s.takeWhile isDigit
  if ds = [] then none else some (digitsValue ds, s.dropWhile isDigit)

/-- `%lld` as a number: whitespace is skipped, then an optional sign and digits are taken. -/
def scanInt (s : Text) : Option (Int × Text) :=
  match s.dropWhile isSpace with
  | [] => none
  | b :: s =>
    if b = 45 then (scanNat s).map fun (n, s) => (-n, s)
    else if b = 43 then (scanNat s).map fun (n, s) => (n, s)
    else (scanNat (b :: s)).map fun (n, s) => (n, s)

/-- `strtoll`: a number outside the 64-bit range becomes the nearest one in it. -/
def saturate (n : Int) : Int64 := Int64.ofIntClamp n

def printNat (n : Nat) : Text :=
  if n = 0 then [48] else (Nat.digits 10 n).reverse.map fun d => 48 + UInt8.ofNat d

/-- `%lld`. -/
def printInt (n : Int) : Text :=
  if n < 0 then 45 :: printNat n.natAbs else printNat n.natAbs

/-! ## Numbers -/

theorem isDigit_ofNat {d : Nat} (h : d < 10) : isDigit (48 + UInt8.ofNat d) = true := by
  have hall : ∀ d < 10, isDigit (48 + UInt8.ofNat d) = true := by decide +kernel
  exact hall d h

theorem digit_ofNat {d : Nat} (h : d < 10) : (48 + UInt8.ofNat d - 48).toNat = d := by
  have hall : ∀ d < 10, (48 + UInt8.ofNat d - 48).toNat = d := by decide +kernel
  exact hall d h

theorem digits_printNat (n : Nat) : ∀ b ∈ printNat n, isDigit b = true := by
  intro b hb
  rw [printNat] at hb
  split at hb
  · obtain rfl := List.mem_singleton.mp hb
    decide
  · obtain ⟨d, hd, rfl⟩ := List.mem_map.mp hb
    exact isDigit_ofNat (Nat.digits_lt_base (by omega) (List.mem_reverse.mp hd))

theorem printNat_ne_nil (n : Nat) : printNat n ≠ [] := by
  rw [printNat]
  split
  · simp
  · rename_i hn
    simp [Nat.digits_ne_nil_iff_ne_zero.mpr hn]

theorem foldr_digits {ds : List Nat} (h : ∀ d ∈ ds, d < 10) :
    ds.foldr (fun d n => 10 * n + (48 + UInt8.ofNat d - 48).toNat) 0 = Nat.ofDigits 10 ds := by
  induction ds with
  | nil => rfl
  | cons d ds ih =>
    rw [List.foldr_cons, ih fun d hd => h d (List.mem_cons_of_mem _ hd),
      digit_ofNat (h d List.mem_cons_self), Nat.ofDigits_cons]
    simp [Nat.add_comm]

theorem digitsValue_printNat (n : Nat) : digitsValue (printNat n) = n := by
  rw [printNat]
  split
  · rename_i hn
    rw [hn]
    decide
  · rw [digitsValue, List.foldl_map, List.foldl_reverse,
      foldr_digits fun d hd => Nat.digits_lt_base (by omega) hd, Nat.ofDigits_digits]

/-- The next byte does not go on with the number. -/
def EndsNumber (s : Text) : Prop := ∀ b ∈ s.head?, isDigit b = false

theorem scanNat_print (n : Nat) {s : Text} (hs : EndsNumber s) :
    scanNat (printNat n ++ s) = some (n, s) := by
  have htake : (printNat n ++ s).takeWhile isDigit = printNat n := by
    rw [List.takeWhile_append_of_pos (digits_printNat n)]
    cases s with
    | nil => simp
    | cons b s => simp [hs b rfl]
  have hdrop : (printNat n ++ s).dropWhile isDigit = s := by
    rw [List.dropWhile_append_of_pos (digits_printNat n)]
    cases s with
    | nil => simp
    | cons b s => simp [hs b rfl]
  rw [scanNat, htake, hdrop, if_neg (printNat_ne_nil n), digitsValue_printNat]

/-- The first byte of a printed number: a minus sign or a digit. -/
theorem printInt_cons (n : Int) :
    ∃ b s, printInt n = b :: s ∧ (b = 45 ∨ isDigit b = true) ∧ ∀ b' ∈ s, isDigit b' = true := by
  rw [printInt]
  split
  · exact ⟨45, _, rfl, .inl rfl, digits_printNat _⟩
  · obtain ⟨b, s, hbs⟩ := List.exists_cons_of_ne_nil (printNat_ne_nil n.natAbs)
    have hdigits := digits_printNat n.natAbs
    rw [hbs] at hdigits
    exact ⟨b, s, hbs, .inr (hdigits b List.mem_cons_self),
      fun b' hb' => hdigits b' (List.mem_cons_of_mem b hb')⟩

theorem isSpace_of_isDigit {b : UInt8} (h : isDigit b = true) : isSpace b = false := by
  simp only [isDigit, Bool.and_eq_true, decide_eq_true_eq, UInt8.le_iff_toNat_le] at h
  simp only [isSpace, Bool.or_eq_false_iff, Bool.and_eq_false_iff, beq_eq_false_iff_ne,
    decide_eq_false_iff_not, UInt8.le_iff_toNat_le, ne_eq, ← UInt8.toNat_inj]
  have h48 : (48 : UInt8).toNat = 48 := rfl
  have h13 : (13 : UInt8).toNat = 13 := rfl
  have h32 : (32 : UInt8).toNat = 32 := rfl
  omega

theorem printInt_no_space (n : Int) : ∀ b ∈ printInt n, isSpace b = false := by
  obtain ⟨b, s, hbs, hfirst, hdigits⟩ := printInt_cons n
  intro b' hb'
  rw [hbs] at hb'
  rcases List.mem_cons.mp hb' with rfl | hmem
  · rcases hfirst with rfl | hdigit
    · decide
    · exact isSpace_of_isDigit hdigit
  · exact isSpace_of_isDigit (hdigits b' hmem)

/-! ## Fields behind whitespace -/

theorem dropWhile_blank {ws : Text} (hws : Blank ws) (s : Text) :
    (ws ++ s).dropWhile isSpace = s.dropWhile isSpace :=
  List.dropWhile_append_of_pos hws

theorem scanString_blank {ws : Text} (hws : Blank ws) (s : Text) :
    scanString (ws ++ s) = scanString s := by
  rw [scanString, dropWhile_blank hws, scanString]

theorem scanInt_blank {ws : Text} (hws : Blank ws) (s : Text) :
    scanInt (ws ++ s) = scanInt s := by
  rw [scanInt, dropWhile_blank hws, scanInt]

/-- The next byte ends a field, or there is none. -/
def EndsField (s : Text) : Prop := ∀ b ∈ s.head?, isSpace b = true

theorem scanString_print {w s : Text} (hne : w ≠ []) (hw : ∀ b ∈ w, isSpace b = false)
    (hs : EndsField s) : scanString (w ++ s) = some (w, s) := by
  have hskip : (w ++ s).dropWhile isSpace = w ++ s := by
    obtain ⟨b, w', rfl⟩ := List.exists_cons_of_ne_nil hne
    simp [hw b List.mem_cons_self]
  have hpos : ∀ b ∈ w, (!isSpace b) = true := fun b hb => by simp [hw b hb]
  have htake : (w ++ s).takeWhile (!isSpace ·) = w := by
    rw [List.takeWhile_append_of_pos hpos]
    cases s with
    | nil => simp
    | cons b s => simp [hs b rfl]
  have hdrop : (w ++ s).dropWhile (!isSpace ·) = s := by
    rw [List.dropWhile_append_of_pos hpos]
    cases s with
    | nil => simp
    | cons b s => simp [hs b rfl]
  rw [scanString, hskip, htake, hdrop, if_neg (by simp [hne])]

/-- A printed number is read back, and nothing behind it is touched. -/
theorem scanInt_print (n : Int) {s : Text} (hs : EndsNumber s) :
    scanInt (printInt n ++ s) = some (n, s) := by
  have hskip : (printInt n ++ s).dropWhile isSpace = printInt n ++ s := by
    obtain ⟨b, w, hbw, -, -⟩ := printInt_cons n
    have hb := printInt_no_space n b (hbw ▸ List.mem_cons_self)
    rw [hbw]
    simp [hb]
  rw [scanInt, hskip]
  -- a negative number starts with its sign, any other one with a digit
  by_cases hneg : n < 0
  · have hprint : printInt n = 45 :: printNat n.natAbs := if_pos hneg
    rw [hprint, List.cons_append]
    simp only [if_true]
    rw [scanNat_print _ hs]
    simp only [Option.map_some, Option.some.injEq, Prod.mk.injEq, and_true]
    omega
  · have hprint : printInt n = printNat n.natAbs := if_neg hneg
    obtain ⟨b, w, hbw⟩ := List.exists_cons_of_ne_nil (printNat_ne_nil n.natAbs)
    have hdigit : isDigit b = true := digits_printNat n.natAbs b (hbw ▸ List.mem_cons_self)
    have h45 : b ≠ 45 := by
      intro heq
      subst heq
      exact absurd hdigit (by decide)
    have h43 : b ≠ 43 := by
      intro heq
      subst heq
      exact absurd hdigit (by decide)
    have hscan := scanNat_print n.natAbs hs
    rw [hprint]
    rw [hbw] at hscan ⊢
    simp only [List.cons_append, if_neg h45, if_neg h43] at hscan ⊢
    rw [hscan]
    simp only [Option.map_some, Option.some.injEq, Prod.mk.injEq, and_true]
    omega

theorem saturate_toInt (t : Int64) : saturate t.toInt = t := Int64.ofIntClamp_toInt t

theorem scanInt_digit {d : UInt8} (hd : isDigit d = true) {s : Text} (hs : EndsNumber s) :
    scanInt (d :: s) = some (((d - 48).toNat : Int), s) := by
  have h45 : d ≠ 45 := by
    intro heq
    subst heq
    exact absurd hd (by decide)
  have h43 : d ≠ 43 := by
    intro heq
    subst heq
    exact absurd hd (by decide)
  have htake : s.takeWhile isDigit = [] := by
    cases s with
    | nil => rfl
    | cons b s => simp [hs b rfl]
  have hdrop : s.dropWhile isDigit = s := by
    cases s with
    | nil => rfl
    | cons b s => simp [hs b rfl]
  rw [scanInt, List.dropWhile_cons_of_neg (by simp [isSpace_of_isDigit hd])]
  simp only [if_neg h45, if_neg h43]
  rw [scanNat, List.takeWhile_cons_of_pos hd, List.dropWhile_cons_of_pos hd, htake, hdrop]
  simp [digitsValue]

/-! ## Scanning a text that goes on -/

theorem dropWhile_eq_nil_iff_blank {s : Text} : s.dropWhile isSpace = [] ↔ Blank s := by
  rw [List.dropWhile_eq_nil_iff]
  rfl

theorem scanString_eq_none_iff {s : Text} : scanString s = none ↔ Blank s := by
  rw [scanString, ← dropWhile_eq_nil_iff_blank]
  split <;> simp_all

/-- The parts of a text with a field: whitespace, the field, and what the field is ended by. -/
theorem scanString_parts {s w r : Text} (h : scanString s = some (w, r)) :
    ∃ ws, s = ws ++ (w ++ r) ∧ Blank ws ∧ w ≠ [] ∧ (∀ b ∈ w, isSpace b = false) ∧ EndsField r := by
  rw [scanString] at h
  split at h
  · exact absurd h (by simp)
  · rename_i hne
    obtain ⟨rfl, rfl⟩ := Prod.mk.inj (Option.some.inj h)
    refine ⟨s.takeWhile isSpace, ?_, fun b hb => List.mem_takeWhile_imp hb, ?_, ?_, ?_⟩
    · rw [List.takeWhile_append_dropWhile, List.takeWhile_append_dropWhile]
    · obtain ⟨b, s', hs'⟩ := List.exists_cons_of_ne_nil hne
      have hb : isSpace b = false := by
        have hhead := List.head_dropWhile_not isSpace hne
        simpa [hs'] using hhead
      rw [hs']
      simp [hb]
    · intro b hb
      simpa using List.mem_takeWhile_imp hb
    · intro b hb
      obtain ⟨r', hr'⟩ : ∃ r', (s.dropWhile isSpace).dropWhile (!isSpace ·) = b :: r' := by
        cases hr : (s.dropWhile isSpace).dropWhile (!isSpace ·) with
        | nil => simp [hr] at hb
        | cons b' r' =>
          rw [hr] at hb
          simp only [List.head?_cons, Option.mem_def, Option.some.injEq] at hb
          exact ⟨r', by rw [hb]⟩
      have hne' : (s.dropWhile isSpace).dropWhile (!isSpace ·) ≠ [] := by simp [hr']
      have hhead := List.head_dropWhile_not (!isSpace ·) hne'
      simpa [hr'] using hhead

theorem scanString_append {s w r t : Text} (h : scanString s = some (w, r)) (ht : EndsField t) :
    scanString (s ++ t) = some (w, r ++ t) := by
  obtain ⟨ws, rfl, hws, hne, hw, hr⟩ := scanString_parts h
  rw [List.append_assoc, List.append_assoc, scanString_blank hws]
  refine scanString_print hne hw fun b hb => ?_
  cases r with
  | nil => exact ht b hb
  | cons b' r => exact hr b hb

/-- The first field begins with a number. -/
def StartsNumber (s : Text) : Prop :=
  match s.dropWhile isSpace with
  | [] => False
  | b :: s =>
    if b = 45 ∨ b = 43 then ∃ d ∈ s.head?, isDigit d = true else isDigit b = true

theorem scanNat_isSome_iff {s : Text} : (scanNat s).isSome ↔ ∃ d ∈ s.head?, isDigit d = true := by
  rw [scanNat]
  cases s with
  | nil => simp
  | cons b s =>
    cases hb : isDigit b <;> simp [hb]

theorem scanInt_isSome_iff {s : Text} : (scanInt s).isSome ↔ StartsNumber s := by
  rw [scanInt, StartsNumber]
  cases s.dropWhile isSpace with
  | nil => simp
  | cons b s =>
    by_cases h45 : b = 45
    · simp [h45, scanNat_isSome_iff]
    · by_cases h43 : b = 43
      · simp [h43, scanNat_isSome_iff]
      · simp [h45, h43, scanNat_isSome_iff]

/-- Whether a number comes first is decided before the first field ends. -/
theorem startsNumber_append {s t : Text} (hs : ¬ Blank s) (ht : EndsField t) :
    StartsNumber (s ++ t) ↔ StartsNumber s := by
  have hne : s.dropWhile isSpace ≠ [] := fun h => hs (dropWhile_eq_nil_iff_blank.mp h)
  have hdrop : (s ++ t).dropWhile isSpace = s.dropWhile isSpace ++ t := by
    rw [List.dropWhile_append, if_neg (by simpa using hne)]
  obtain ⟨b, s', hs'⟩ := List.exists_cons_of_ne_nil hne
  rw [StartsNumber, StartsNumber, hdrop, hs']
  have hhead : (∃ d ∈ (s' ++ t).head?, isDigit d = true) ↔ ∃ d ∈ s'.head?, isDigit d = true := by
    cases s' with
    | cons c s' => simp
    | nil =>
      constructor
      · intro hex
        rcases hex with ⟨d, hd, hdigit⟩
        have hspace := ht d hd
        rw [isSpace_of_isDigit hdigit] at hspace
        exact absurd hspace (by simp)
      · intro hex
        rcases hex with ⟨d, hd, -⟩
        simp at hd
  simp only [List.cons_append, hhead]

/-! ## What a scan leaves is a part of what it was given -/

theorem scanNat_suffix {s r : Text} {n : Nat} (h : scanNat s = some (n, r)) : r <:+ s := by
  rw [scanNat] at h
  split at h
  · exact absurd h (by simp)
  · obtain ⟨-, rfl⟩ := Prod.mk.inj (Option.some.inj h)
    exact List.dropWhile_suffix _

theorem scanInt_suffix {s r : Text} {n : Int} (h : scanInt s = some (n, r)) : r <:+ s := by
  have hskip : s.dropWhile isSpace <:+ s := List.dropWhile_suffix _
  rw [scanInt] at h
  cases hs : s.dropWhile isSpace with
  | nil => simp [hs] at h
  | cons b t =>
    rw [hs] at hskip
    have htail : t <:+ s := (List.suffix_cons b t).trans hskip
    simp only [hs] at h
    split at h
    · obtain ⟨⟨m, u⟩, hm, heq⟩ := Option.map_eq_some_iff.mp h
      cases heq
      exact (scanNat_suffix hm).trans htail
    · split at h
      · obtain ⟨⟨m, u⟩, hm, heq⟩ := Option.map_eq_some_iff.mp h
        cases heq
        exact (scanNat_suffix hm).trans htail
      · obtain ⟨⟨m, u⟩, hm, heq⟩ := Option.map_eq_some_iff.mp h
        cases heq
        exact (scanNat_suffix hm).trans hskip

end Lib
end Lcom
