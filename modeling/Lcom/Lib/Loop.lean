import Lcom.Lib.Memory

/-!
# Counting loops

`forRange lo hi body` is `for (int i = lo; i <= hi; i++)` over a body that can fault. The two rules
are `forRange_keep`, for what the body preserves, and `forRange_ok_iff`, which reduces "the loop
goes through" to "the body goes through at every index".
-/

namespace Lcom
namespace Lib

variable {σ : Type}

/-- `todo` rounds, from index `i` on. -/
def forRounds (body : Int → σ → Except Fault σ) : Nat → Int → σ → Except Fault σ
  | 0, _, s => pure s
  | todo + 1, i, s => do
    let s ← body i s
    forRounds body todo (i + 1) s

/-- `for (int i = lo; i <= hi; i++)`. -/
def forRange (lo hi : Int) (body : Int → σ → Except Fault σ) (s : σ) : Except Fault σ :=
  forRounds body (hi + 1 - lo).toNat lo s

/-- `todo` rounds, each of which can give the loop up with a code. -/
def forRoundsCheck (body : Int → σ → Except Fault (Int × σ)) :
    Nat → Int → σ → Except Fault (Int × σ)
  | 0, _, s => pure (0, s)
  | todo + 1, i, s => do
    let (r, s) ← body i s
    if r ≠ 0 then pure (1, s) else forRoundsCheck body todo (i + 1) s

/-- `for (int i = lo; i <= hi; i++) if (body(i)) return 1;`, with `return 0;` after it. -/
def forRangeCheck (lo hi : Int) (body : Int → σ → Except Fault (Int × σ)) (s : σ) :
    Except Fault (Int × σ) :=
  forRoundsCheck body (hi + 1 - lo).toNat lo s

variable {body : Int → σ → Except Fault σ} {I : σ → Prop} {P : Int → Prop}

theorem forRounds_keep {todo : Nat} {i : Int} {s s' : σ}
    (hkeep : ∀ i s s', I s → body i s = .ok s' → I s') (hs : I s)
    (h : forRounds body todo i s = .ok s') : I s' := by
  induction todo generalizing i s with
  | zero =>
    cases h
    exact hs
  | succ todo ih =>
    obtain ⟨s₁, h₁, hrest⟩ := bind_eq_ok.mp h
    exact ih (hkeep i s s₁ hs h₁) hrest

theorem forRange_keep {lo hi : Int} {s s' : σ}
    (hkeep : ∀ i s s', I s → body i s = .ok s' → I s') (hs : I s)
    (h : forRange lo hi body s = .ok s') : I s' := forRounds_keep hkeep hs h

theorem forRounds_ok_iff {todo : Nat} {i : Int} {s : σ}
    (hkeep : ∀ i s s', I s → body i s = .ok s' → I s')
    (hbody : ∀ i s, I s → ((∃ s', body i s = .ok s') ↔ P i)) (hs : I s) :
    (∃ s', forRounds body todo i s = .ok s') ↔ ∀ j, i ≤ j → j < i + todo → P j := by
  induction todo generalizing i s with
  | zero => exact iff_of_true ⟨s, rfl⟩ fun j h h' => by omega
  | succ todo ih =>
    constructor
    · intro h j hj hj'
      obtain ⟨s', h⟩ := h
      obtain ⟨s₁, h₁, hrest⟩ := bind_eq_ok.mp h
      rcases eq_or_lt_of_le hj with heq | hlt
      · rw [← heq]
        exact (hbody i s hs).mp ⟨s₁, h₁⟩
      · exact (ih (hkeep _ _ _ hs h₁)).mp ⟨s', hrest⟩ j (by omega) (by push_cast at hj'; omega)
    · intro h
      obtain ⟨s₁, h₁⟩ := (hbody i s hs).mpr (h i (le_refl _) (by push_cast; omega))
      have hrest : ∃ s', forRounds body todo (i + 1) s₁ = .ok s' :=
        (ih (hkeep _ _ _ hs h₁)).mpr fun j hj hj' => h j (by omega) (by push_cast; omega)
      obtain ⟨s', hs'⟩ := hrest
      exact ⟨s', bind_eq_ok.mpr ⟨s₁, h₁, hs'⟩⟩

/-- The loop goes through exactly when its body goes through at every index. -/
theorem forRange_ok_iff {lo hi : Int} {s : σ}
    (hkeep : ∀ i s s', I s → body i s = .ok s' → I s')
    (hbody : ∀ i s, I s → ((∃ s', body i s = .ok s') ↔ P i)) (hs : I s) :
    (∃ s', forRange lo hi body s = .ok s') ↔ ∀ j, lo ≤ j → j ≤ hi → P j := by
  rw [forRange, forRounds_ok_iff hkeep hbody hs]
  constructor
  · intro h j hj hj'
    exact h j hj (by omega)
  · intro h j hj hj'
    exact h j hj (by omega)

/-- A round that is skipped when `skip` holds. -/
theorem skip_ok_iff {skip : Prop} [Decidable skip] {s : σ} {round : Except Fault σ} :
    (∃ s', (if skip then pure s else round) = .ok s') ↔ (¬ skip → ∃ s', round = .ok s') := by
  split
  · rename_i hskip
    exact iff_of_true ⟨s, rfl⟩ fun hnot => absurd hskip hnot
  · rename_i hnot
    exact ⟨fun h _ => h, fun h => h hnot⟩

/-- The loop rule: what a round at index `i` carries from `i` to `i + 1`, the loop carries from its
    first index to the one behind its last. -/
theorem forRange_spec {I : Int → σ → Prop} {lo hi : Int} {s : σ} (hle : lo ≤ hi + 1)
    (hs : I lo s)
    (hbody : ∀ i s, lo ≤ i → i ≤ hi → I i s → ∃ s', body i s = .ok s' ∧ I (i + 1) s') :
    ∃ s', forRange lo hi body s = .ok s' ∧ I (hi + 1) s' := by
  unfold forRange
  obtain ⟨todo, htodo⟩ : ∃ todo : Nat, hi + 1 - lo = todo := ⟨_, (Int.toNat_of_nonneg (by omega)).symm⟩
  rw [htodo, Int.toNat_natCast]
  induction todo generalizing lo s with
  | zero =>
    have hlo : hi + 1 = lo := by push_cast at htodo; omega
    exact ⟨s, rfl, hlo ▸ hs⟩
  | succ todo ih =>
    push_cast at htodo
    obtain ⟨s₁, h₁, hs₁⟩ := hbody lo s (le_refl _) (by omega) hs
    obtain ⟨s', hs', hI⟩ := ih (by omega) hs₁
      (fun i s hi hi' => hbody i s (by omega) hi') (by omega)
    exact ⟨s', bind_eq_ok.mpr ⟨s₁, h₁, hs'⟩, hI⟩

/-- The same of a loop that is known to go through. -/
theorem forRange_inv {I : Int → σ → Prop} {lo hi : Int} {s s' : σ} (hle : lo ≤ hi + 1) (hs : I lo s)
    (hbody : ∀ i s s', lo ≤ i → i ≤ hi → I i s → body i s = .ok s' → I (i + 1) s')
    (h : forRange lo hi body s = .ok s') : I (hi + 1) s' := by
  unfold forRange at h
  obtain ⟨todo, htodo⟩ : ∃ todo : Nat, hi + 1 - lo = todo := ⟨_, (Int.toNat_of_nonneg (by omega)).symm⟩
  rw [htodo, Int.toNat_natCast] at h
  induction todo generalizing lo s with
  | zero =>
    have hlo : hi + 1 = lo := by push_cast at htodo; omega
    cases h
    exact hlo ▸ hs
  | succ todo ih =>
    push_cast at htodo
    obtain ⟨s₁, h₁, hrest⟩ := bind_eq_ok.mp h
    exact ih (by omega) (hbody lo s s₁ (le_refl _) (by omega) hs h₁)
      (fun i s s' hi hi' => hbody i s s' (by omega) hi') hrest (by omega)

/-! ## A loop that checks codes which are always 0 -/

section
variable {τ : Type} {check : Int → τ → Except Fault (Int × τ)} {f : σ → τ}

theorem forRoundsCheck_map
    (hbody : ∀ i s, check i (f s) = (body i s).map fun s' => (0, f s')) (todo : Nat) (i : Int)
    (s : σ) :
    forRoundsCheck check todo i (f s) = (forRounds body todo i s).map fun s' => (0, f s') := by
  induction todo generalizing i s with
  | zero => rfl
  | succ todo ih =>
    unfold forRoundsCheck forRounds
    rw [hbody]
    cases body i s with
    | error e => rfl
    | ok s₁ => exact ih (i + 1) s₁

/-- The checks make no difference: the loop is a simple one, over the states that `f` shows. -/
theorem forRangeCheck_map (hbody : ∀ i s, check i (f s) = (body i s).map fun s' => (0, f s'))
    (lo hi : Int) (s : σ) :
    forRangeCheck lo hi check (f s) = (forRange lo hi body s).map fun s' => (0, f s') :=
  forRoundsCheck_map hbody _ lo s

end

section
variable {check : Int → σ → Except Fault (Int × σ)}

/-- Where no body gives up, neither does the loop. -/
theorem forRangeCheck_code {lo hi : Int} {s s' : σ} {r : Int}
    (hbody : ∀ i s r s', check i s = .ok (r, s') → r = 0)
    (h : forRangeCheck lo hi check s = .ok (r, s')) : r = 0 := by
  unfold forRangeCheck at h
  generalize (hi + 1 - lo).toNat = todo at h
  induction todo generalizing lo s with
  | zero =>
    cases h
    rfl
  | succ todo ih =>
    obtain ⟨⟨r₁, s₁⟩, h₁, hrest⟩ := bind_eq_ok.mp h
    dsimp only at hrest
    rw [hbody lo s r₁ s₁ h₁, if_neg (by simp)] at hrest
    exact ih hrest

/-- The loop rule, for bodies that do not give up. -/
theorem forRangeCheck_spec {I : Int → σ → Prop} {lo hi : Int} {s : σ} (hle : lo ≤ hi + 1)
    (hs : I lo s)
    (hbody : ∀ i s, lo ≤ i → i ≤ hi → I i s → ∃ s', check i s = .ok (0, s') ∧ I (i + 1) s') :
    ∃ s', forRangeCheck lo hi check s = .ok (0, s') ∧ I (hi + 1) s' := by
  unfold forRangeCheck
  obtain ⟨todo, htodo⟩ : ∃ todo : Nat, hi + 1 - lo = todo := ⟨_, (Int.toNat_of_nonneg (by omega)).symm⟩
  rw [htodo, Int.toNat_natCast]
  induction todo generalizing lo s with
  | zero =>
    have hlo : hi + 1 = lo := by push_cast at htodo; omega
    exact ⟨s, rfl, hlo ▸ hs⟩
  | succ todo ih =>
    push_cast at htodo
    obtain ⟨s₁, h₁, hs₁⟩ := hbody lo s (le_refl _) (by omega) hs
    obtain ⟨s', hs', hI⟩ := ih (by omega) hs₁
      (fun i s hi hi' => hbody i s (by omega) hi') (by omega)
    exact ⟨s', bind_eq_ok.mpr ⟨(0, s₁), h₁, hs'⟩, hI⟩

/-- A loop whose bodies go through, keep an invariant and do not give up. -/
theorem forRangeCheck_keep {I : σ → Prop} {lo hi : Int} {s : σ}
    (hbody : ∀ i s, lo ≤ i → i ≤ hi → I s → ∃ s', check i s = .ok (0, s') ∧ I s') (hs : I s) :
    ∃ s', forRangeCheck lo hi check s = .ok (0, s') ∧ I s' := by
  by_cases hle : lo ≤ hi + 1
  · exact forRangeCheck_spec (I := fun _ => I) hle hs hbody
  · refine ⟨s, ?_, hs⟩
    unfold forRangeCheck
    rw [Int.toNat_of_nonpos (by omega)]
    rfl

/-- A loop that faults at once. -/
theorem forRangeCheck_error {lo hi : Int} {s : σ} {f : Fault} (hle : lo ≤ hi)
    (h : check lo s = .error f) : forRangeCheck lo hi check s = .error f := by
  unfold forRangeCheck
  obtain ⟨todo, htodo⟩ : ∃ todo : Nat, (hi + 1 - lo).toNat = todo + 1 :=
    ⟨(hi - lo).toNat, by omega⟩
  rw [htodo, forRoundsCheck, h]
  rfl

end

end Lib
end Lcom
