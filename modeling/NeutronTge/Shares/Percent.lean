import NeutronTge.CosmWasm.Uint
import NeutronTge.Shares.Schedule

/-!
# NeutronTge.Shares.Percent

The declining limit as a decimal, computed from two windows in checked `u64` arithmetic.
-/

namespace NeutronTge.Shares

open CosmWasm

/-- The limit at time `t` for a window of length `withdrawal` after one of length `deposit`. -/
def percentAt (init deposit withdrawal t : Nat) : Except StdError Decimal := do
  let cutoffInitPoint ← Uint.add 64 init deposit
  if t < cutoffInitPoint then FixedPoint.fromRatio 128 100 100
  else do
    let cutoffSecondPoint ← Uint.add 64 cutoffInitPoint (withdrawal / 2)
    if t ≤ cutoffSecondPoint then FixedPoint.fromRatio 128 50 100
    else do
      let cutoffFinal ← Uint.add 64 cutoffInitPoint withdrawal
      if t < cutoffFinal then do
        let timeLeft ← Uint.sub cutoffFinal t
        let num ← Uint.mul 64 50 timeLeft
        let rest ← Uint.sub cutoffFinal cutoffSecondPoint
        let den ← Uint.mul 64 100 rest
        FixedPoint.fromRatio 128 num den
      else FixedPoint.fromRatio 128 0 100

/-- The sums of the windows and 100 times the withdrawal window are `u64` values. -/
structure Fits (start window : Nat) : Prop where
  sum : start + window < 2 ^ 64
  scaled : 100 * window < 2 ^ 64

section Schedule

variable {init deposit window t : Nat}

/-- Whatever is computed is the declining limit. -/
theorem percentAt_ok {percent : Decimal} (h : percentAt init deposit window t = .ok percent) :
    percent.atomics = decliningLimit FixedPoint.fractional (init + deposit) window t := by
  simp only [percentAt, bind_eq_ok, Uint.add_eq_ok] at h
  obtain ⟨_, ⟨-, rfl⟩, h⟩ := h
  unfold decliningLimit
  split_ifs at h ⊢ with hdeposit hhalf hlate
  · exact (FixedPoint.fromRatio_eq_ok.mp h).2.2
  · simp only [bind_eq_ok, Uint.add_eq_ok] at h
    obtain ⟨_, ⟨-, rfl⟩, h⟩ := h
    rw [if_pos hhalf] at h
    exact (FixedPoint.fromRatio_eq_ok.mp h).2.2
  · -- the linear part of the schedule
    simp only [bind_eq_ok, Uint.add_eq_ok] at h
    obtain ⟨_, ⟨-, rfl⟩, h⟩ := h
    rw [if_neg hhalf] at h
    simp only [bind_eq_ok, Uint.add_eq_ok] at h
    obtain ⟨_, ⟨-, rfl⟩, h⟩ := h
    rw [if_pos hlate] at h
    simp only [bind_eq_ok, Uint.sub_eq_ok, Uint.mul_eq_ok, FixedPoint.fromRatio_eq_ok] at h
    obtain ⟨_, ⟨-, rfl⟩, _, ⟨-, rfl⟩, _, ⟨-, rfl⟩, _, ⟨-, rfl⟩, -, -, hatomics⟩ := h
    exact hatomics
  · simp only [bind_eq_ok, Uint.add_eq_ok] at h
    obtain ⟨_, ⟨-, rfl⟩, h⟩ := h
    rw [if_neg hhalf] at h
    simp only [bind_eq_ok, Uint.add_eq_ok] at h
    obtain ⟨_, ⟨-, rfl⟩, h⟩ := h
    rw [if_neg hlate] at h
    rw [(FixedPoint.fromRatio_eq_ok.mp h).2.2]
    simp

theorem fromRatio_ok {num den : Nat} (hden : 0 < den) (hnum : num ≤ den) :
    FixedPoint.fromRatio 128 num den = .ok ⟨num * FixedPoint.fractional / den⟩ := by
  have hle : num * FixedPoint.fractional / den ≤ FixedPoint.fractional :=
    Nat.div_le_of_le_mul (Nat.mul_le_mul_right _ hnum)
  have hlt : FixedPoint.fractional < 2 ^ 128 := by decide
  exact FixedPoint.fromRatio_eq_ok.mpr ⟨hden, hle.trans_lt hlt, rfl⟩

/-- Nothing overflows and nothing is divided by zero. -/
theorem percentAt_eq_ok (h : Fits (init + deposit) window) :
    percentAt init deposit window t =
      .ok ⟨decliningLimit FixedPoint.fractional (init + deposit) window t⟩ := by
  obtain ⟨hsum, hscaled⟩ := h
  have hstart : Uint.add 64 init deposit = .ok (init + deposit) :=
    Uint.add_eq_ok.mpr ⟨by omega, rfl⟩
  have hsecond : Uint.add 64 (init + deposit) (window / 2) =
      .ok (init + deposit + window / 2) := Uint.add_eq_ok.mpr ⟨by omega, rfl⟩
  have hfinal : Uint.add 64 (init + deposit) window = .ok (init + deposit + window) :=
    Uint.add_eq_ok.mpr ⟨hsum, rfl⟩
  unfold percentAt decliningLimit
  rw [hstart]
  simp only [bind, Except.bind]
  by_cases hdeposit : t < init + deposit
  · rw [if_pos hdeposit, if_pos hdeposit, fromRatio_ok (by decide) (by decide)]
  · rw [if_neg hdeposit, if_neg hdeposit, hsecond]
    dsimp only
    by_cases hhalf : t ≤ init + deposit + window / 2
    · rw [if_pos hhalf, if_pos hhalf, fromRatio_ok (by decide) (by decide)]
    · rw [if_neg hhalf, if_neg hhalf, hfinal]
      dsimp only
      by_cases hlate : t < init + deposit + window
      · -- the second half of the window is not empty: `t` lies in it
        have hleft : Uint.sub (init + deposit + window) t = .ok (init + deposit + window - t) :=
          Uint.sub_eq_ok.mpr ⟨hlate.le, rfl⟩
        have hnum : Uint.mul 64 50 (init + deposit + window - t) =
            .ok (50 * (init + deposit + window - t)) := Uint.mul_eq_ok.mpr ⟨by omega, rfl⟩
        have hrest : Uint.sub (init + deposit + window) (init + deposit + window / 2) =
            .ok (init + deposit + window - (init + deposit + window / 2)) :=
          Uint.sub_eq_ok.mpr ⟨by omega, rfl⟩
        have hden : Uint.mul 64 100 (init + deposit + window - (init + deposit + window / 2)) =
            .ok (100 * (init + deposit + window - (init + deposit + window / 2))) :=
          Uint.mul_eq_ok.mpr ⟨by omega, rfl⟩
        rw [if_pos hlate, if_pos hlate, hleft]
        dsimp only
        rw [hnum]
        dsimp only
        rw [hrest]
        dsimp only
        rw [hden]
        dsimp only
        exact fromRatio_ok (by omega) (by omega)
      · rw [if_neg hlate, if_neg hlate, fromRatio_ok (by decide) (by decide)]
        simp

end Schedule

end NeutronTge.Shares
