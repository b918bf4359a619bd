import Mathlib.Tactic.GCongr
import Mathlib.Tactic.Ring
import Mathlib.Algebra.Order.Ring.Nat

/-!
# NeutronTge.Shares.Schedule

A limit that declines with time: everything before a window opens, one half in the first
half of the window, then linearly down to nothing at its end. `one` is the whole in the
units of the limit, and all divisions round down.
-/

namespace NeutronTge.Shares

/-- The limit at time `t` for a window of some length that opens at `start`. -/
def decliningLimit (one start window t : Nat) : Nat :=
  if t < start then 100 * one / 100
  else if t ≤ start + window / 2 then 50 * one / 100
  else if t < start + window then
    50 * (start + window - t) * one / (100 * (start + window - (start + window / 2)))
  else 0

section Limit

variable {one start window t t' : Nat}

theorem decliningLimit_before (h : t < start) : decliningLimit one start window t = one := by
  rw [decliningLimit, if_pos h, Nat.mul_div_cancel_left one (by decide)]

theorem decliningLimit_first (h : start ≤ t) (hmid : t ≤ start + window / 2) :
    decliningLimit one start window t = 50 * one / 100 := by
  rw [decliningLimit, if_neg (Nat.not_lt_of_le h), if_pos hmid]

theorem decliningLimit_second (hmid : start + window / 2 < t) (h : t < start + window) :
    decliningLimit one start window t =
      50 * (start + window - t) * one / (100 * (start + window - (start + window / 2))) := by
  rw [decliningLimit, if_neg (by omega), if_neg (by omega), if_pos h]

/-- After the window nothing is left, unless the window is empty and time stands still. -/
theorem decliningLimit_after (h : start + window ≤ t) (hwindow : 0 < window ∨ t ≠ start) :
    decliningLimit one start window t = 0 := by
  rw [decliningLimit, if_neg (by omega), if_neg (by omega), if_neg (by omega)]

/-- The linear part starts at one half. -/
theorem linear_le_half {left rest : Nat} (h : left ≤ rest) :
    50 * left * one / (100 * rest) ≤ 50 * one / 100 := by
  rcases Nat.eq_zero_or_pos rest with rfl | hrest
  · simp
  · have hscale : 50 * rest * one / (100 * rest) = 50 * one / 100 := by
      rw [show 50 * rest * one = 50 * one * rest by ring, Nat.mul_div_mul_right _ _ hrest]
    rw [← hscale]
    gcongr

/-- Once the window is open, at most one half is allowed. -/
theorem decliningLimit_le_half (h : start ≤ t) :
    decliningLimit one start window t ≤ 50 * one / 100 := by
  by_cases hmid : t ≤ start + window / 2
  · rw [decliningLimit_first h hmid]
  · by_cases hend : t < start + window
    · rw [decliningLimit_second (Nat.lt_of_not_le hmid) hend]
      exact linear_le_half (by omega)
    · rw [decliningLimit_after (Nat.le_of_not_lt hend) (by omega)]
      exact Nat.zero_le _

theorem decliningLimit_le_one : decliningLimit one start window t ≤ one := by
  rcases Nat.lt_or_ge t start with hbefore | hafter
  · rw [decliningLimit_before hbefore]
  · refine (decliningLimit_le_half hafter).trans ?_
    omega

/-- The limit does not grow. -/
theorem decliningLimit_antitone (h : t ≤ t') :
    decliningLimit one start window t' ≤ decliningLimit one start window t := by
  by_cases hbefore : t < start
  · rw [decliningLimit_before hbefore]
    by_cases hbefore' : t' < start
    · rw [decliningLimit_before hbefore']
    · refine (decliningLimit_le_half (Nat.le_of_not_lt hbefore')).trans ?_
      omega
  · by_cases hmid : t ≤ start + window / 2
    · rw [decliningLimit_first (Nat.le_of_not_lt hbefore) hmid]
      exact decliningLimit_le_half (by omega)
    · by_cases hend' : t' < start + window
      · -- both times lie in the linear part
        rw [decliningLimit_second (by omega) hend', decliningLimit_second (by omega) (by omega)]
        gcongr
      · rw [decliningLimit_after (Nat.le_of_not_lt hend') (by omega)]
        exact Nat.zero_le _

end Limit

end NeutronTge.Shares
