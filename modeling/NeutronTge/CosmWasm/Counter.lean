import Mathlib.Algebra.BigOperators.Intervals
import Mathlib.Algebra.Order.BigOperators.Group.Finset
import Mathlib.Tactic.Ring

/-!
# NeutronTge.CosmWasm.Counter

Counters that wrap around. A counter adds up a rate, second by second, and has `size` values.
What was added between two readings is their wrapped difference, as long as it is less than
`size` (`reading_sub`); wherever the counter started, and however often it wrapped around
before. The mean of the rate is what was added over the time.
-/

namespace NeutronTge.CosmWasm

variable {rate : Nat → Nat} {t t' u lo hi scale size start : Nat}

/-- What a rate adds up to from `t` until `t'`. -/
def accrued (rate : Nat → Nat) (t t' : Nat) : Nat := ∑ s ∈ Finset.Ico t t', rate s

/-- The rate stays between two bounds from `t` until `t'`. -/
def Between (rate : Nat → Nat) (t t' lo hi : Nat) : Prop :=
  ∀ s, t ≤ s → s < t' → lo ≤ rate s ∧ rate s ≤ hi

theorem accrued_add (h : t ≤ t') (h' : t' ≤ u) :
    accrued rate t t' + accrued rate t' u = accrued rate t u :=
  Finset.sum_Ico_consecutive rate h h'

theorem Between.accrued_bounds (h : Between rate t t' lo hi) :
    (t' - t) * lo ≤ accrued rate t t' ∧ accrued rate t t' ≤ (t' - t) * hi := by
  have hcard : (Finset.Ico t t').card = t' - t := Nat.card_Ico t t'
  constructor
  · have hle := Finset.card_nsmul_le_sum (Finset.Ico t t') rate lo fun s hs =>
      (h s (Finset.mem_Ico.mp hs).1 (Finset.mem_Ico.mp hs).2).1
    rwa [hcard, nsmul_eq_mul, Nat.cast_id] at hle
  · have hle := Finset.sum_le_card_nsmul (Finset.Ico t t') rate hi fun s hs =>
      (h s (Finset.mem_Ico.mp hs).1 (Finset.mem_Ico.mp hs).2).2
    rwa [hcard, nsmul_eq_mul, Nat.cast_id] at hle

/-! ### Readings -/

/-- What a counter that was at `start` reads at time `t`. -/
def reading (size start : Nat) (rate : Nat → Nat) (t : Nat) : Nat :=
  (start + accrued rate 0 t) % size

/-- The wrapped difference of two numbers that are not a whole turn apart. -/
theorem mod_sub_mod {x d : Nat} (hlt : d < size) :
    ((x + d) % size + (size - x % size)) % size = d := by
  have hx : x % size ≤ size := (Nat.mod_lt x (by omega)).le
  calc ((x + d) % size + (size - x % size)) % size
      = (x % size + d + (size - x % size)) % size := by
        rw [Nat.mod_add_mod, Nat.add_mod, ← Nat.mod_add_mod x size d, ← Nat.add_mod]
    _ = (d + size) % size := by
        congr 1
        omega
    _ = d := by rw [Nat.add_mod_right, Nat.mod_eq_of_lt hlt]

theorem reading_sub (hle : t ≤ t') (hlt : accrued rate t t' < size) :
    (reading size start rate t' + (size - reading size start rate t)) % size =
      accrued rate t t' := by
  unfold reading
  rw [← accrued_add (Nat.zero_le t) hle, ← Nat.add_assoc]
  exact mod_sub_mod hlt

/-! ### Means -/

/-- The mean of the rate in units of `1 / scale`, rounded down. -/
def mean (scale : Nat) (rate : Nat → Nat) (t t' : Nat) : Nat :=
  accrued rate t t' * scale / (t' - t)

theorem Between.mean_bounds (h : Between rate t t' lo hi) (hlt : t < t') :
    lo * scale ≤ mean scale rate t t' ∧ mean scale rate t t' ≤ hi * scale := by
  obtain ⟨hlow, hhigh⟩ := h.accrued_bounds
  have hpos : 0 < t' - t := Nat.sub_pos_of_lt hlt
  constructor
  · refine (Nat.le_div_iff_mul_le hpos).mpr ?_
    calc lo * scale * (t' - t) = (t' - t) * lo * scale := by ring
      _ ≤ _ := Nat.mul_le_mul_right _ hlow
  · refine Nat.div_le_of_le_mul ?_
    calc accrued rate t t' * scale ≤ (t' - t) * hi * scale := Nat.mul_le_mul_right _ hhigh
      _ = (t' - t) * (hi * scale) := Nat.mul_assoc _ _ _

end NeutronTge.CosmWasm
