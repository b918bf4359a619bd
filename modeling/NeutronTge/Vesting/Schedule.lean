import Mathlib.Data.Nat.Cast.Order.Field
import Mathlib.Algebra.BigOperators.Ring.Finset
import Mathlib.Data.Rat.Cast.Order
import Mathlib.Algebra.Order.Field.Basic
import NeutronTge.Vesting.Base

/-!
# NeutronTge.Vesting.Schedule

What a list of schedules has vested by a given time. `vested` adds up the floors the
contract computes and never fails; on valid schedules `compute_available_amount` is
`vested` less the released amount. Everything about claims follows from three facts
about `vested`: it grows with time, it never passes the linear interpolation, and in the
end it is what the schedules grant.
-/

namespace NeutronTge.Vesting

open CosmWasm

/-- What `assert_vesting_schedules` asks of a schedule. -/
def VestingSchedule.Valid (sch : VestingSchedule) : Prop :=
  ∀ endPoint ∈ sch.endPoint,
    sch.startPoint.time < endPoint.time ∧ sch.startPoint.amount < endPoint.amount

theorem assertVestingSchedules_ok {addr : Addr} {schedules : List VestingSchedule} {u : Unit}
    (h : assertVestingSchedules addr schedules = .ok u) : ∀ sch ∈ schedules, sch.Valid := by
  intro sch hsch endPoint hend
  have hnone := rejectIf_eq_ok.mp h
  by_contra hbad
  exact hnone ⟨sch, hsch, endPoint, hend, hbad⟩

/-! ### One schedule -/

/-- What a schedule has vested at `currentTime`, rounded down. -/
def vestedAmount (currentTime : Nat) (sch : VestingSchedule) : Nat :=
  if currentTime < sch.startPoint.time then 0
  else
    match sch.endPoint with
    | none => sch.startPoint.amount
    | some endPoint =>
        sch.startPoint.amount +
          (min currentTime endPoint.time - sch.startPoint.time) *
            (endPoint.amount - sch.startPoint.amount) / (endPoint.time - sch.startPoint.time)

/-- No part of a gain is more than the gain. -/
theorem part_le_gain {passed gain period : Nat} (h : passed ≤ period) :
    passed * gain / period ≤ gain := by
  rcases Nat.eq_zero_or_pos period with rfl | hpos
  · simp
  · calc passed * gain / period ≤ period * gain / period :=
          Nat.div_le_div_right (Nat.mul_le_mul_right gain h)
      _ = gain := Nat.mul_div_cancel_left gain hpos

theorem vestedAmount_le_granted {sch : VestingSchedule} (h : sch.Valid) (currentTime : Nat) :
    vestedAmount currentTime sch ≤ grantedAmount sch := by
  unfold vestedAmount grantedAmount
  cases hend : sch.endPoint with
  | none =>
      dsimp only
      split <;> omega
  | some endPoint =>
      obtain ⟨htime, hamount⟩ := h endPoint hend
      have hpart : (min currentTime endPoint.time - sch.startPoint.time) *
          (endPoint.amount - sch.startPoint.amount) / (endPoint.time - sch.startPoint.time) ≤
          endPoint.amount - sch.startPoint.amount := part_le_gain (by omega)
      dsimp only
      split <;> omega

/-- Waiting never takes anything back. -/
theorem vestedAmount_mono (sch : VestingSchedule) {t t' : Nat} (h : t ≤ t') :
    vestedAmount t sch ≤ vestedAmount t' sch := by
  unfold vestedAmount
  by_cases hstart : t < sch.startPoint.time
  · rw [if_pos hstart]
    exact Nat.zero_le _
  · rw [if_neg hstart, if_neg (show ¬ t' < sch.startPoint.time by omega)]
    cases sch.endPoint with
    | none => exact le_refl _
    | some endPoint =>
        refine Nat.add_le_add_left (Nat.div_le_div_right (Nat.mul_le_mul_right _ ?_)) _
        omega

/-- The schedule ends by `t`; without an end point it ends at its start. -/
def VestingSchedule.EndsBy (t : Nat) (sch : VestingSchedule) : Prop :=
  sch.startPoint.time ≤ t ∧ ∀ endPoint ∈ sch.endPoint, endPoint.time ≤ t

theorem vestedAmount_of_endsBy {sch : VestingSchedule} {t : Nat} (h : sch.Valid)
    (hends : sch.EndsBy t) : vestedAmount t sch = grantedAmount sch := by
  unfold vestedAmount grantedAmount
  rw [if_neg (show ¬ t < sch.startPoint.time from Nat.not_lt.mpr hends.1)]
  cases hend : sch.endPoint with
  | none => rfl
  | some endPoint =>
      obtain ⟨htime, hamount⟩ := h endPoint hend
      have hlast : endPoint.time ≤ t := hends.2 endPoint hend
      dsimp only
      rw [Nat.min_eq_right hlast, Nat.mul_div_cancel_left _ (by omega)]
      omega

/-- The loop body of `compute_available_amount` adds what the schedule has vested. -/
theorem addVested_eq {sch : VestingSchedule} (h : sch.Valid) {currentTime availableAmount : Nat}
    (hlt : availableAmount + vestedAmount currentTime sch < 2 ^ 128) :
    addVested currentTime availableAmount sch =
      .ok (availableAmount + vestedAmount currentTime sch) := by
  unfold addVested
  unfold vestedAmount at hlt ⊢
  by_cases hstart : currentTime < sch.startPoint.time
  · simp only [if_pos hstart, Nat.add_zero]
  · simp only [if_neg hstart, bind_eq_ok] at hlt ⊢
    cases hend : sch.endPoint with
    | none =>
        simp only [hend] at hlt
        exact ⟨_, Uint.checkedAdd_eq_ok.mpr ⟨hlt, rfl⟩, rfl⟩
    | some endPoint =>
        obtain ⟨htime, hamount⟩ := h endPoint hend
        simp only [hend, ← Nat.add_assoc] at hlt ⊢
        have hfirst := Nat.lt_of_le_of_lt (Nat.le_add_right _ _) hlt
        refine ⟨_, Uint.checkedAdd_eq_ok.mpr ⟨hfirst, rfl⟩, ?_⟩
        simp only [bind_eq_ok]
        refine ⟨_, Uint.sub_eq_ok.mpr ⟨by omega, rfl⟩, _, Uint.sub_eq_ok.mpr ⟨by omega, rfl⟩, ?_⟩
        split
        · simp only [bind_eq_ok]
          refine ⟨_, Uint.checkedSub_eq_ok.mpr ⟨hamount.le, rfl⟩, _,
            Uint.multiplyRatio_eq_ok.mpr
              ⟨by omega, Nat.lt_of_le_of_lt (Nat.le_add_left _ _) hlt, rfl⟩, ?_⟩
          exact Uint.checkedAdd_eq_ok.mpr ⟨hlt, rfl⟩
        · -- nothing has passed yet: the period itself is positive
          rename_i hzero
          have hpassed : min currentTime endPoint.time - sch.startPoint.time = 0 := by omega
          simp [hpassed]

/-! ### All schedules of an account -/

/-- What the schedules have vested together. -/
def vested (currentTime : Nat) (schedules : List VestingSchedule) : Nat :=
  (schedules.map (vestedAmount currentTime)).sum

@[simp] theorem vested_nil (t : Nat) : vested t [] = 0 := rfl

@[simp] theorem vested_cons (t : Nat) (sch : VestingSchedule) (rest : List VestingSchedule) :
    vested t (sch :: rest) = vestedAmount t sch + vested t rest := by
  simp [vested]

@[simp] theorem vested_append (t : Nat) (xs ys : List VestingSchedule) :
    vested t (xs ++ ys) = vested t xs + vested t ys := by
  simp [vested]

@[simp] theorem granted_nil : granted [] = 0 := rfl

@[simp] theorem granted_cons (sch : VestingSchedule) (rest : List VestingSchedule) :
    granted (sch :: rest) = grantedAmount sch + granted rest := by
  simp [granted]

theorem vested_mono (schedules : List VestingSchedule) {t t' : Nat} (h : t ≤ t') :
    vested t schedules ≤ vested t' schedules :=
  List.sum_le_sum fun sch _ => vestedAmount_mono sch h

theorem vested_le_granted {schedules : List VestingSchedule} (h : ∀ sch ∈ schedules, sch.Valid)
    (t : Nat) : vested t schedules ≤ granted schedules :=
  List.sum_le_sum fun sch hsch => vestedAmount_le_granted (h sch hsch) t

theorem vested_of_endsBy {schedules : List VestingSchedule} {t : Nat}
    (h : ∀ sch ∈ schedules, sch.Valid) (hends : ∀ sch ∈ schedules, sch.EndsBy t) :
    vested t schedules = granted schedules := by
  unfold vested granted
  congr 1
  exact List.map_congr_left fun sch hsch => vestedAmount_of_endsBy (h sch hsch) (hends sch hsch)

/-- The loop of `compute_available_amount`, from `acc` on. -/
theorem foldlM_addVested {schedules : List VestingSchedule} {currentTime : Nat} :
    ∀ {acc : Nat}, (∀ sch ∈ schedules, sch.Valid) → acc + granted schedules < 2 ^ 128 →
      schedules.foldlM (addVested currentTime) acc =
        .ok (acc + vested currentTime schedules) := by
  induction schedules with
  | nil =>
      intro acc _ _
      rfl
  | cons sch rest ih =>
      intro acc hvalid hlt
      have hsch : sch.Valid := hvalid sch List.mem_cons_self
      have hle := vestedAmount_le_granted hsch currentTime
      rw [granted_cons] at hlt
      rw [List.foldlM_cons, addVested_eq hsch (by omega)]
      show rest.foldlM (addVested currentTime) (acc + vestedAmount currentTime sch) = _
      rw [ih (fun s hs => hvalid s (List.mem_cons_of_mem _ hs)) (by omega), vested_cons,
        Nat.add_assoc]

/-- On valid schedules that grant less than 2 ^ 128, the only thing that can fail is the
subtraction of what was already released. -/
theorem computeAvailableAmount_eq {info : VestingInfo} (hvalid : ∀ sch ∈ info.schedules, sch.Valid)
    (hlt : granted info.schedules < 2 ^ 128) (currentTime : Nat) :
    computeAvailableAmount currentTime info =
      Uint.checkedSub (vested currentTime info.schedules) info.releasedAmount := by
  unfold computeAvailableAmount
  rw [foldlM_addVested hvalid (by omega), Nat.zero_add]
  rfl

/-! ### The linear interpolation -/

/-- A schedule's line from its start to its end, without rounding. -/
def interpolation (t : Nat) (sch : VestingSchedule) : ℚ :=
  if t < sch.startPoint.time then 0
  else
    match sch.endPoint with
    | none => sch.startPoint.amount
    | some endPoint =>
        sch.startPoint.amount +
          (min t endPoint.time - sch.startPoint.time : ℚ) *
            (endPoint.amount - sch.startPoint.amount) / (endPoint.time - sch.startPoint.time)

theorem vestedAmount_le_interpolation {sch : VestingSchedule} (h : sch.Valid) (t : Nat) :
    (vestedAmount t sch : ℚ) ≤ interpolation t sch := by
  unfold vestedAmount interpolation
  split
  · simp
  · rename_i hstart
    cases hend : sch.endPoint with
    | none => exact le_refl _
    | some endPoint =>
        obtain ⟨htime, hamount⟩ := h endPoint hend
        have hmin : sch.startPoint.time ≤ min t endPoint.time := by omega
        dsimp only
        rw [Nat.cast_add]
        refine add_le_add_right (Nat.cast_div_le.trans (le_of_eq ?_)) _
        rw [Nat.cast_mul, Nat.cast_sub hmin, Nat.cast_sub hamount.le, Nat.cast_sub htime.le,
          Nat.cast_min]

theorem vested_le_interpolation {schedules : List VestingSchedule}
    (h : ∀ sch ∈ schedules, sch.Valid) (t : Nat) :
    (vested t schedules : ℚ) ≤ (schedules.map (interpolation t)).sum := by
  unfold vested
  rw [Nat.cast_list_sum, List.map_map]
  exact List.sum_le_sum fun sch hsch => vestedAmount_le_interpolation (h sch hsch) t

end NeutronTge.Vesting
