import NeutronTge.Shares.RewardPool

/-!
# NeutronTge.Shares.Payout

How much a reward pool pays at least. Solvency bounds what is paid from above; here is the
bound from below. Every reward that is booked loses less than one unit of `perShare`, and
every lot that leaves loses less than one token:

* what an open lot has accrued is its part, as it was at the start, of everything that
  arrived since (`accrued_ge`), and
* when the last lot is gone, everything that arrived was paid (`drained`),

up to one token for each lot, and the fraction `deposit / scale` of what arrived.
-/

namespace NeutronTge.Shares

/-- An amount of rewards is what `share` of `deposit` tokens should get of `received`: its part,
except for one token and the fraction `deposit / scale` of `received`. -/
def AtLeastPart (scale share deposit received amount : Nat) : Prop :=
  received * scale * share ≤ (amount + 1) * scale * deposit + received * deposit * share

theorem AtLeastPart.mono {scale share deposit received amount amount' : Nat}
    (h : AtLeastPart scale share deposit received amount) (hle : amount ≤ amount') :
    AtLeastPart scale share deposit received amount' :=
  h.trans (Nat.add_le_add_right (Nat.mul_le_mul_right _
    (Nat.mul_le_mul_right _ (Nat.add_le_add_right hle 1))) _)

namespace RewardPool

variable {K : Type} {S : Finset K} {scale : Nat} {p₀ p q : RewardPool K}

variable (S) in
/-- The lots that have left. -/
def leftCount (p : RewardPool K) : Nat := ∑ k ∈ S, ((p.lots k).released.elim 0 fun _ => 1)

theorem leftCount_le (p : RewardPool K) : p.leftCount S ≤ S.card := by
  refine (Finset.sum_le_card_nsmul S _ 1 fun k _ => ?_).trans (by simp)
  cases (p.lots k).released <;> simp

/-- A booked reward is worth what arrived, but for less than one unit per deposited token. -/
theorem booked_ge (scale amount : Nat) {deposit start : Nat} (hpos : 0 < deposit)
    (hle : deposit ≤ start) :
    amount * scale ≤ amount * scale / deposit * deposit + amount * start := by
  rcases Nat.eq_zero_or_pos amount with rfl | hamount
  · simp
  · have hfloor : amount * scale < amount * scale / deposit * deposit + deposit :=
      Nat.lt_div_mul_add hpos
    have hloss : deposit ≤ amount * start :=
      hle.trans (Nat.le_mul_of_pos_left _ hamount)
    omega

variable (S scale) in
/-- What the pool `p` has done with the rewards that arrived since `p₀`. -/
structure Generous (p₀ p : RewardPool K) : Prop where
  deposit_le : p.deposit ≤ p₀.deposit
  perShare_le : p₀.perShare ≤ p.perShare
  received_le : p₀.received ≤ p.received
  /-- A token that was deposited all the time has earned its part. -/
  rate : (p.received - p₀.received) * scale ≤
    (p.perShare - p₀.perShare) * p₀.deposit + (p.received - p₀.received) * p₀.deposit
  /-- What arrived was paid, or is what the deposited tokens are worth beyond the debts. -/
  booked : (p.received - p₀.received) * scale + p₀.paid * scale + p₀.perShare * p₀.deposit +
      (∑ k ∈ S, p.liveDebt k) * scale ≤
    p.paid * scale + p.perShare * p.deposit + (∑ k ∈ S, p₀.liveDebt k) * scale +
      (p.received - p₀.received) * p₀.deposit + p.leftCount S * scale

theorem generous_refl (p : RewardPool K) : p.Generous S scale p where
  deposit_le := le_refl _
  perShare_le := le_refl _
  received_le := le_refl _
  rate := by simp
  booked := by
    rw [Nat.sub_self, Nat.zero_mul, Nat.zero_mul]
    omega

theorem generous_accrue (h : p₀.Generous S scale p) (hpos : 0 < p.deposit) (amount : Nat) :
    p₀.Generous S scale (p.accrue scale amount) := by
  have hgain : p.received + amount - p₀.received = p.received - p₀.received + amount :=
    Nat.sub_add_comm h.received_le
  have hrise : p.perShare + amount * scale / p.deposit - p₀.perShare =
      p.perShare - p₀.perShare + amount * scale / p.deposit := Nat.sub_add_comm h.perShare_le
  have hbooked := booked_ge scale amount hpos h.deposit_le
  constructor
  · exact h.deposit_le
  · exact h.perShare_le.trans (Nat.le_add_right _ _)
  · exact h.received_le.trans (Nat.le_add_right _ _)
  · have hrate := h.rate
    have hmore : amount * scale / p.deposit * p.deposit ≤
        amount * scale / p.deposit * p₀.deposit := Nat.mul_le_mul_left _ h.deposit_le
    rw [accrue_received, accrue_perShare, hgain, hrise]
    simp only [Nat.add_mul]
    omega
  · have hprevious := h.booked
    have hdebts : ∑ k ∈ S, (p.accrue scale amount).liveDebt k = ∑ k ∈ S, p.liveDebt k := rfl
    have hcount : (p.accrue scale amount).leftCount S = p.leftCount S := rfl
    rw [accrue_received, accrue_perShare, accrue_paid, accrue_deposit, hdebts, hcount, hgain]
    simp only [Nat.add_mul]
    omega

variable [DecidableEq K]

theorem leftCount_settle (p : RewardPool K) (k : K) :
    (p.settle S scale k).leftCount S = p.leftCount S := by
  refine Finset.sum_congr rfl fun j _ => ?_
  by_cases hj : j = k
  · subst hj
    rw [settle_lots_self]
  · rw [settle_lots_of_ne p k hj]

theorem leftCount_leave {k : K} (hk : k ∈ S) (hopen : (p.lots k).released = none) :
    (p.leave S k).leftCount S = p.leftCount S + 1 := by
  unfold leftCount
  rw [← Finset.add_sum_erase S _ hk,
    ← Finset.add_sum_erase S (fun j => (p.lots j).released.elim 0 fun _ => 1) hk]
  have hrest : ∑ j ∈ S.erase k, (((p.leave S k).lots j).released.elim 0 fun _ => 1) =
      ∑ j ∈ S.erase k, ((p.lots j).released.elim 0 fun _ => 1) :=
    Finset.sum_congr rfl fun j hj => by rw [leave_lots_of_ne p k (Finset.ne_of_mem_erase hj)]
  rw [hrest, leave_lots_self, hopen]
  simp only [Option.elim_some, Option.elim_none]
  omega

theorem generous_settle (h : p₀.Generous S scale p) {k : K} (hk : k ∈ S)
    (hopen : (p.lots k).released = none) : p₀.Generous S scale (p.settle S scale k) where
  deposit_le := h.deposit_le
  perShare_le := h.perShare_le
  received_le := h.received_le
  rate := h.rate
  booked := by
    have hprevious := h.booked
    have hsum := congrArg (· * scale) (sum_liveDebt_settle scale hk hopen)
    -- what is paid is at least what the debt grows by
    have hpay : p.accrued S scale k * scale ≤
        (p.accrued S scale k - (p.lots k).debt) * scale + (p.lots k).debt * scale := by
      rw [← Nat.add_mul]
      exact Nat.mul_le_mul_right _ (by omega)
    rw [settle_received, settle_paid, settle_perShare, settle_deposit, leftCount_settle]
    simp only [Nat.add_mul] at hsum ⊢
    omega

theorem generous_leave (h : p₀.Generous S scale p) (hscale : 0 < scale) {k : K} (hk : k ∈ S)
    (hopen : (p.lots k).released = none) (hsettled : (p.lots k).debt = p.accrued S scale k) :
    p₀.Generous S scale (p.leave S k) where
  deposit_le := (Nat.sub_le _ _).trans h.deposit_le
  perShare_le := h.perShare_le
  received_le := h.received_le
  rate := h.rate
  booked := by
    have hprevious := h.booked
    -- the tokens that leave are worth less than one token more than the debt that goes with them
    have hgone : p.perShare * p.share S k < p.accrued S scale k * scale + scale :=
      Nat.lt_div_mul_add hscale
    have hdep : p.perShare * (p.deposit - p.share S k) + p.perShare * p.share S k =
        p.perShare * p.deposit := by
      rw [← Nat.mul_add, Nat.sub_add_cancel (share_le_deposit hk)]
    have hdebts : (p.lots k).debt + ∑ j ∈ S, (p.leave S k).liveDebt j =
        ∑ j ∈ S, p.liveDebt j := by
      have hself : p.liveDebt k = (p.lots k).debt := Lot.live_of_open hopen _
      rw [← Finset.add_sum_erase S _ hk, ← Finset.add_sum_erase S (fun j => p.liveDebt j) hk,
        liveDebt_leave_self, hself, Nat.zero_add]
      congr 1
      exact Finset.sum_congr rfl fun j hj => liveDebt_leave_of_ne (Finset.ne_of_mem_erase hj) p
    have hsum := congrArg (· * scale) hdebts
    rw [leave_received, leave_paid, leave_perShare, leave_deposit, leftCount_leave hk hopen]
    simp only [Nat.add_mul, hsettled] at hsum ⊢
    omega

theorem generous_step (hscale : 0 < scale) (h : p₀.Generous S scale p)
    (hstep : Step S scale p q) : p₀.Generous S scale q := by
  cases hstep with
  | accrue amount hdep => exact generous_accrue h hdep amount
  | settle k hk hopen => exact generous_settle h hk hopen
  | leave k hk hopen =>
      have hlot : (p.settle S scale k).lots k = { p.lots k with debt := p.accrued S scale k } :=
        settle_lots_self p k
      refine generous_leave (generous_settle h hk hopen) hscale hk ?_ ?_
      · rw [hlot]
        exact hopen
      · rw [hlot, accrued_settle]

theorem generous_steps (hscale : 0 < scale) (hsteps : Steps S scale p q) :
    p.Generous S scale q := by
  induction hsteps with
  | refl => exact generous_refl p
  | tail _ hstep ih => exact generous_step hscale ih hstep

omit [DecidableEq K] in
/-- An open lot has accrued its part of what arrived, as large as it was at the start. -/
theorem Generous.accrued_ge (h : p₀.Generous S scale p) (hscale : 0 < scale)
    (hfair : p₀.Fair S p) {k : K} (hk : k ∈ S) (hopen : (p.lots k).released = none) :
    AtLeastPart scale (p₀.share S k) p₀.deposit (p.received - p₀.received)
      (p.accrued S scale k) := by
  have hshare := hfair.share_ge hk hopen
  have hfloor : p.perShare * p.share S k ≤ (p.accrued S scale k + 1) * scale := by
    rw [Nat.add_mul, Nat.one_mul]
    exact (Nat.lt_div_mul_add hscale).le
  have hworth : (p.perShare - p₀.perShare) * p₀.share S k ≤ (p.accrued S scale k + 1) * scale :=
    (Nat.mul_le_mul (Nat.sub_le _ _) hshare).trans hfloor
  calc (p.received - p₀.received) * scale * p₀.share S k
      ≤ ((p.perShare - p₀.perShare) * p₀.deposit + (p.received - p₀.received) * p₀.deposit) *
          p₀.share S k := Nat.mul_le_mul_right _ h.rate
    _ = (p.perShare - p₀.perShare) * p₀.share S k * p₀.deposit +
          (p.received - p₀.received) * p₀.deposit * p₀.share S k := by ring
    _ ≤ (p.accrued S scale k + 1) * scale * p₀.deposit +
          (p.received - p₀.received) * p₀.deposit * p₀.share S k :=
        Nat.add_le_add_right (Nat.mul_le_mul_right _ hworth) _

omit [DecidableEq K] in
/-- When nothing is deposited any more, what arrived was paid. -/
theorem Generous.drained (h : p₀.Generous S scale p)
    (hfresh : ∀ k ∈ S, p₀.liveDebt k = 0) (hdeposit : p.deposit = 0) :
    (p.received - p₀.received) * scale + p₀.paid * scale ≤
      p.paid * scale + (p.received - p₀.received) * p₀.deposit + S.card * scale := by
  have hbooked := h.booked
  have hdebts : ∑ k ∈ S, p₀.liveDebt k = 0 := Finset.sum_eq_zero hfresh
  have hcount : p.leftCount S * scale ≤ S.card * scale :=
    Nat.mul_le_mul_right _ (leftCount_le p)
  rw [hdebts, hdeposit, Nat.mul_zero, Nat.zero_mul] at hbooked
  omega

end RewardPool

end NeutronTge.Shares
