import Mathlib.Algebra.BigOperators.Group.Finset.Piecewise
import Mathlib.Algebra.BigOperators.Ring.Finset
import Mathlib.Algebra.Order.BigOperators.Group.Finset
import Mathlib.Logic.Relation
import Mathlib.Tactic.Ring
import Mathlib.Tactic.Linarith

/-!
# NeutronTge.Shares.RewardPool

A pool that many parties hold together: each lot has a number of *units*, the pool
has one *deposit*, and a lot's share of the deposit is `units * deposit / total`,
rounded down. Rewards are booked per deposited token (`perShare`, in units of
`1 / scale`), and a lot that settles is paid what its share has accrued beyond its
recorded debt.

A lot leaves with its rounded share, so the share of the others grows a little with
every exit while their debts were recorded at the old share. Two facts survive this
drift, whatever the order of the events:

* the pool is *solvent*: it never pays more than it received (`Solvent.paid_le`),
  because every deposited token is worth `perShare` and leaves the pool with at least
  the debt of the lot it leaves with;
* the pool is *fair*: nobody leaves with less than the share he had at the start, and
  the last lot takes the whole remaining deposit (`Fair`).
-/

namespace NeutronTge.Shares

/-- One party's part of the pool. `released` is what the lot has left with, and
`none` while it is open. -/
structure Lot where
  units : Nat
  debt : Nat
  released : Option Nat
  deriving Repr, DecidableEq

namespace Lot

/-- A quantity of an open lot; a lot that left has none of it. -/
def live (l : Lot) (n : Nat) : Nat :=
  match l.released with
  | none => n
  | some _ => 0

theorem live_of_open {l : Lot} (h : l.released = none) (n : Nat) : l.live n = n := by
  simp [live, h]

theorem live_of_closed {l : Lot} {a : Nat} (h : l.released = some a) (n : Nat) :
    l.live n = 0 := by
  simp [live, h]

end Lot

/-- The pool. `received` and `paid` count the rewards that came in and went out. -/
structure RewardPool (K : Type) where
  lots : K → Lot
  deposit : Nat
  perShare : Nat
  received : Nat
  paid : Nat

namespace RewardPool

variable {K : Type} (S : Finset K) (scale : Nat)

/-- The units lot `k` still has in the pool. -/
def liveUnits (p : RewardPool K) (k : K) : Nat := (p.lots k).live (p.lots k).units

/-- The debt of lot `k`, as long as it is open. -/
def liveDebt (p : RewardPool K) (k : K) : Nat := (p.lots k).live (p.lots k).debt

/-- The units of all open lots. -/
def total (p : RewardPool K) : Nat := ∑ k ∈ S, p.liveUnits k

/-- The tokens of the deposit that belong to lot `k`. -/
def share (p : RewardPool K) (k : K) : Nat := p.liveUnits k * p.deposit / p.total S

/-- What the share of lot `k` has accrued from the beginning. -/
def accrued (p : RewardPool K) (k : K) : Nat := p.perShare * p.share S k / scale

/-- What lot `k` would be paid if it settled now. -/
def owed (p : RewardPool K) (k : K) : Nat := p.accrued S scale k - p.liveDebt k

/-- The tokens all closed lots have left with. -/
def releasedSum (p : RewardPool K) : Nat := ∑ k ∈ S, ((p.lots k).released.getD 0)

section Shares

variable {S}

theorem share_mul_total_le (p : RewardPool K) (k : K) :
    p.share S k * p.total S ≤ p.liveUnits k * p.deposit :=
  Nat.div_mul_le_self _ _

/-- The shares never exceed the deposit. -/
theorem sum_share_le (p : RewardPool K) : ∑ k ∈ S, p.share S k ≤ p.deposit := by
  rcases Nat.eq_zero_or_pos (p.total S) with hzero | hpos
  · simp [share, hzero]
  · refine Nat.le_of_mul_le_mul_right ?_ hpos
    calc (∑ k ∈ S, p.share S k) * p.total S
        = ∑ k ∈ S, p.share S k * p.total S := Finset.sum_mul ..
      _ ≤ ∑ k ∈ S, p.liveUnits k * p.deposit :=
          Finset.sum_le_sum fun k _ => share_mul_total_le p k
      _ = p.deposit * p.total S := by rw [← Finset.sum_mul, Nat.mul_comm]; rfl

theorem share_le_deposit {p : RewardPool K} {k : K} (hk : k ∈ S) :
    p.share S k ≤ p.deposit :=
  (Finset.single_le_sum (f := fun k => p.share S k) (fun _ _ => Nat.zero_le _) hk).trans
    (sum_share_le p)

theorem liveUnits_le_total {p : RewardPool K} {k : K} (hk : k ∈ S) :
    p.liveUnits k ≤ p.total S :=
  Finset.single_le_sum (f := fun k => p.liveUnits k) (fun _ _ => Nat.zero_le _) hk

/-- The last open lot takes everything. -/
theorem share_eq_deposit {p : RewardPool K} {k : K} (hunits : 0 < p.liveUnits k)
    (hlast : p.liveUnits k = p.total S) : p.share S k = p.deposit := by
  unfold share
  rw [← hlast, Nat.mul_div_cancel_left _ hunits]

end Shares

/-- `amount` of reward arrives. -/
def accrue (p : RewardPool K) (amount : Nat) : RewardPool K :=
  { p with
    perShare := p.perShare + amount * scale / p.deposit
    received := p.received + amount }

section Accrue

variable {S scale}

@[simp] theorem accrue_lots (p : RewardPool K) (amount : Nat) :
    (p.accrue scale amount).lots = p.lots := rfl

@[simp] theorem accrue_deposit (p : RewardPool K) (amount : Nat) :
    (p.accrue scale amount).deposit = p.deposit := rfl

@[simp] theorem accrue_perShare (p : RewardPool K) (amount : Nat) :
    (p.accrue scale amount).perShare = p.perShare + amount * scale / p.deposit := rfl

@[simp] theorem accrue_received (p : RewardPool K) (amount : Nat) :
    (p.accrue scale amount).received = p.received + amount := rfl

@[simp] theorem accrue_paid (p : RewardPool K) (amount : Nat) :
    (p.accrue scale amount).paid = p.paid := rfl

@[simp] theorem total_accrue (p : RewardPool K) (amount : Nat) :
    (p.accrue scale amount).total S = p.total S := rfl

end Accrue

section Books

variable {S scale}

/-! ### Solvency -/

variable (S scale) in
/-- The pool can honour its books: no open lot owes more than it has accrued, and what
was paid, together with what the deposited tokens are worth, is covered by what was
received and by the recorded debts. -/
structure Solvent (p : RewardPool K) : Prop where
  debt_le : ∀ k ∈ S, p.liveDebt k ≤ p.accrued S scale k
  funded : p.paid * scale + p.perShare * p.deposit ≤
    p.received * scale + (∑ k ∈ S, p.liveDebt k) * scale

theorem accrued_mul_le (p : RewardPool K) (k : K) :
    p.accrued S scale k * scale ≤ p.perShare * p.share S k :=
  Nat.div_mul_le_self _ _

/-- What all lots have accrued is booked on the deposit. -/
theorem sum_accrued_mul_le (p : RewardPool K) :
    (∑ k ∈ S, p.accrued S scale k) * scale ≤ p.perShare * p.deposit := by
  calc (∑ k ∈ S, p.accrued S scale k) * scale
      = ∑ k ∈ S, p.accrued S scale k * scale := Finset.sum_mul ..
    _ ≤ ∑ k ∈ S, p.perShare * p.share S k := Finset.sum_le_sum fun k _ => accrued_mul_le p k
    _ = p.perShare * ∑ k ∈ S, p.share S k := (Finset.mul_sum ..).symm
    _ ≤ p.perShare * p.deposit := Nat.mul_le_mul_left _ (sum_share_le p)

/-- A solvent pool received what it paid and what it still owes. -/
theorem Solvent.owed_le {p : RewardPool K} (h : p.Solvent S scale) (hscale : 0 < scale) :
    p.paid + ∑ k ∈ S, p.owed S scale k ≤ p.received := by
  have hsum : (∑ k ∈ S, p.owed S scale k) + ∑ k ∈ S, p.liveDebt k =
      ∑ k ∈ S, p.accrued S scale k := by
    rw [← Finset.sum_add_distrib]
    exact Finset.sum_congr rfl fun k hk => Nat.sub_add_cancel (h.debt_le k hk)
  have haccrued : (∑ k ∈ S, p.accrued S scale k) * scale ≤ _ := sum_accrued_mul_le p
  rw [← hsum, Nat.add_mul] at haccrued
  have hfunded := h.funded
  refine Nat.le_of_mul_le_mul_right ?_ hscale
  rw [Nat.add_mul]
  omega

/-- A solvent pool never paid more than it received. -/
theorem Solvent.paid_le {p : RewardPool K} (h : p.Solvent S scale) (hscale : 0 < scale) :
    p.paid ≤ p.received :=
  (Nat.le_add_right _ _).trans (h.owed_le hscale)

/-- The settling lot pays no more than it has accrued: the subtraction is exact. -/
theorem Solvent.debt_le_accrued {p : RewardPool K} (h : p.Solvent S scale) {k : K}
    (hk : k ∈ S) (hopen : (p.lots k).released = none) :
    (p.lots k).debt ≤ p.accrued S scale k := by
  have hle := h.debt_le k hk
  rwa [liveDebt, Lot.live_of_open hopen] at hle

theorem solvent_accrue {p : RewardPool K} (h : p.Solvent S scale) (amount : Nat) :
    (p.accrue scale amount).Solvent S scale where
  debt_le k hk := by
    have hmono : p.accrued S scale k ≤ (p.accrue scale amount).accrued S scale k :=
      Nat.div_le_div_right (Nat.mul_le_mul_right _ (Nat.le_add_right _ _))
    exact (h.debt_le k hk).trans hmono
  funded := by
    have hbooked : amount * scale / p.deposit * p.deposit ≤ amount * scale :=
      Nat.div_mul_le_self _ _
    have hfunded := h.funded
    have hdebts : ∑ k ∈ S, (p.accrue scale amount).liveDebt k = ∑ k ∈ S, p.liveDebt k := rfl
    rw [hdebts]
    simp only [accrue, Nat.add_mul]
    omega

/-- A pool that differs in what it received only, and received no less, is solvent as well. -/
theorem Solvent.congr {p q : RewardPool K} (h : p.Solvent S scale)
    (hlots : ∀ k, q.lots k = p.lots k) (hdeposit : q.deposit = p.deposit)
    (hperShare : q.perShare = p.perShare) (hreceived : p.received ≤ q.received)
    (hpaid : q.paid = p.paid) : q.Solvent S scale := by
  obtain ⟨lots, deposit, perShare, received, paid⟩ := q
  obtain rfl : lots = p.lots := funext hlots
  dsimp only at hdeposit hperShare hpaid
  subst hdeposit hperShare hpaid
  exact ⟨h.debt_le, h.funded.trans (Nat.add_le_add_right (Nat.mul_le_mul_right _ hreceived) _)⟩

/-- A pool that never paid and never booked anything is solvent. -/
theorem solvent_of_fresh {p : RewardPool K} (hperShare : p.perShare = 0)
    (hdebt : ∀ k ∈ S, (p.lots k).debt = 0) (hpaid : p.paid ≤ p.received) :
    p.Solvent S scale where
  debt_le k hk := by
    unfold liveDebt Lot.live
    rw [hdebt k hk]
    split <;> exact Nat.zero_le _
  funded := by
    rw [hperShare, Nat.zero_mul, Nat.add_zero]
    exact (Nat.mul_le_mul_right _ hpaid).trans (Nat.le_add_right _ _)

/-! ### Fairness of the exits -/

variable (S) in
/-- How the pool `p` compares with the pool `p₀` it started as. -/
structure Fair (p₀ p : RewardPool K) : Prop where
  /-- Units are never changed, only taken out. -/
  units_eq : ∀ k, (p.lots k).units = (p₀.lots k).units
  /-- A lot leaves at most once. -/
  once : ∀ k a, (p₀.lots k).released = some a → (p.lots k).released = some a
  /-- A unit is worth at least as much deposit as at the start. -/
  rate : p₀.deposit * p.total S ≤ p.deposit * p₀.total S
  /-- Who left since the start left with at least his share at the start. -/
  released_ge : ∀ k ∈ S, ∀ a, (p₀.lots k).released = none → (p.lots k).released = some a →
    p₀.share S k ≤ a
  /-- Every deposited token is still there or was handed out. -/
  conserved : p.deposit + p.releasedSum S = p₀.deposit + p₀.releasedSum S
  /-- Nothing stays behind when the last lot is gone. -/
  drained : 0 < p₀.total S → p.total S = 0 → p.deposit = 0

theorem fair_refl (p : RewardPool K) : p.Fair S p where
  units_eq _ := rfl
  once _ _ h := h
  rate := le_refl _
  released_ge k _ a hnone hsome := by simp [hnone] at hsome
  conserved := rfl
  drained hpos hzero := by omega

/-- Events that only book rewards do not matter for fairness. -/
theorem Fair.congr {p₀ p q : RewardPool K} (h : p₀.Fair S p)
    (hunits : ∀ k, (q.lots k).units = (p.lots k).units)
    (hreleased : ∀ k, (q.lots k).released = (p.lots k).released)
    (hdeposit : q.deposit = p.deposit) : p₀.Fair S q := by
  have htotal : q.total S = p.total S :=
    Finset.sum_congr rfl fun k _ => by simp [liveUnits, Lot.live, hunits, hreleased]
  have hsum : q.releasedSum S = p.releasedSum S :=
    Finset.sum_congr rfl fun k _ => by rw [hreleased]
  constructor
  · exact fun k => (hunits k).trans (h.units_eq k)
  · exact fun k a hk => (hreleased k).trans (h.once k a hk)
  · rw [htotal, hdeposit]; exact h.rate
  · exact fun k hk a hnone hsome => h.released_ge k hk a hnone (hreleased k ▸ hsome)
  · rw [hsum, hdeposit]; exact h.conserved
  · rw [htotal, hdeposit]; exact h.drained

/-- The share of an open lot is at least its share at the start. -/
theorem Fair.share_ge {p₀ p : RewardPool K} (h : p₀.Fair S p) {k : K} (hk : k ∈ S)
    (hopen : (p.lots k).released = none) : p₀.share S k ≤ p.share S k := by
  have hopen₀ : (p₀.lots k).released = none := by
    cases hrel : (p₀.lots k).released with
    | none => rfl
    | some a => simp [h.once k a hrel] at hopen
  have hlive : p.liveUnits k = p₀.liveUnits k := by
    rw [liveUnits, liveUnits, Lot.live_of_open hopen, Lot.live_of_open hopen₀, h.units_eq]
  have hle : p.liveUnits k ≤ p.total S := liveUnits_le_total hk
  rcases Nat.eq_zero_or_pos (p₀.total S) with hzero | hpos₀
  · simp [share, hzero]
  rcases Nat.eq_zero_or_pos (p.total S) with hzero | hpos
  · have hunits : p₀.liveUnits k = 0 := by omega
    simp [share, hunits]
  · have hrate := h.rate
    unfold share
    rw [hlive, Nat.le_div_iff_mul_le hpos]
    refine Nat.le_of_mul_le_mul_right ?_ hpos₀
    calc p₀.liveUnits k * p₀.deposit / p₀.total S * p.total S * p₀.total S
        = p₀.liveUnits k * p₀.deposit / p₀.total S * p₀.total S * p.total S := by ring
      _ ≤ p₀.liveUnits k * p₀.deposit * p.total S :=
          Nat.mul_le_mul_right _ (Nat.div_mul_le_self _ _)
      _ = p₀.liveUnits k * (p₀.deposit * p.total S) := by ring
      _ ≤ p₀.liveUnits k * (p.deposit * p₀.total S) := Nat.mul_le_mul_left _ hrate
      _ = p₀.liveUnits k * p.deposit * p₀.total S := by ring

/-- A pool with open lots had them from the start. -/
theorem Fair.total_pos {p₀ p : RewardPool K} (h : p₀.Fair S p) (hdeposit : 0 < p₀.deposit)
    (htotal : 0 < p.total S) : 0 < p₀.total S := by
  have hrate := h.rate
  have hleft : 0 < p₀.deposit * p.total S := Nat.mul_pos hdeposit htotal
  exact Nat.pos_of_mul_pos_left (hleft.trans_le hrate)

/-- The deposit is gone exactly when the lots are. -/
theorem Fair.deposit_eq_zero {p₀ p : RewardPool K} (h : p₀.Fair S p) (hdeposit : 0 < p₀.deposit)
    (htotal : 0 < p₀.total S) : p.deposit = 0 ↔ p.total S = 0 := by
  refine ⟨fun hzero => ?_, h.drained htotal⟩
  have hrate := h.rate
  rw [hzero, Nat.zero_mul, Nat.le_zero, Nat.mul_eq_zero] at hrate
  exact hrate.resolve_left (Nat.ne_of_gt hdeposit)

end Books

variable [DecidableEq K]

/-- Lot `k` is paid what it has accrued beyond its debt. -/
def settle (p : RewardPool K) (k : K) : RewardPool K :=
  { p with
    lots := Function.update p.lots k { p.lots k with debt := p.accrued S scale k }
    paid := p.paid + (p.accrued S scale k - (p.lots k).debt) }

/-- Lot `k` leaves with its share. -/
def leave (p : RewardPool K) (k : K) : RewardPool K :=
  { p with
    lots := Function.update p.lots k { p.lots k with released := some (p.share S k) }
    deposit := p.deposit - p.share S k }

/-- The events of a pool: rewards arrive while something is deposited, an open lot
settles, and an open lot settles and leaves. -/
inductive Step : RewardPool K → RewardPool K → Prop
  | accrue (p : RewardPool K) (amount : Nat) (hdep : 0 < p.deposit) :
      Step p (p.accrue scale amount)
  | settle (p : RewardPool K) (k : K) (hk : k ∈ S) (hopen : (p.lots k).released = none) :
      Step p (p.settle S scale k)
  | leave (p : RewardPool K) (k : K) (hk : k ∈ S) (hopen : (p.lots k).released = none) :
      Step p ((p.settle S scale k).leave S k)

/-- Any number of events. -/
abbrev Steps : RewardPool K → RewardPool K → Prop := Relation.ReflTransGen (Step S scale)

variable {S scale}

/-! ### What an event changes -/

section Fields

variable (p : RewardPool K) (k : K)

@[simp] theorem settle_deposit : (p.settle S scale k).deposit = p.deposit := rfl

@[simp] theorem settle_perShare : (p.settle S scale k).perShare = p.perShare := rfl

@[simp] theorem settle_received : (p.settle S scale k).received = p.received := rfl

@[simp] theorem settle_paid :
    (p.settle S scale k).paid = p.paid + (p.accrued S scale k - (p.lots k).debt) := rfl

@[simp] theorem settle_lots_self :
    (p.settle S scale k).lots k = { p.lots k with debt := p.accrued S scale k } :=
  Function.update_self ..

theorem settle_lots_of_ne {j : K} (h : j ≠ k) : (p.settle S scale k).lots j = p.lots j :=
  Function.update_of_ne h _ _

@[simp] theorem leave_deposit : (p.leave S k).deposit = p.deposit - p.share S k := rfl

@[simp] theorem leave_perShare : (p.leave S k).perShare = p.perShare := rfl

@[simp] theorem leave_received : (p.leave S k).received = p.received := rfl

@[simp] theorem leave_paid : (p.leave S k).paid = p.paid := rfl

@[simp] theorem leave_lots_self :
    (p.leave S k).lots k = { p.lots k with released := some (p.share S k) } :=
  Function.update_self ..

theorem leave_lots_of_ne {j : K} (h : j ≠ k) : (p.leave S k).lots j = p.lots j :=
  Function.update_of_ne h _ _

end Fields

/-! ### What an event does to the shares -/

theorem liveUnits_settle (p : RewardPool K) (k j : K) :
    (p.settle S scale k).liveUnits j = p.liveUnits j := by
  by_cases hj : j = k
  · subst hj
    simp [liveUnits, settle, Lot.live]
  · simp [liveUnits, settle, Function.update_of_ne hj]

@[simp] theorem total_settle (p : RewardPool K) (k : K) :
    (p.settle S scale k).total S = p.total S :=
  Finset.sum_congr rfl fun j _ => liveUnits_settle p k j

@[simp] theorem share_settle (p : RewardPool K) (k j : K) :
    (p.settle S scale k).share S j = p.share S j := by
  unfold share
  rw [liveUnits_settle, total_settle]
  rfl

@[simp] theorem accrued_settle (p : RewardPool K) (k j : K) :
    (p.settle S scale k).accrued S scale j = p.accrued S scale j := by
  unfold accrued
  rw [share_settle]
  rfl

theorem liveUnits_leave_self (p : RewardPool K) (k : K) : (p.leave S k).liveUnits k = 0 := by
  simp [liveUnits, leave, Lot.live]

theorem liveUnits_leave_of_ne {j k : K} (h : j ≠ k) (p : RewardPool K) :
    (p.leave S k).liveUnits j = p.liveUnits j := by
  simp [liveUnits, leave, Function.update_of_ne h]

theorem total_leave {p : RewardPool K} {k : K} (hk : k ∈ S) :
    p.liveUnits k + (p.leave S k).total S = p.total S := by
  unfold total
  rw [← Finset.add_sum_erase S _ hk, ← Finset.add_sum_erase S (fun j => p.liveUnits j) hk,
    liveUnits_leave_self]
  have hrest : ∑ j ∈ S.erase k, (p.leave S k).liveUnits j = ∑ j ∈ S.erase k, p.liveUnits j :=
    Finset.sum_congr rfl fun j hj => liveUnits_leave_of_ne (Finset.ne_of_mem_erase hj) p
  omega

/-- An exit leaves every unit at least as much deposit as it had. -/
theorem rate_leave {p : RewardPool K} {k : K} (hk : k ∈ S) :
    p.deposit * (p.leave S k).total S ≤ (p.leave S k).deposit * p.total S := by
  have htotal := total_leave (p := p) hk
  have hshare := share_mul_total_le (S := S) p k
  have hle : p.share S k ≤ p.deposit := share_le_deposit hk
  change p.deposit * (p.leave S k).total S ≤ (p.deposit - p.share S k) * p.total S
  rw [Nat.sub_mul]
  have hexpand : p.deposit * p.total S =
      p.deposit * p.liveUnits k + p.deposit * (p.leave S k).total S := by
    rw [← htotal, Nat.mul_add]
  rw [Nat.mul_comm (p.liveUnits k)] at hshare
  omega

/-- The share of a lot that stays never falls. -/
theorem share_le_share_leave {p : RewardPool K} {j k : K} (hj : j ∈ S) (hk : k ∈ S)
    (hne : j ≠ k) : p.share S j ≤ (p.leave S k).share S j := by
  have hlive : (p.leave S k).liveUnits j = p.liveUnits j := liveUnits_leave_of_ne hne p
  have hjtotal : p.liveUnits j ≤ (p.leave S k).total S := by
    rw [← hlive]
    exact liveUnits_le_total hj
  rcases Nat.eq_zero_or_pos ((p.leave S k).total S) with hzero | hpos
  · have hunits : p.liveUnits j = 0 := by omega
    simp [share, hunits]
  · have htotal : 0 < p.total S := by
      have := total_leave (p := p) hk
      omega
    have hrate := rate_leave (p := p) hk
    unfold share
    rw [hlive, Nat.le_div_iff_mul_le hpos]
    refine Nat.le_of_mul_le_mul_right ?_ htotal
    calc p.liveUnits j * p.deposit / p.total S * (p.leave S k).total S * p.total S
        = p.liveUnits j * p.deposit / p.total S * p.total S * (p.leave S k).total S := by ring
      _ ≤ p.liveUnits j * p.deposit * (p.leave S k).total S :=
          Nat.mul_le_mul_right _ (Nat.div_mul_le_self _ _)
      _ = p.liveUnits j * (p.deposit * (p.leave S k).total S) := by ring
      _ ≤ p.liveUnits j * ((p.leave S k).deposit * p.total S) := Nat.mul_le_mul_left _ hrate
      _ = p.liveUnits j * (p.leave S k).deposit * p.total S := by ring

/-! ### Solvency is preserved -/

theorem liveDebt_settle_of_ne {j k : K} (h : j ≠ k) (p : RewardPool K) :
    (p.settle S scale k).liveDebt j = p.liveDebt j := by
  simp [liveDebt, settle, Function.update_of_ne h]

theorem liveDebt_settle_self {p : RewardPool K} {k : K} (hopen : (p.lots k).released = none) :
    (p.settle S scale k).liveDebt k = p.accrued S scale k := by
  simp [liveDebt, settle, Lot.live, hopen]

variable (scale) in
theorem sum_liveDebt_settle {p : RewardPool K} {k : K} (hk : k ∈ S)
    (hopen : (p.lots k).released = none) :
    (p.lots k).debt + ∑ j ∈ S, (p.settle S scale k).liveDebt j =
      p.accrued S scale k + ∑ j ∈ S, p.liveDebt j := by
  rw [← Finset.add_sum_erase S _ hk, ← Finset.add_sum_erase S (fun j => p.liveDebt j) hk,
    liveDebt_settle_self hopen]
  have hself : p.liveDebt k = (p.lots k).debt := Lot.live_of_open hopen _
  have hrest : ∑ j ∈ S.erase k, (p.settle S scale k).liveDebt j =
      ∑ j ∈ S.erase k, p.liveDebt j :=
    Finset.sum_congr rfl fun j hj => liveDebt_settle_of_ne (Finset.ne_of_mem_erase hj) p
  omega

theorem solvent_settle {p : RewardPool K} (h : p.Solvent S scale) {k : K} (hk : k ∈ S)
    (hopen : (p.lots k).released = none) : (p.settle S scale k).Solvent S scale where
  debt_le j hj := by
    rw [accrued_settle]
    by_cases hjk : j = k
    · subst hjk
      rw [liveDebt_settle_self hopen]
    · rw [liveDebt_settle_of_ne hjk]
      exact h.debt_le j hj
  funded := by
    have hdebt := h.debt_le_accrued hk hopen
    have hsum := congrArg (· * scale) (sum_liveDebt_settle scale hk hopen)
    have hpay : (p.accrued S scale k - (p.lots k).debt) * scale + (p.lots k).debt * scale =
        p.accrued S scale k * scale := by
      rw [← Nat.add_mul, Nat.sub_add_cancel hdebt]
    have hfunded := h.funded
    simp only [Nat.add_mul] at hsum
    simp only [settle, Nat.add_mul] at hsum ⊢
    omega

theorem liveDebt_leave_of_ne {j k : K} (h : j ≠ k) (p : RewardPool K) :
    (p.leave S k).liveDebt j = p.liveDebt j := by
  simp [liveDebt, leave, Function.update_of_ne h]

theorem liveDebt_leave_self (p : RewardPool K) (k : K) : (p.leave S k).liveDebt k = 0 := by
  simp [liveDebt, leave, Lot.live]

/-- Leaving right after settling keeps the pool solvent: the tokens that go are worth at
least the debt that goes with them. -/
theorem solvent_leave {p : RewardPool K} (h : p.Solvent S scale) {k : K} (hk : k ∈ S) :
    (p.leave S k).Solvent S scale where
  debt_le j hj := by
    by_cases hjk : j = k
    · subst hjk
      rw [liveDebt_leave_self]
      exact Nat.zero_le _
    · rw [liveDebt_leave_of_ne hjk]
      have hmono : p.accrued S scale j ≤ (p.leave S k).accrued S scale j :=
        Nat.div_le_div_right (Nat.mul_le_mul_left _ (share_le_share_leave hj hk hjk))
      exact (h.debt_le j hj).trans hmono
  funded := by
    have hgone : p.liveDebt k * scale ≤ p.perShare * p.share S k :=
      (Nat.mul_le_mul_right _ (h.debt_le k hk)).trans (accrued_mul_le p k)
    have hdep : p.perShare * (p.leave S k).deposit + p.perShare * p.share S k =
        p.perShare * p.deposit := by
      rw [← Nat.mul_add]
      exact congrArg (p.perShare * ·) (Nat.sub_add_cancel (share_le_deposit hk))
    have hsum : p.liveDebt k + ∑ j ∈ S, (p.leave S k).liveDebt j = ∑ j ∈ S, p.liveDebt j := by
      rw [← Finset.add_sum_erase S _ hk, ← Finset.add_sum_erase S (fun j => p.liveDebt j) hk,
        liveDebt_leave_self, Nat.zero_add]
      congr 1
      exact Finset.sum_congr rfl fun j hj =>
        liveDebt_leave_of_ne (Finset.ne_of_mem_erase hj) p
    have hsum' := congrArg (· * scale) hsum
    have hfunded := h.funded
    simp only [Nat.add_mul] at hsum'
    change p.paid * scale + p.perShare * (p.leave S k).deposit ≤
      p.received * scale + (∑ j ∈ S, (p.leave S k).liveDebt j) * scale
    omega

theorem solvent_step {p q : RewardPool K} (h : p.Solvent S scale) (hstep : Step S scale p q) :
    q.Solvent S scale := by
  cases hstep with
  | accrue amount hdep => exact solvent_accrue h amount
  | settle k hk hopen => exact solvent_settle h hk hopen
  | leave k hk hopen => exact solvent_leave (solvent_settle h hk hopen) hk

theorem solvent_steps {p q : RewardPool K} (h : p.Solvent S scale)
    (hsteps : Steps S scale p q) : q.Solvent S scale := by
  induction hsteps with
  | refl => exact h
  | tail _ hstep ih => exact solvent_step ih hstep

/-! ### Fairness is preserved -/

theorem releasedSum_leave {p : RewardPool K} {k : K} (hk : k ∈ S)
    (hopen : (p.lots k).released = none) :
    (p.leave S k).releasedSum S = p.releasedSum S + p.share S k := by
  unfold releasedSum
  rw [← Finset.add_sum_erase S _ hk,
    ← Finset.add_sum_erase S (fun j => (p.lots j).released.getD 0) hk]
  have hself : ((p.leave S k).lots k).released = some (p.share S k) := by simp [leave]
  have hrest : ∑ j ∈ S.erase k, (((p.leave S k).lots j).released.getD 0) =
      ∑ j ∈ S.erase k, ((p.lots j).released.getD 0) :=
    Finset.sum_congr rfl fun j hj => by
      simp [leave, Function.update_of_ne (Finset.ne_of_mem_erase hj)]
  rw [hself, hopen, hrest, Option.getD_some, Option.getD_none]
  omega

theorem fair_leave {p₀ p : RewardPool K} (h : p₀.Fair S p) {k : K} (hk : k ∈ S)
    (hopen : (p.lots k).released = none) : p₀.Fair S (p.leave S k) := by
  have hle : p.share S k ≤ p.deposit := share_le_deposit hk
  have htotal := total_leave (p := p) hk
  have hdeposit : (p.leave S k).deposit = p.deposit - p.share S k := rfl
  have hlot : ∀ j, j ≠ k → (p.leave S k).lots j = p.lots j :=
    fun j hj => Function.update_of_ne hj _ _
  have hself : (p.leave S k).lots k = { p.lots k with released := some (p.share S k) } :=
    Function.update_self ..
  constructor
  · intro j
    by_cases hj : j = k
    · rw [hj, hself]
      exact h.units_eq k
    · rw [hlot j hj]
      exact h.units_eq j
  · intro j a hrel
    by_cases hj : j = k
    · subst hj
      simp [h.once j a hrel] at hopen
    · rw [hlot j hj]
      exact h.once j a hrel
  · -- both rates hold at the same price, so they compose
    rcases Nat.eq_zero_or_pos (p.total S) with hzero | hpos
    · have : (p.leave S k).total S = 0 := by omega
      simp [this]
    · refine Nat.le_of_mul_le_mul_right ?_ hpos
      calc p₀.deposit * (p.leave S k).total S * p.total S
          = p₀.deposit * p.total S * (p.leave S k).total S := by ring
        _ ≤ p.deposit * p₀.total S * (p.leave S k).total S := Nat.mul_le_mul_right _ h.rate
        _ = p.deposit * (p.leave S k).total S * p₀.total S := by ring
        _ ≤ (p.leave S k).deposit * p.total S * p₀.total S :=
            Nat.mul_le_mul_right _ (rate_leave hk)
        _ = (p.leave S k).deposit * p₀.total S * p.total S := by ring
  · intro j hj a hnone hsome
    by_cases hjk : j = k
    · subst hjk
      rw [hself] at hsome
      obtain rfl := Option.some.inj hsome
      exact h.share_ge hk hopen
    · rw [hlot j hjk] at hsome
      exact h.released_ge j hj a hnone hsome
  · have hcons := h.conserved
    rw [releasedSum_leave hk hopen, hdeposit]
    omega
  · intro hpos hzero
    rw [hdeposit]
    rcases Nat.eq_zero_or_pos (p.liveUnits k) with hunits | hunits
    · have := h.drained hpos (by omega)
      omega
    · rw [share_eq_deposit hunits (by omega), Nat.sub_self]

theorem fair_step {p₀ p q : RewardPool K} (h : p₀.Fair S p) (hstep : Step S scale p q) :
    p₀.Fair S q := by
  cases hstep with
  | accrue amount hdep => exact h.congr (fun _ => rfl) (fun _ => rfl) rfl
  | settle k hk hopen => exact h.congr (settle_units p k) (settle_released p k) rfl
  | leave k hk hopen =>
      have hsettled : p₀.Fair S (p.settle S scale k) :=
        h.congr (settle_units p k) (settle_released p k) rfl
      exact fair_leave hsettled hk ((settle_released p k k).trans hopen)
where
  settle_units (p : RewardPool K) (k j : K) :
      ((p.settle S scale k).lots j).units = (p.lots j).units := by
    by_cases hj : j = k
    · subst hj; simp [settle]
    · simp [settle, Function.update_of_ne hj]
  settle_released (p : RewardPool K) (k j : K) :
      ((p.settle S scale k).lots j).released = (p.lots j).released := by
    by_cases hj : j = k
    · subst hj; simp [settle]
    · simp [settle, Function.update_of_ne hj]

theorem fair_steps {p₀ p q : RewardPool K} (h : p₀.Fair S p) (hsteps : Steps S scale p q) :
    p₀.Fair S q := by
  induction hsteps with
  | refl => exact h
  | tail _ hstep ih => exact fair_step ih hstep

end RewardPool

end NeutronTge.Shares
