import NeutronTge.Shares.Payout

/-!
# NeutronTge.Shares.Alike

Pools up to their payments. What a lot was paid so far matters neither to its share nor to
what its share has accrued, so a pool in which some lots skip a payment is followed by one in
which nobody does (`Follows`). The exits of such a pool are fair, and its lots have earned
their part, as if everybody had been paid.
-/

namespace NeutronTge.Shares

namespace RewardPool

variable {K : Type} {S : Finset K} {scale : Nat} {p₀ p q r : RewardPool K} {k : K}

/-- The same pool, apart from debts and payments. -/
structure Alike (p q : RewardPool K) : Prop where
  units : ∀ k, (p.lots k).units = (q.lots k).units
  released : ∀ k, (p.lots k).released = (q.lots k).released
  deposit : p.deposit = q.deposit
  perShare : p.perShare = q.perShare
  received : p.received = q.received

namespace Alike

theorem refl (p : RewardPool K) : p.Alike p := ⟨fun _ => rfl, fun _ => rfl, rfl, rfl, rfl⟩

theorem trans (h : p.Alike q) (h' : q.Alike r) : p.Alike r where
  units k := (h.units k).trans (h'.units k)
  released k := (h.released k).trans (h'.released k)
  deposit := h.deposit.trans h'.deposit
  perShare := h.perShare.trans h'.perShare
  received := h.received.trans h'.received

theorem liveUnits (h : p.Alike q) (k : K) : p.liveUnits k = q.liveUnits k := by
  simp only [RewardPool.liveUnits, Lot.live, h.units, h.released]

theorem total (h : p.Alike q) : p.total S = q.total S :=
  Finset.sum_congr rfl fun k _ => h.liveUnits k

theorem share (h : p.Alike q) (k : K) : p.share S k = q.share S k := by
  simp only [RewardPool.share, h.liveUnits, h.total, h.deposit]

theorem accrued (h : p.Alike q) (k : K) : p.accrued S scale k = q.accrued S scale k := by
  simp only [RewardPool.accrued, h.share, h.perShare]

theorem accrue (h : p.Alike q) (amount : Nat) :
    (p.accrue scale amount).Alike (q.accrue scale amount) where
  units := h.units
  released := h.released
  deposit := h.deposit
  perShare := by rw [accrue_perShare, accrue_perShare, h.perShare, h.deposit]
  received := congrArg (· + amount) h.received

variable [DecidableEq K]

/-- A payment makes no difference. -/
theorem settle (p : RewardPool K) (k : K) : (p.settle S scale k).Alike p where
  units j := by
    by_cases hj : j = k
    · rw [hj, settle_lots_self]
    · rw [settle_lots_of_ne p k hj]
  released j := by
    by_cases hj : j = k
    · rw [hj, settle_lots_self]
    · rw [settle_lots_of_ne p k hj]
  deposit := rfl
  perShare := rfl
  received := rfl

theorem leave (h : p.Alike q) (k : K) : (p.leave S k).Alike (q.leave S k) where
  units j := by
    by_cases hj : j = k
    · rw [hj, leave_lots_self, leave_lots_self, h.units]
    · rw [leave_lots_of_ne p k hj, leave_lots_of_ne q k hj, h.units]
  released j := by
    by_cases hj : j = k
    · rw [hj, leave_lots_self, leave_lots_self, h.share]
    · rw [leave_lots_of_ne p k hj, leave_lots_of_ne q k hj, h.released]
  deposit := by rw [leave_deposit, leave_deposit, h.deposit, h.share]
  perShare := h.perShare
  received := h.received

end Alike

variable [DecidableEq K]

variable (S scale) in
/-- What may happen to a pool, whatever is paid. -/
inductive Moves (p q : RewardPool K) : Prop
  | stays (hsame : p.Alike q)
  | accrues (amount : Nat) (hdep : 0 < p.deposit) (hsame : (p.accrue scale amount).Alike q)
  | leaves (k : K) (hk : k ∈ S) (hopen : (p.lots k).released = none)
      (hsame : (p.leave S k).Alike q)

variable (S scale) in
/-- The pool `p` gets to be like `q`, when everybody is paid. -/
def Follows (p q : RewardPool K) : Prop := ∃ r, Steps S scale p r ∧ r.Alike q

namespace Follows

theorem refl (p : RewardPool K) : p.Follows S scale p := ⟨p, .refl, .refl p⟩

theorem move (h : p₀.Follows S scale p) (hmoves : p.Moves S scale q) :
    p₀.Follows S scale q := by
  obtain ⟨r, hsteps, hr⟩ := h
  cases hmoves with
  | stays hsame => exact ⟨r, hsteps, hr.trans hsame⟩
  | accrues amount hdep hsame =>
      exact ⟨r.accrue scale amount, hsteps.tail (.accrue r amount (hr.deposit ▸ hdep)),
        (hr.accrue amount).trans hsame⟩
  | leaves k hk hopen hsame =>
      refine ⟨(r.settle S scale k).leave S k, hsteps.tail (.leave r k hk ?_), ?_⟩
      · rw [hr.released]
        exact hopen
      · exact (((Alike.settle r k).trans hr).leave k).trans hsame

theorem fair (h : p₀.Follows S scale p) : p₀.Fair S p := by
  obtain ⟨r, hsteps, hr⟩ := h
  exact (fair_steps (fair_refl p₀) hsteps).congr (fun k => (hr.units k).symm)
    (fun k => (hr.released k).symm) hr.deposit.symm

/-- An open lot has accrued its part, whether or not it was paid. -/
theorem accrued_ge (h : p₀.Follows S scale p) (hscale : 0 < scale) (hk : k ∈ S)
    (hopen : (p.lots k).released = none) :
    AtLeastPart scale (p₀.share S k) p₀.deposit (p.received - p₀.received)
      (p.accrued S scale k) := by
  obtain ⟨r, hsteps, hr⟩ := h
  have hge := (generous_steps hscale hsteps).accrued_ge hscale
    (fair_steps (fair_refl p₀) hsteps) hk ((hr.released k).trans hopen)
  rwa [hr.received, hr.accrued] at hge

end Follows

end RewardPool

end NeutronTge.Shares
