import NeutronTge.Auction.Deposits
import NeutronTge.Lockdrop.Limits

/-!
# NeutronTge.Composed.WithdrawalPercent

The lockdrop and the auction compute the share that may still be withdrawn by the same
schedule. It is zero from the end of the withdrawal window on, with one exception: a window of
length zero ends when it begins, and there the test for its first half comes first and answers
one half.
-/

namespace NeutronTge.WithdrawalPercent

open CosmWasm
open Shares (Fits decliningLimit percentAt percentAt_eq_ok)

/-! ### The schedule of both contracts -/

theorem calculateMaxWithdrawalPercentAllowed_eq (t : Nat) (config : Lockdrop.Config) :
    Lockdrop.calculateMaxWithdrawalPercentAllowed t config =
      percentAt config.initTimestamp config.lockWindow config.withdrawalWindow t := rfl

theorem allowedWithdrawalPercent_eq (t : Nat) (config : Auction.Config) :
    Auction.allowedWithdrawalPercent t config =
      percentAt config.initTimestamp config.depositWindow config.withdrawalWindow t := rfl

section Schedule

variable {init deposit window start t t₁ t₂ : Nat}

/-- What is expected of the percentage at one time. -/
structure KeepsPhases (start window t : Nat) (percent : Decimal) : Prop where
  atMostOne : percent.atomics ≤ FixedPoint.fractional
  before : t < start → percent = FixedPoint.one
  fromStart : start ≤ t → 2 * percent.atomics ≤ FixedPoint.fractional
  fromEnd : start + window ≤ t → percent = FixedPoint.zero

/-- What is expected of the percentages at two times. -/
structure Declines (percent : Nat → Except StdError Decimal) (start window t₁ t₂ : Nat) :
    Prop where
  defined : ∃ p₁ p₂, percent t₁ = .ok p₁ ∧ percent t₂ = .ok p₂
  antitone : ∀ {p₁ p₂}, percent t₁ = .ok p₁ → percent t₂ = .ok p₂ → p₂.atomics ≤ p₁.atomics
  first : ∀ {p}, percent t₁ = .ok p → KeepsPhases start window t₁ p
  second : ∀ {p}, percent t₂ = .ok p → KeepsPhases start window t₂ p

/-- Time `t` is where a withdrawal window of length zero begins and ends. -/
def AtEmptyWindow (start window t : Nat) : Prop := window = 0 ∧ t = start

theorem not_atEmptyWindow (h : 0 < window) : ¬ AtEmptyWindow start window t :=
  fun hempty => h.ne' hempty.1

theorem keepsPhases_iff : KeepsPhases start window t
    ⟨decliningLimit FixedPoint.fractional start window t⟩ ↔ ¬ AtEmptyWindow start window t := by
  constructor
  · rintro h ⟨rfl, rfl⟩
    have hzero := congrArg FixedPoint.atomics (h.fromEnd (Nat.le_refl t))
    rw [Shares.decliningLimit_first (Nat.le_refl t) (Nat.le_refl t)] at hzero
    exact absurd hzero (by decide)
  · intro hnot
    refine ⟨?_, ?_, ?_, ?_⟩
    · exact Shares.decliningLimit_le_one
    · exact fun hbefore => congrArg FixedPoint.mk (Shares.decliningLimit_before hbefore)
    · intro hstart
      have hhalf : decliningLimit FixedPoint.fractional start window t ≤
          50 * FixedPoint.fractional / 100 := Shares.decliningLimit_le_half hstart
      show 2 * decliningLimit FixedPoint.fractional start window t ≤ FixedPoint.fractional
      omega
    · intro hend
      have hwindow : 0 < window ∨ t ≠ start := by
        rcases Nat.eq_zero_or_pos window with hzero | hpos
        · exact Or.inr fun ht => hnot ⟨hzero, ht⟩
        · exact Or.inl hpos
      exact congrArg FixedPoint.mk (Shares.decliningLimit_after hend hwindow)

theorem declines_iff (hfits : Fits (init + deposit) window) (h : t₁ ≤ t₂) :
    Declines (percentAt init deposit window) (init + deposit) window t₁ t₂ ↔
      ¬ AtEmptyWindow (init + deposit) window t₁ ∧ ¬ AtEmptyWindow (init + deposit) window t₂ := by
  constructor
  · intro hdeclines
    exact ⟨keepsPhases_iff.mp (hdeclines.first (percentAt_eq_ok hfits)),
      keepsPhases_iff.mp (hdeclines.second (percentAt_eq_ok hfits))⟩
  · rintro ⟨hfirst, hsecond⟩
    refine ⟨⟨_, _, percentAt_eq_ok hfits, percentAt_eq_ok hfits⟩, ?_, ?_, ?_⟩
    · intro p₁ p₂ h₁ h₂
      obtain rfl := Except.ok.inj ((percentAt_eq_ok hfits).symm.trans h₁)
      obtain rfl := Except.ok.inj ((percentAt_eq_ok hfits).symm.trans h₂)
      exact Shares.decliningLimit_antitone h
    · intro p hp
      obtain rfl := Except.ok.inj ((percentAt_eq_ok hfits).symm.trans hp)
      exact keepsPhases_iff.mpr hfirst
    · intro p hp
      obtain rfl := Except.ok.inj ((percentAt_eq_ok hfits).symm.trans hp)
      exact keepsPhases_iff.mpr hsecond

end Schedule

/-! ### The two contracts -/

/-- The two contracts have the same windows. -/
structure SameWindows (lockdrop : Lockdrop.Config) (auction : Auction.Config) : Prop where
  init : auction.initTimestamp = lockdrop.initTimestamp
  deposit : auction.depositWindow = lockdrop.lockWindow
  withdrawal : auction.withdrawalWindow = lockdrop.withdrawalWindow

/-- What is expected of the withdrawal schedules of the two contracts. -/
structure Scheduled (lockdrop : Lockdrop.Config) (auction : Auction.Config) (t₁ t₂ : Nat) :
    Prop where
  locked : Declines (Lockdrop.calculateMaxWithdrawalPercentAllowed · lockdrop) lockdrop.lockEnd
    lockdrop.withdrawalWindow t₁ t₂
  deposited : Declines (Auction.allowedWithdrawalPercent · auction) auction.depositsEnd
    auction.withdrawalWindow t₁ t₂
  agree : SameWindows lockdrop auction → ∀ t,
    Auction.allowedWithdrawalPercent t auction =
      Lockdrop.calculateMaxWithdrawalPercentAllowed t lockdrop

/-- The schedules are as expected except where a withdrawal window of length zero ends. -/
theorem scheduled_iff {lockdrop : Lockdrop.Config} {auction : Auction.Config} {t₁ t₂ : Nat}
    (hlockdrop : Fits lockdrop.lockEnd lockdrop.withdrawalWindow)
    (hauction : Fits auction.depositsEnd auction.withdrawalWindow) (h : t₁ ≤ t₂) :
    Scheduled lockdrop auction t₁ t₂ ↔
      (¬ AtEmptyWindow lockdrop.lockEnd lockdrop.withdrawalWindow t₁ ∧
        ¬ AtEmptyWindow lockdrop.lockEnd lockdrop.withdrawalWindow t₂) ∧
      (¬ AtEmptyWindow auction.depositsEnd auction.withdrawalWindow t₁ ∧
        ¬ AtEmptyWindow auction.depositsEnd auction.withdrawalWindow t₂) := by
  constructor
  · intro hscheduled
    exact ⟨(declines_iff hlockdrop h).mp hscheduled.locked,
      (declines_iff hauction h).mp hscheduled.deposited⟩
  · rintro ⟨hl, ha⟩
    refine ⟨(declines_iff hlockdrop h).mpr hl, (declines_iff hauction h).mpr ha, ?_⟩
    intro hsame t
    rw [allowedWithdrawalPercent_eq, calculateMaxWithdrawalPercentAllowed_eq, hsame.init,
      hsame.deposit, hsame.withdrawal]

/-! ### Sample windows -/

/-- A deposit window from 10 to 20, in both contracts. -/
def sampleLockdrop (window : Nat) : Lockdrop.Config :=
  { Lockdrop.sampleStart.storage.config with
    initTimestamp := 10
    lockWindow := 10
    withdrawalWindow := window }

/-- The configuration of the small auction, with a withdrawal window of that length. -/
def sampleAuction (window : Nat) : Auction.Config := (Auction.sampleStart window).storage.config

theorem sample_sameWindows (window : Nat) :
    SameWindows (sampleLockdrop window) (sampleAuction window) :=
  ⟨rfl, rfl, rfl⟩

/-- With windows of length one, between the end of the deposit window and a later time. -/
theorem scheduled_iff_sample : Scheduled (sampleLockdrop 1) (sampleAuction 1) 20 25 :=
  (scheduled_iff ⟨by decide, by decide⟩ ⟨by decide, by decide⟩ (by decide)).mpr
    ⟨⟨not_atEmptyWindow Nat.one_pos, not_atEmptyWindow Nat.one_pos⟩,
      not_atEmptyWindow Nat.one_pos, not_atEmptyWindow Nat.one_pos⟩

/-- Without a withdrawal window, one half can still be withdrawn in the second in which the
deposit window ends. -/
theorem half_when_over :
    SameWindows (sampleLockdrop 0) (sampleAuction 0) ∧
      Fits (sampleLockdrop 0).lockEnd (sampleLockdrop 0).withdrawalWindow ∧
      Fits (sampleAuction 0).depositsEnd (sampleAuction 0).withdrawalWindow ∧
      (sampleAuction 0).closing = 20 ∧
      Lockdrop.calculateMaxWithdrawalPercentAllowed 20 (sampleLockdrop 0) =
        .ok ⟨FixedPoint.fractional / 2⟩ ∧
      Auction.allowedWithdrawalPercent 20 (sampleAuction 0) = .ok ⟨FixedPoint.fractional / 2⟩ ∧
      ¬ Scheduled (sampleLockdrop 0) (sampleAuction 0) 20 20 := by
  refine ⟨sample_sameWindows 0, ⟨by decide, by decide⟩, ⟨by decide, by decide⟩, rfl,
    by decide +kernel, by decide +kernel, ?_⟩
  intro h
  have hzero := (h.locked.first (p := ⟨FixedPoint.fractional / 2⟩) (by decide +kernel)).fromEnd
    (Nat.le_refl 20)
  exact absurd hzero (by decide)

end NeutronTge.WithdrawalPercent
