import NeutronTge.Auction.Opening
import NeutronTge.Auction.Payouts

/-!
# NeutronTge.Auction.Remainder

What stays in the auction for good. A user's part of the LP tokens is rounded down three times,
so when everybody is vested some tokens are left over. `lp_left_over` bounds them by the number
of users: nothing else of what was minted stays behind.
-/

namespace NeutronTge.Auction

open CosmWasm Astroport
open Lockdrop (PoolType)

variable {E : Type} {x : Externals E} {w w' : World E}

/-! ### Parts that are rounded down -/

/-- How many users there are. -/
def Storage.userCount (s : Storage) : Nat := s.sumOf fun _ => 1

section Parts

variable {s : Storage} {p : PoolType}

/-- Rounding loses less than one at each user. -/
theorem sumOf_le_sumOf_div (s : Storage) (f : UserInfo → Nat) {d : Nat} (hd : 0 < d) :
    s.sumOf f ≤ ((s.sumOf fun user => f user / d) + s.userCount) * d := by
  unfold Storage.userCount Storage.sumOf
  rw [← Map.sum_add, ← Map.sum_mul_right]
  refine Map.sum_le_sum fun u user _ => ?_
  rw [Nat.mul_comm]
  exact (Nat.lt_mul_div_succ (f user) hd).le

/-- The parts of all users are nearly the whole. -/
theorem lpSize_le_sumOf_lpPart (h : Books s) (hpos : 0 < s.state.totalDeposited p) :
    s.state.lpSize p ≤
      (s.sumOf fun user =>
        lpPart (user.deposited p) (s.state.totalDeposited p) (s.state.lpSize p)) +
        s.userCount + s.state.lpSize p * s.userCount / FixedPoint.fractional := by
  have hfractional := FixedPoint.fractional_pos
  have hshares := sumOf_le_sumOf_div s (fun user => user.deposited p * FixedPoint.fractional) hpos
  have hparts := sumOf_le_sumOf_div s (fun user => s.state.lpSize p *
    (user.deposited p * FixedPoint.fractional / s.state.totalDeposited p)) hfractional
  have hwhole : (s.sumOf fun user => user.deposited p * FixedPoint.fractional) =
      FixedPoint.fractional * s.state.totalDeposited p := by
    rw [Storage.sumOf, Map.sum_mul_right, h.deposited, Nat.mul_comm]
    rfl
  rw [hwhole] at hshares
  replace hshares := Nat.le_of_mul_le_mul_right hshares hpos
  have hproduct : (s.sumOf fun user => s.state.lpSize p *
      (user.deposited p * FixedPoint.fractional / s.state.totalDeposited p)) =
        s.state.lpSize p * s.sumOf fun user =>
          user.deposited p * FixedPoint.fractional / s.state.totalDeposited p := by
    simp only [Storage.sumOf, Nat.mul_comm (s.state.lpSize p), Map.sum_mul_right]
  rw [hproduct] at hparts
  -- the two roundings together
  have hall : s.state.lpSize p * FixedPoint.fractional ≤
      ((s.sumOf fun user => lpPart (user.deposited p) (s.state.totalDeposited p)
        (s.state.lpSize p)) + s.userCount) * FixedPoint.fractional +
          s.state.lpSize p * s.userCount :=
    calc s.state.lpSize p * FixedPoint.fractional
        ≤ s.state.lpSize p * ((s.sumOf fun user =>
            user.deposited p * FixedPoint.fractional / s.state.totalDeposited p) + s.userCount) :=
          Nat.mul_le_mul_left _ hshares
      _ ≤ _ := by
          rw [Nat.mul_add]
          exact Nat.add_le_add_right hparts _
  rw [← Nat.mul_add_div hfractional, Nat.mul_comm FixedPoint.fractional,
    Nat.le_div_iff_mul_le hfractional]
  exact hall

/-- And so is what they can lock or get vested, of the half that is not for the reserve. -/
theorem lpSize_le_sumOf_lpOf (h : Books s) (hpos : 0 < s.state.totalDeposited p) :
    s.state.lpSize p ≤ 2 * (s.sumOf fun user => lpOf p user s.state) +
      3 * s.userCount + s.state.lpSize p * s.userCount / FixedPoint.fractional := by
  have hparts := lpSize_le_sumOf_lpPart h hpos
  have hhalves : (s.sumOf fun user => lpPart (user.deposited p) (s.state.totalDeposited p)
      (s.state.lpSize p)) ≤ ((s.sumOf fun user => lpOf p user s.state) + s.userCount) * 2 :=
    sumOf_le_sumOf_div s _ Nat.two_pos
  omega

end Parts

/-! ### When everybody is vested -/

/-- Every user is vested. -/
def Storage.AllVested (s : Storage) : Prop :=
  ∀ u user, s.users.mayLoad u = some user → user.isVested = true

/-- What has vested and what is locked is then all that the deposits are worth. -/
theorem Fits.vested_add_locked (h : Fits w) (hall : w.storage.AllVested) (p : PoolType) :
    w.storage.vested p + w.storage.state.lpLocked p =
      w.storage.sumOf fun user => lpOf p user w.storage.state := by
  rw [h.books.locked]
  unfold Storage.vested Storage.sumOf
  rw [← Map.sum_add]
  refine Map.sum_congr fun u user huser => ?_
  have hle := h.locked p u
  rw [user_eq_of_load huser] at hle
  show (if user.isVested then vestAmount p user w.storage.state else 0) + user.lpLocked p = _
  rw [if_pos (hall u user huser)]
  exact Nat.sub_add_cancel hle

/-- The pairs mint the LP sizes for the liquidity of `InitPool`. -/
def MintsExactly (x : Externals E) (w : World E) : Action E → Prop
  | .execute info .initPool => ∀ w', w.execute x info .initPool = .ok w' →
      ∀ p minted, w'.storage.state.lpSharesMinted p = some minted →
        minted = w.storage.state.lpSize p
  | _ => True

theorem MintsExactly.enough {a : Action E} (h : MintsExactly x w a) : MintsEnough x w a := by
  unfold MintsEnough
  split
  · exact fun w' hexec p minted hsome => (h w' hexec p minted hsome).ge
  · trivial

/-- Just the LP sizes were minted. -/
def Storage.Exact (s : Storage) : Prop :=
  ∀ p minted, s.state.lpSharesMinted p = some minted → minted = s.state.lpSize p

theorem exact_execute {info : MessageInfo} {msg : ExecuteMsg} (h : w.storage.Exact)
    (hmints : MintsExactly x w (.execute info msg)) (hexec : w.execute x info msg = .ok w') :
    w'.storage.Exact := by
  intro p minted hsome
  rcases execute_cases hexec with ⟨msgs, hresponds, hmsg⟩ | ⟨hmsg, w₁, usdcDenom, atomDenom,
    poolInfo, prev, cur, lockdrop, provide₁, provide₂, msgs, hinit⟩
  · obtain ⟨husdc, hatom, -⟩ := hresponds.minted hmsg
    have hbefore : w.storage.state.lpSharesMinted p = some minted := by
      cases p with
      | usdc => exact husdc.symm.trans hsome
      | atom => exact hatom.symm.trans hsome
    rcases World.execute_sizes hexec with hsame | ⟨-, _, _, _, _, _, _, _, _, hsizes⟩
    · rw [hsame.lpSize]
      exact h p minted hbefore
    · cases p with
      | usdc => cases hsizes.unminted.1.symm.trans hbefore
      | atom => cases hsizes.unminted.2.symm.trans hbefore
  · obtain rfl := hmsg
    have hexact := hmints w' hexec p minted hsome
    rw [hexact, hinit.finalizes.storage]
    cases p <;> rfl

theorem Fresh.sized (h : Fresh w) : Sized w none := by
  refine .unset fun p => ?_
  rw [h.state]
  cases p <;> rfl

/-- What is left over of a pool is at most half of this. -/
def Storage.dust (s : Storage) (p : PoolType) : Nat :=
  3 * s.userCount + s.state.lpSize p * s.userCount / FixedPoint.fractional + 1

/-- When everybody is vested, hardly more than one LP token is left over for each user. -/
theorem lp_left_over {w₀ : World E} (hfresh : Fresh w₀)
    (hwindow : 0 < w₀.storage.config.withdrawalWindow) {as : List (Action E)}
    (halong : Along (World.exec x) (fun w a => Fixed w a ∧ MintsExactly x w a) w₀ as)
    (hminted : ¬ (run (World.exec x) w₀ as).storage.Unminted)
    (hall : (run (World.exec x) w₀ as).storage.AllVested) :
    ∃ poolInfo, (run (World.exec x) w₀ as).storage.config.poolInfo = some poolInfo ∧
      ∀ token, 2 * (run (World.exec x) w₀ as).storage.mintedOf token ≤
        2 * lpSent token (run (World.exec x) w₀ as).trace +
          poolInfo.byToken token (run (World.exec x) w₀ as).storage.dust := by
  have hboth : LpInvariant (run (World.exec x) w₀ as) ∧
      (run (World.exec x) w₀ as).storage.Exact := by
    refine run_invariant_along (fun w => LpInvariant w ∧ w.storage.Exact) ?_
      ⟨hfresh.lpInvariant hwindow, fun p minted hsome => ?_⟩ halong
    · rintro w a w' ⟨hinv, hexact⟩ ⟨hfixed, hmints⟩ hexec
      refine ⟨hinv.exec hfixed hmints.enough hexec, ?_⟩
      cases a with
      | execute info msg => exact exact_execute hexact hmints hexec
      | _ =>
          obtain rfl := Except.ok.inj hexec
          exact hexact
    · rw [hfresh.state] at hsome
      cases p <;> cases hsome
  have hsized := @run_sized _ x _ hfresh.sized hwindow as
  generalize run (World.exec x) w₀ as = w at hminted hall hboth hsized ⊢
  obtain ⟨hinv, hexact⟩ := hboth
  obtain ⟨-, -, -, hsome⟩ := hinv.phased.after hminted
  obtain ⟨poolInfo, hinfo, hsent⟩ := hinv.handedOut.minted hminted
  -- a pool that was sized has deposits, so its parts add up to the size but for rounding
  have hpos : ∀ p, 0 < w.storage.state.totalDeposited p := by
    have hset := hinv.phased.fits.staged.minted (Or.inl hminted)
    generalize setRates x w₀ as = rates at hsized
    cases hsized with
    | unset hunset => exact absurd (hunset .usdc) (hset .usdc).ne'
    | set _ _ _ hopened => exact hopened.deposited
  refine ⟨poolInfo, hinfo, fun token => ?_⟩
  -- half of the minted tokens, against the halves of the users' parts
  have hpool : ∀ p, (w.storage.state.lpSharesMinted p).getD 0 +
      (w.storage.state.lpSharesMinted p).getD 0 ≤
        w.storage.handedOut p + w.storage.handedOut p + w.storage.dust p := by
    intro p
    obtain ⟨minted, hp⟩ := hsome p
    have hsize := hexact p minted hp
    have hparts := lpSize_le_sumOf_lpOf hinv.phased.fits.books (hpos p)
    rw [← hinv.phased.fits.vested_add_locked hall p, ← hsize] at hparts
    rw [Storage.handedOut, Storage.dust, hp, Option.getD_some, ← hsize]
    omega
  rw [hsent, Storage.mintedOf, hinfo]
  have hle := @PoolInfo.byToken_mono poolInfo token _ _ hpool
  rw [← PoolInfo.byToken_add, ← PoolInfo.byToken_add, ← PoolInfo.byToken_add] at hle
  simp only [Option.elim_some]
  omega

theorem sample_mintsExactly :
    MintsExactly sampleExternals (run (World.exec sampleExternals) sampleReady aliceLocks)
      bobInitsPool := by
  intro w' h p minted hsome
  have hok := ok_of_isOk (World.exec sampleExternals)
    (s := run (World.exec sampleExternals) sampleReady aliceLocks) (a := bobInitsPool)
    (by decide +kernel)
  obtain rfl := Except.ok.inj (hok.symm.trans h)
  have hminted : ∀ p, (commit (World.exec sampleExternals)
      (run (World.exec sampleExternals) sampleReady aliceLocks)
      bobInitsPool).storage.state.lpSharesMinted p =
        some ((run (World.exec sampleExternals) sampleReady aliceLocks).storage.state.lpSize
          p) := by
    intro p
    cases p <;> decide +kernel
  rw [hminted] at hsome
  exact (Option.some.inj hsome).symm

theorem sample_along_exactly :
    Along (World.exec sampleExternals)
      (fun w a => Fixed w a ∧ MintsExactly sampleExternals w a) sampleReady
      (aliceLocks ++ [bobInitsPool, bobMigrates]) := by
  refine (along_append (World.exec sampleExternals)).mpr ⟨?_, ?_⟩
  · exact ⟨⟨rfl, trivial⟩, ⟨trivial, trivial⟩, ⟨trivial, trivial⟩, ⟨rfl, trivial⟩, ⟨rfl, trivial⟩,
      ⟨trivial, trivial⟩, trivial⟩
  · exact ⟨⟨rfl, sample_mintsExactly⟩, ⟨rfl, trivial⟩, trivial⟩

theorem lp_left_over_sample :
    ∃ poolInfo, (run (World.exec sampleExternals) sampleReady
        (aliceLocks ++ [bobInitsPool, bobMigrates])).storage.config.poolInfo = some poolInfo ∧
      ∀ token, 2 * (run (World.exec sampleExternals) sampleReady
          (aliceLocks ++ [bobInitsPool, bobMigrates])).storage.mintedOf token ≤
        2 * lpSent token (run (World.exec sampleExternals) sampleReady
          (aliceLocks ++ [bobInitsPool, bobMigrates])).trace +
          poolInfo.byToken token (run (World.exec sampleExternals) sampleReady
            (aliceLocks ++ [bobInitsPool, bobMigrates])).storage.dust :=
  lp_left_over sampleReady_fresh (by decide) sample_along_exactly
    (by decide +kernel : (run (World.exec sampleExternals) sampleReady
      (aliceLocks ++ [bobInitsPool, bobMigrates])).storage.state.lpUsdcSharesMinted ≠ none)
    fun u user h => (by decide +kernel : ∀ e ∈ (run (World.exec sampleExternals) sampleReady
      (aliceLocks ++ [bobInitsPool, bobMigrates])).storage.users.entries, e.2.isVested = true)
        ⟨u, user⟩ (Map.mem_entries_iff.mpr h)

end NeutronTge.Auction
