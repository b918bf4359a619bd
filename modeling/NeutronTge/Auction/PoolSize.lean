import NeutronTge.Auction.Books

/-!
# NeutronTge.Auction.PoolSize

When `SetPoolSize` succeeds and `InitPool` can follow. The stages of the auction come in order
(`Staged`): the sizes are set before the pools are made. After the windows only these two
messages can move the deposits, and `setPoolSize_iff` says for which deposits and rates they do.
-/

namespace NeutronTge.Auction

open CosmWasm Astroport
open Lockdrop (PoolType)

variable {E : Type} {x : Externals E} {w w' : World E}

/-! ### Stages -/

/-- The LP shares that were minted are the same. -/
def SameMinted (s s' : Storage) : Prop :=
  s'.state.lpUsdcSharesMinted = s.state.lpUsdcSharesMinted ∧
    s'.state.lpAtomSharesMinted = s.state.lpAtomSharesMinted ∧
    s'.state.poolInitTimestamp = s.state.poolInitTimestamp

theorem withLpLocked_minted (p : PoolType) (s : State) (n : Nat) :
    (s.withLpLocked p n).lpUsdcSharesMinted = s.lpUsdcSharesMinted ∧
      (s.withLpLocked p n).lpAtomSharesMinted = s.lpAtomSharesMinted ∧
      (s.withLpLocked p n).poolInitTimestamp = s.poolInitTimestamp := by
  cases p <;> exact ⟨rfl, rfl, rfl⟩

/-- Only `InitPool` makes the pools. -/
theorem Responds.minted {info : MessageInfo} {msg : ExecuteMsg} {msgs : List CosmosMsg}
    (hresponds : Responds x w w' info msg msgs) (hmsg : msg ≠ .initPool) :
    SameMinted w.storage w'.storage := by
  unfold SameMinted
  have heffect := hresponds.effect
  cases heffect with
  | configure _ _ _ h => simp [h.state]
  | deposit _ _ _ _ _ h => simp [h.storage]
  | withdraw _ _ _ _ _ _ h => simp [h.storage]
  | size _ _ _ _ _ _ _ _ _ h => simp [h.storage]
  | initPool => exact absurd rfl hmsg
  | lock _ _ _ _ _ h =>
      rw [h.storage]
      exact withLpLocked_minted _ _ _
  | unlock _ _ _ _ _ h =>
      rw [h.storage]
      exact withLpLocked_minted _ _ _
  | vest _ _ h => simp [h.storage]

/-- The pools are made from sizes that are set, and LP sizes come with NTRN. -/
structure Staged (s : Storage) : Prop where
  lpSize : ∀ q, s.state.lpSize q ≠ 0 → ∀ p, 0 < s.state.ntrnSize p
  minted : s.state.lpUsdcSharesMinted ≠ none ∨ s.state.lpAtomSharesMinted ≠ none →
    ∀ p, 0 < s.state.ntrnSize p

theorem Staged.of_same {s s' : Storage} (h : Staged s) (hsizes : SameSizes s s')
    (hminted : SameMinted s s') : Staged s' where
  lpSize := by
    intro q hlp p
    rw [hsizes.ntrnSize]
    exact h.lpSize q (by rwa [← hsizes.lpSize]) p
  minted := by
    intro hsome p
    rw [hsizes.ntrnSize]
    exact h.minted (by rwa [← hminted.1, ← hminted.2.1]) p

theorem Staged.execute {info : MessageInfo} {msg : ExecuteMsg} (h : Staged w.storage)
    (hexec : w.execute x info msg = .ok w') : Staged w'.storage := by
  rcases World.execute_sizes hexec with hsizes | ⟨-, _, _, _, _, _, _, _, _, hsizes⟩
  · rcases execute_cases hexec with ⟨msgs, hresponds, hmsg⟩ | ⟨-, w₁, usdcDenom, atomDenom,
      poolInfo, prev, cur, lockdrop, provide₁, provide₂, msgs, hinit⟩
    · exact h.of_same hsizes (hresponds.minted hmsg)
    · have hsized : ∀ p, 0 < w.storage.state.ntrnSize p := by
        rcases not_and_or.mp hinit.starts.sized with husdc | hatom
        · exact h.lpSize .usdc husdc
        · exact h.lpSize .atom hatom
      constructor
      · intro _ _ p
        rw [hsizes.ntrnSize]
        exact hsized p
      · intro _ p
        rw [hsizes.ntrnSize]
        exact hsized p
  · exact ⟨fun _ _ => hsizes.ntrnSize_pos, fun _ => hsizes.ntrnSize_pos⟩

theorem started_staged (h : Started w) : Staged w.storage := by
  obtain ⟨⟨env, info, msg, hinst, -⟩, -⟩ := h
  unfold instantiate at hinst
  simp only [bind_eq_ok, rejectIf_eq_ok, exists_const, Except.ok.injEq] at hinst
  obtain ⟨-, hstorage⟩ := hinst
  constructor
  · intro q hlp
    rw [← hstorage] at hlp
    cases q <;> exact absurd rfl hlp
  · intro hsome
    rw [← hstorage] at hsome
    simp [InstantiateMsg.storage, State.default] at hsome

theorem Staged.exec {a : Action E} (h : Staged w.storage) (hexec : w.exec x a = .ok w') :
    Staged w'.storage := by
  cases a with
  | execute info msg => exact Staged.execute h hexec
  | _ =>
      obtain rfl := Except.ok.inj hexec
      exact h

theorem staged_run {w₀ : World E} (hstart : Started w₀) (as : List (Action E)) :
    Staged (run (World.exec x) w₀ as).storage :=
  @run_invariant _ _ _ (World.exec x) (fun t : World E => Staged t.storage)
    (fun _ _ _ ht hexec => ht.exec hexec) as w₀ (started_staged hstart)

/-! ### The NTRN of each pool -/

section Ratio

variable (ntrnAmount usdcAmount atomAmount atomRate usdcRate : Nat)

/-- The value of the ATOM in USDC, rounded as decimals are. -/
def atomInUsdc : Nat :=
  atomAmount * FixedPoint.fractional * FixedPoint.fractional /
    (usdcRate * FixedPoint.fractional / atomRate) / FixedPoint.fractional

/-- The NTRN that goes with the USDC by value. -/
def usdcNtrn : Nat :=
  ntrnAmount * (usdcAmount * FixedPoint.fractional /
    (usdcAmount + atomInUsdc atomAmount atomRate usdcRate)) / FixedPoint.fractional

/-- The amounts and rates are below the limits of `Decimal`. -/
structure FitsDecimal : Prop where
  ntrn : ntrnAmount < 2 ^ 128
  atom : atomAmount * FixedPoint.fractional < 2 ^ 128
  rate : usdcRate * FixedPoint.fractional / atomRate < 2 ^ 128
  value : atomAmount * FixedPoint.fractional * FixedPoint.fractional /
    (usdcRate * FixedPoint.fractional / atomRate) < 2 ^ 128
  all : usdcAmount + atomInUsdc atomAmount atomRate usdcRate < 2 ^ 128

end Ratio

section SetPoolSize

variable {ntrnAmount usdcAmount atomAmount atomRate usdcRate : Nat}

/-- The USDC part of the NTRN is no more than all of it. -/
theorem usdcNtrn_le : usdcNtrn ntrnAmount usdcAmount atomAmount atomRate usdcRate ≤ ntrnAmount := by
  unfold usdcNtrn
  have hratio : usdcAmount * FixedPoint.fractional /
      (usdcAmount + atomInUsdc atomAmount atomRate usdcRate) ≤ FixedPoint.fractional := by
    refine Nat.div_le_of_le_mul ?_
    rw [Nat.add_mul]
    exact Nat.le_add_right _ _
  calc
    _ ≤ ntrnAmount * FixedPoint.fractional / FixedPoint.fractional := by gcongr
    _ = ntrnAmount := Nat.mul_div_cancel _ FixedPoint.fractional_pos

/-- The ratio exists when the ATOM rate is not too far above the USDC rate and the deposits have
a value. -/
theorem usdcRatio_iff (hrate : 0 < atomRate)
    (hfits : FitsDecimal ntrnAmount usdcAmount atomAmount atomRate usdcRate) {ratio : Decimal} :
    usdcRatio usdcAmount atomAmount atomRate usdcRate = .ok ratio ↔
      (atomRate ≤ usdcRate * FixedPoint.fractional ∧
        0 < usdcAmount + atomInUsdc atomAmount atomRate usdcRate) ∧
      ratio.atomics = usdcAmount * FixedPoint.fractional /
        (usdcAmount + atomInUsdc atomAmount atomRate usdcRate) := by
  have hparse : FixedPoint.parseWhole atomAmount = .ok ⟨atomAmount * FixedPoint.fractional⟩ := by
    rw [FixedPoint.parseWhole, if_pos hfits.atom]
  simp only [usdcRatio, hparse, bind_eq_ok, FixedPoint.fromRatio_eq_ok, FixedPoint.div,
    FixedPoint.toUintFloor, Uint.checkedAdd_eq_ok, Except.ok.injEq]
  constructor
  · rintro ⟨rate, ⟨-, -, hatomics⟩, _, rfl, value, ⟨hpos, -, hvalue⟩, _, ⟨-, rfl⟩, hall, -, hratio⟩
    rw [hatomics] at hpos hvalue
    have hsame : value.atomics / FixedPoint.fractional = atomInUsdc atomAmount atomRate usdcRate :=
      by rw [hvalue]; rfl
    rw [hsame] at hall hratio
    exact ⟨⟨(Nat.div_pos_iff.mp hpos).2, hall⟩, hratio⟩
  · rintro ⟨⟨hle, hall⟩, hratio⟩
    refine ⟨⟨_⟩, ⟨hrate, hfits.rate, rfl⟩, _, rfl, ⟨_⟩, ⟨?_, hfits.value, rfl⟩, _,
      ⟨hfits.all, rfl⟩, hall, ?_, hratio⟩
    · exact Nat.div_pos hle hrate
    · calc
        _ ≤ FixedPoint.fractional := by
            refine Nat.div_le_of_le_mul ?_
            rw [Nat.add_mul]
            exact Nat.le_add_right _ _
        _ < 2 ^ 128 := by decide

theorem getLpSize_iff {token1 token2 : Nat} :
    (∃ size, getLpSize token1 token2 = .ok size) ↔ 1000 * 1000 ≤ token1 * token2 := by
  simp only [getLpSize, mapError_eq_ok, Uint.checkedSub_eq_ok]
  rw [← Nat.le_sqrt]
  exact ⟨fun ⟨_, hle, _⟩ => hle, fun hle => ⟨_, hle, rfl⟩⟩

end SetPoolSize

/-! ### When the sizes can be set -/

/-- A state in which only `SetPoolSize` can move the deposits, with what it needs: NTRN and two
fresh rates. -/
structure Sizable (x : Externals E) (w : World E) (atom usdc : PriceFeedRate) : Prop where
  late : w.storage.config.closing ≤ w.env.time
  time_lt : w.env.time < 2 ^ 64
  unset : w.storage.state.usdcNtrnSize = 0 ∧ w.storage.state.atomNtrnSize = 0
  deposited : 0 < w.storage.state.totalUsdcDeposited + w.storage.state.totalAtomDeposited
  ntrn_pos : 0 < w.bank w.storage.config.ntrnDenom
  enough : w.storage.config.minNtrnAmount ≤ w.bank w.storage.config.ntrnDenom
  rates_eq : x.getRate w.ext w.storage.config.priceFeedContract = .ok [atom, usdc]
  fresh : w.env.time ≤ atom.resolveTime + w.storage.config.maxExchangeRateAge ∧
    w.env.time ≤ usdc.resolveTime + w.storage.config.maxExchangeRateAge
  rates_pos : 0 < atom.rate ∧ 0 < usdc.rate
  fits : FitsDecimal (w.bank w.storage.config.ntrnDenom) w.storage.state.totalUsdcDeposited
    w.storage.state.totalAtomDeposited atom.rate usdc.rate

/-- The deposits on both sides are large enough for the NTRN that goes with them by value, and
the age of a rate and the ratio of the two rates can be computed. -/
structure BothSidesLarge (ntrnAmount usdcAmount atomAmount atomRate usdcRate maxAge time : Nat) :
    Prop where
  age : maxAge ≤ time
  rates : atomRate ≤ usdcRate * FixedPoint.fractional
  usdc : 1000 * 1000 ≤
    usdcNtrn ntrnAmount usdcAmount atomAmount atomRate usdcRate * usdcAmount
  atom : 1000 * 1000 ≤
    (ntrnAmount - usdcNtrn ntrnAmount usdcAmount atomAmount atomRate usdcRate) * atomAmount

theorem areWindowsClosed_of_late {config : Config} {t : Nat} (hlate : config.closing ≤ t)
    (ht : t < 2 ^ 64) : areWindowsClosed t config = .ok true := by
  have hclosing : config.initTimestamp + config.depositWindow + config.withdrawalWindow ≤ t := hlate
  have hend : windowsEnd config = .ok config.closing := by
    simp only [windowsEnd, depositWindowEnd, bind_eq_ok, Uint.add_eq_ok]
    exact ⟨_, ⟨by omega, rfl⟩, by omega, rfl⟩
  simp only [areWindowsClosed, hend, bind_eq_ok, Except.ok.injEq]
  exact ⟨_, rfl, decide_eq_true hlate⟩

section Handler

variable {atom usdc : PriceFeedRate} {q : Querier}

/-- What `execute_set_pool_size` makes of a sizable world. -/
theorem executeSetPoolSize_sizes {r : Response} (h : Sizable x w atom usdc)
    (hr : executeSetPoolSize (w.querier x) w.storage w.env = .ok r) :
    w.storage.config.maxExchangeRateAge ≤ w.env.time ∧
      atom.rate ≤ usdc.rate * FixedPoint.fractional ∧
      getLpSize (usdcNtrn (w.bank w.storage.config.ntrnDenom) w.storage.state.totalUsdcDeposited
          w.storage.state.totalAtomDeposited atom.rate usdc.rate)
        w.storage.state.totalUsdcDeposited = .ok r.storage.state.usdcLpSize ∧
      getLpSize (w.bank w.storage.config.ntrnDenom -
          usdcNtrn (w.bank w.storage.config.ntrnDenom) w.storage.state.totalUsdcDeposited
            w.storage.state.totalAtomDeposited atom.rate usdc.rate)
        w.storage.state.totalAtomDeposited = .ok r.storage.state.atomLpSize := by
  obtain ⟨-, atom', usdc', ratio, ntrnAmount, usdcNtrnSize, atomNtrnSize, usdcLpSize, atomLpSize,
    hsizes⟩ := executeSetPoolSize_ok hr
  obtain ⟨rfl, rfl⟩ : atom = atom' ∧ usdc = usdc' := by
    simpa using h.rates_eq.symm.trans hsizes.rates_eq
  obtain rfl : w.bank w.storage.config.ntrnDenom = ntrnAmount :=
    Except.ok.inj hsizes.balance_eq
  obtain ⟨⟨hle, -⟩, hratio⟩ := (usdcRatio_iff h.rates_pos.1 h.fits).mp hsizes.ratio_eq
  have husdcSize : usdcNtrnSize = usdcNtrn (w.bank w.storage.config.ntrnDenom)
      w.storage.state.totalUsdcDeposited w.storage.state.totalAtomDeposited atom.rate
      usdc.rate := by
    rw [hsizes.usdcNtrnSize_eq, hratio]
    rfl
  have hatomSize : atomNtrnSize = w.bank w.storage.config.ntrnDenom - usdcNtrnSize := by
    have := hsizes.split
    omega
  refine ⟨hsizes.age_le, hle, ?_, ?_⟩
  · rw [← husdcSize, hsizes.storage]
    exact hsizes.usdcLpSize_eq
  · rw [← husdcSize, ← hatomSize, hsizes.storage]
    exact hsizes.atomLpSize_eq

/-- `execute_set_pool_size` on the state of a sizable world. -/
theorem executeSetPoolSize_iff (h : Sizable x w atom usdc) (hunminted : w.storage.Unminted)
    (hunminted' : w.storage.state.lpAtomSharesMinted = none) :
    (∃ r, executeSetPoolSize (w.querier x) w.storage w.env = .ok r) ↔
      BothSidesLarge (w.bank w.storage.config.ntrnDenom) w.storage.state.totalUsdcDeposited
        w.storage.state.totalAtomDeposited atom.rate usdc.rate
        w.storage.config.maxExchangeRateAge w.env.time := by
  have hrate := h.rates_pos.1
  constructor
  · rintro ⟨r, hr⟩
    obtain ⟨hage, hrates, husdcLp, hatomLp⟩ := executeSetPoolSize_sizes h hr
    exact ⟨hage, hrates, getLpSize_iff.mp ⟨_, husdcLp⟩, getLpSize_iff.mp ⟨_, hatomLp⟩⟩
  · intro hlarge
    -- the ratio divides by the value of all deposits
    have hall : 0 < w.storage.state.totalUsdcDeposited +
        atomInUsdc w.storage.state.totalAtomDeposited atom.rate usdc.rate := by
      refine Nat.add_pos_left (Nat.pos_of_ne_zero fun hzero => ?_) _
      have husdc := hlarge.usdc
      rw [hzero] at husdc
      simp at husdc
    obtain ⟨usdcLpSize, husdcLp⟩ := getLpSize_iff.mpr hlarge.usdc
    obtain ⟨atomLpSize, hatomLp⟩ := getLpSize_iff.mpr hlarge.atom
    have hle := @usdcNtrn_le (w.bank w.storage.config.ntrnDenom)
      w.storage.state.totalUsdcDeposited w.storage.state.totalAtomDeposited atom.rate usdc.rate
    have hratio : usdcRatio w.storage.state.totalUsdcDeposited w.storage.state.totalAtomDeposited
        atom.rate usdc.rate = .ok ⟨_⟩ :=
      (usdcRatio_iff hrate h.fits).mpr ⟨⟨hlarge.rates, hall⟩, rfl⟩
    have hfresh := h.fresh.1
    have hage := hlarge.age
    have hntrn := h.fits.ntrn
    refine ⟨⟨{ w.storage with state := { w.storage.state with
      usdcNtrnSize := usdcNtrn (w.bank w.storage.config.ntrnDenom)
        w.storage.state.totalUsdcDeposited w.storage.state.totalAtomDeposited atom.rate usdc.rate
      atomNtrnSize := w.bank w.storage.config.ntrnDenom -
        usdcNtrn (w.bank w.storage.config.ntrnDenom) w.storage.state.totalUsdcDeposited
          w.storage.state.totalAtomDeposited atom.rate usdc.rate
      atomLpSize := atomLpSize
      usdcLpSize := usdcLpSize } }, []⟩, ?_⟩
    unfold executeSetPoolSize
    refine bind_eq_ok.mpr ⟨(), rejectIf_eq_ok.mpr ?_, ?_⟩
    · rw [hunminted, hunminted']
      simp
    refine bind_eq_ok.mpr ⟨true, areWindowsClosed_of_late h.late h.time_lt, ?_⟩
    refine bind_eq_ok.mpr ⟨(), rejectIf_eq_ok.mpr (by decide), ?_⟩
    refine bind_eq_ok.mpr ⟨(), rejectIf_eq_ok.mpr ?_, ?_⟩
    · simp [h.unset]
    refine bind_eq_ok.mpr ⟨w.bank w.storage.config.ntrnDenom, rfl, ?_⟩
    refine bind_eq_ok.mpr ⟨[atom, usdc], h.rates_eq, ?_⟩
    dsimp only
    refine bind_eq_ok.mpr ⟨_, Uint.sub_eq_ok.mpr ⟨hage, rfl⟩, ?_⟩
    refine bind_eq_ok.mpr ⟨(), rejectIf_eq_ok.mpr (by omega), ?_⟩
    refine bind_eq_ok.mpr ⟨(), rejectIf_eq_ok.mpr (Nat.not_lt.mpr h.enough), ?_⟩
    refine bind_eq_ok.mpr ⟨_, hratio, ?_⟩
    refine bind_eq_ok.mpr ⟨_, FixedPoint.mulUint_eq_ok.mpr ⟨hle.trans_lt hntrn, rfl⟩, ?_⟩
    refine bind_eq_ok.mpr ⟨_, Uint.sub_eq_ok.mpr ⟨hle, rfl⟩, ?_⟩
    refine bind_eq_ok.mpr ⟨atomLpSize, hatomLp, ?_⟩
    exact bind_eq_ok.mpr ⟨usdcLpSize, husdcLp, rfl⟩

end Handler

/-- A call of `SetPoolSize` without coins is its handler. -/
theorem exec_setPoolSize_ok {u : Addr} {w' : World E} (hu : u ≠ w.env.contract) :
    w.exec x (.execute ⟨u, []⟩ .setPoolSize) = .ok w' ↔
      ∃ r, executeSetPoolSize (w.querier x) w.storage w.env = .ok r ∧
        w' = { w with storage := r.storage } := by
  show World.execute x w ⟨u, []⟩ .setPoolSize = .ok w' ↔ _
  unfold World.execute
  simp only [bind_eq_ok, rejectIf_eq_ok, exists_const]
  refine ⟨?_, ?_⟩
  · rintro ⟨-, r, hr, hrun⟩
    rw [(executeSetPoolSize_ok hr).1] at hrun
    exact ⟨r, hr, (Except.ok.inj hrun).symm⟩
  · rintro ⟨r, hr, rfl⟩
    refine ⟨hu, r, hr, ?_⟩
    rw [(executeSetPoolSize_ok hr).1]
    rfl

/-! ### When the pools can be made -/

/-- `InitPool` is possible: the contract accepts it, and the coins that its messages take to the
pools are there. -/
def CanInitPool (x : Externals E) (w : World E) : Prop :=
  ∃ r bank, executeInitPool (w.querier x) w.storage w.env = .ok r ∧
    w.bank.send (r.messages.flatMap CosmosMsg.coins) = .ok bank

/-- The pools can be named: the owner can call the contract, and there are two LP tokens that
answer it. -/
structure Nameable (x : Externals E) (w : World E) : Prop where
  owner : w.storage.config.owner ≠ w.env.contract
  lpTokens : ∃ ext usdcLp atomLp usdc atom, x.tokenBalance ext usdcLp = .ok usdc ∧
    x.tokenBalance ext atomLp = .ok atom

/-- Both sides are large enough for `SetPoolSize`, one of them makes an LP size that is not zero,
and the end of the lock window can be computed. -/
structure EnoughForPools (w : World E) (atomRate usdcRate : Nat) : Prop where
  large : BothSidesLarge (w.bank w.storage.config.ntrnDenom) w.storage.state.totalUsdcDeposited
    w.storage.state.totalAtomDeposited atomRate usdcRate w.storage.config.maxExchangeRateAge
    w.env.time
  either : 1001 * 1001 ≤
      usdcNtrn (w.bank w.storage.config.ntrnDenom) w.storage.state.totalUsdcDeposited
        w.storage.state.totalAtomDeposited atomRate usdcRate *
          w.storage.state.totalUsdcDeposited ∨
    1001 * 1001 ≤
      (w.bank w.storage.config.ntrnDenom -
        usdcNtrn (w.bank w.storage.config.ntrnDenom) w.storage.state.totalUsdcDeposited
          w.storage.state.totalAtomDeposited atomRate usdcRate) *
          w.storage.state.totalAtomDeposited
  lockEnd : w.storage.config.lockEnd < 2 ^ 64

/-- An LP size is zero up to the product where the square root passes the minimum. -/
theorem getLpSize_ne_zero {token1 token2 size : Nat} (h : getLpSize token1 token2 = .ok size) :
    size ≠ 0 ↔ 1001 * 1001 ≤ token1 * token2 := by
  obtain ⟨-, hsize⟩ := getLpSize_ok h
  have hsqrt : 1001 ≤ Nat.sqrt (token1 * token2) ↔ 1001 * 1001 ≤ token1 * token2 := Nat.le_sqrt
  rw [hsize, ← hsqrt]
  exact Nat.sub_ne_zero_iff_lt

theorem isLockWindowClosed_iff {config : Config} {t : Nat} {b : Bool} :
    isLockWindowClosed t config = .ok b ↔
      config.lockEnd < 2 ^ 64 ∧ b = decide (config.lockEnd ≤ t) := by
  constructor
  · intro h
    refine ⟨?_, isLockWindowClosed_ok h⟩
    simp only [isLockWindowClosed, bind_eq_ok, Uint.add_eq_ok] at h
    obtain ⟨_, hend, _, ⟨hfits, -⟩, -⟩ := h
    rwa [windowsEnd_ok hend] at hfits
  · rintro ⟨hfits, rfl⟩
    have hclosing := config.closing_le_lockEnd.trans_lt hfits
    have hdeposits := config.depositsEnd_le_closing.trans_lt hclosing
    simp only [isLockWindowClosed, windowsEnd, depositWindowEnd, bind_eq_ok, Uint.add_eq_ok]
    exact ⟨config.closing, ⟨config.depositsEnd, ⟨hdeposits, rfl⟩, hclosing, rfl⟩, config.lockEnd,
      ⟨hfits, rfl⟩, rfl⟩

/-- Sizes that are set stay. -/
theorem sameSizes_run (hset : ∃ p, w.storage.state.ntrnSize p ≠ 0) (as : List (Action E)) :
    SameSizes w.storage (run (World.exec x) w as).storage := by
  refine @run_invariant _ _ _ (World.exec x)
    (fun t : World E => SameSizes w.storage t.storage) (fun t a t' ht hexec => ?_) as w (.refl _)
  cases a with
  | execute info msg =>
      rcases World.execute_sizes hexec with hsame | ⟨-, _, _, _, _, _, _, _, _, hsizes⟩
      · exact ht.trans hsame
      · obtain ⟨p, hp⟩ := hset
        rw [← ht.ntrnSize p] at hp
        cases p with
        | usdc => exact absurd hsizes.unset.1 hp
        | atom => exact absurd hsizes.unset.2 hp
  | _ =>
      obtain rfl := Except.ok.inj hexec
      exact ht

/-- Denoms that are set stay set. -/
theorem World.execute_denoms {info : MessageInfo} {msg : ExecuteMsg}
    (hexec : w.execute x info msg = .ok w') :
    (w.storage.config.usdcDenom ≠ none → w'.storage.config.usdcDenom ≠ none) ∧
      (w.storage.config.atomDenom ≠ none → w'.storage.config.atomDenom ≠ none) := by
  rcases execute_cases hexec with ⟨msgs, hresponds, hmsg⟩ | ⟨-, w₁, usdcDenom, atomDenom, poolInfo,
    prev, cur, lockdrop, provide₁, provide₂, msgs, hinit⟩
  · have heffect := hresponds.effect
    cases heffect with
    | configure _ _ _ h =>
        rw [h.usdcDenom, h.atomDenom]
        exact ⟨orElse_ne_none, orElse_ne_none⟩
    | deposit _ _ _ _ _ h => simp [h.storage]
    | withdraw _ _ _ _ _ _ h => simp [h.storage]
    | size _ _ _ _ _ _ _ _ _ h => simp [h.storage]
    | initPool => exact absurd rfl hmsg
    | lock _ _ _ _ _ h => simp [h.storage]
    | unlock _ _ _ _ _ h => simp [h.storage]
    | vest _ _ h => simp [h.storage]
  · simp [hinit.finalizes.storage]

/-- What is deposited has its denom. -/
def Storage.DenomsKnown (s : Storage) : Prop :=
  s.state.totalUsdcDeposited + s.state.totalAtomDeposited ≠ 0 →
    s.config.usdcDenom ≠ none ∧ s.config.atomDenom ≠ none

theorem denomsKnown_run {w₀ : World E} (hstart : Started w₀) (as : List (Action E)) :
    (run (World.exec x) w₀ as).storage.DenomsKnown := by
  refine @run_invariant _ _ _ (World.exec x) (fun t : World E => t.storage.DenomsKnown)
    (fun t a t' ht hexec => ?_) as w₀ ?_
  · cases a with
    | execute info msg =>
        obtain ⟨husdc, hatom⟩ := World.execute_denoms hexec
        intro hdeposited
        cases World.execute_moves hexec with
        | deposited _ _ _ _ _ h =>
            exact ⟨husdc (by simp [h.usdcDenom_eq]), hatom (by simp [h.atomDenom_eq])⟩
        | withdrawn _ _ _ _ _ _ _ _ h =>
            exact ⟨husdc (by simp [h.usdcDenom_eq]), hatom (by simp [h.atomDenom_eq])⟩
        | kept h =>
            rw [h.totalUsdc, h.totalAtom] at hdeposited
            exact ⟨husdc (ht hdeposited).1, hatom (ht hdeposited).2⟩
    | _ =>
        obtain rfl := Except.ok.inj hexec
        exact ht
  · obtain ⟨env, info, msg, hinst, -⟩ := hstart.storage
    unfold instantiate at hinst
    simp only [bind_eq_ok, rejectIf_eq_ok, exists_const, Except.ok.injEq] at hinst
    obtain ⟨-, hstorage⟩ := hinst
    intro hdeposited
    rw [← hstorage] at hdeposited
    exact absurd rfl hdeposited

/-- The owner names the pools, the lock window passes, and the coins are made up. -/
def makesPools (w : World E) (ext : E) (poolInfo : PoolInfo) (coins : List Coin) :
    List (Action E) :=
  [.drift ext,
    .execute ⟨w.storage.config.owner, []⟩ (.setTokenInfo none none (some poolInfo)),
    .advance (w.storage.config.lockEnd - w.env.time) 0,
    .donate coins]

/-- The world when `InitPool` is due. -/
def World.poolsNamed (w : World E) (ext : E) (poolInfo : PoolInfo) (coins : List Coin) :
    World E :=
  { w with
    storage := { w.storage with config := { w.storage.config with poolInfo := some poolInfo } }
    bank := w.bank.receive coins
    ext := ext
    env := { w.env with time := w.env.time + (w.storage.config.lockEnd - w.env.time) } }

theorem run_makesPools {ext : E} {poolInfo : PoolInfo} {coins : List Coin}
    (howner : w.storage.config.owner ≠ w.env.contract) :
    run (World.exec x) w (makesPools w ext poolInfo coins) =
      w.poolsNamed ext poolInfo coins := by
  have hnames : World.exec x { w with ext := ext }
      (.execute ⟨w.storage.config.owner, []⟩ (.setTokenInfo none none (some poolInfo))) =
        .ok { w with
          storage := { w.storage with
            config := { w.storage.config with poolInfo := some poolInfo } }
          ext := ext } := by
    show World.execute x _ _ _ = _
    unfold World.execute
    refine bind_eq_ok.mpr ⟨(), rejectIf_eq_ok.mpr howner, ?_⟩
    refine bind_eq_ok.mpr ⟨⟨{ w.storage with
      config := { w.storage.config with poolInfo := some poolInfo } }, []⟩, ?_, rfl⟩
    exact bind_eq_ok.mpr ⟨(), rejectIf_eq_ok.mpr fun h => h.2 rfl, rfl⟩
  unfold makesPools
  rw [run_cons, commit_of_ok (World.exec x) rfl, run_cons, commit_of_ok (World.exec x) hnames]
  rfl

/-- With an LP size that is not zero, `InitPool` becomes possible. -/
theorem canInitPool_of_sized (hnameable : Nameable x w)
    (hunminted : w.storage.state.lpUsdcSharesMinted = none ∧
      w.storage.state.lpAtomSharesMinted = none)
    (hsized : ¬ (w.storage.state.usdcLpSize = 0 ∧ w.storage.state.atomLpSize = 0))
    (hdenoms : w.storage.config.usdcDenom ≠ none ∧ w.storage.config.atomDenom ≠ none)
    (hfits : w.storage.config.lockEnd < 2 ^ 64) :
    ∃ as, CanInitPool x (run (World.exec x) w as) := by
  obtain ⟨ext, usdcLp, atomLp, usdc, atom, husdcLp, hatomLp⟩ := hnameable.lpTokens
  obtain ⟨usdcDenom, husdcDenom⟩ := Option.ne_none_iff_exists'.mp hdenoms.1
  obtain ⟨atomDenom, hatomDenom⟩ := Option.ne_none_iff_exists'.mp hdenoms.2
  let messages : List CosmosMsg :=
    [buildProvideLiquidityToLpPoolMsg "usdc_pool" w.storage.state.usdcNtrnSize
        w.storage.config.ntrnDenom w.storage.state.totalUsdcDeposited usdcDenom,
      buildProvideLiquidityToLpPoolMsg "atom_pool" w.storage.state.atomNtrnSize
        w.storage.config.ntrnDenom w.storage.state.totalAtomDeposited atomDenom,
      .callback (.finalizePoolInitialization ⟨atom, usdc⟩)]
  -- what the two messages need is sent to the contract, and the pools are named
  let coins := messages.flatMap CosmosMsg.coins
  obtain ⟨bank, hbank⟩ : ∃ bank, (w.bank.receive coins).send coins = .ok bank := by
    refine Bank.send_isOk fun denom => ?_
    rw [Bank.receive_apply]
    exact Nat.le_add_left _ _
  let poolInfo : PoolInfo := ⟨"usdc_pool", "atom_pool", usdcLp, atomLp⟩
  refine ⟨makesPools w ext poolInfo coins, ?_⟩
  rw [run_makesPools hnameable.owner]
  refine ⟨⟨(w.poolsNamed ext poolInfo coins).storage, messages⟩, bank, ?_, hbank⟩
  have hopen : ¬ (w.storage.state.lpUsdcSharesMinted.isSome = true ∨
      w.storage.state.lpAtomSharesMinted.isSome = true) := by
    rw [hunminted.1, hunminted.2]
    decide
  have hover : w.storage.config.lockEnd ≤
      w.env.time + (w.storage.config.lockEnd - w.env.time) := by
    omega
  unfold executeInitPool
  refine bind_eq_ok.mpr ⟨(usdcDenom, atomDenom), ?_, ?_⟩
  · exact bind_eq_ok.mpr ⟨usdcDenom, okOr_eq_ok.mpr husdcDenom,
      bind_eq_ok.mpr ⟨atomDenom, okOr_eq_ok.mpr hatomDenom, rfl⟩⟩
  refine bind_eq_ok.mpr ⟨(), rejectIf_eq_ok.mpr hopen, ?_⟩
  refine bind_eq_ok.mpr ⟨(), rejectIf_eq_ok.mpr hsized, ?_⟩
  refine bind_eq_ok.mpr ⟨true, isLockWindowClosed_iff.mpr ⟨hfits, (decide_eq_true hover).symm⟩, ?_⟩
  refine bind_eq_ok.mpr ⟨(), rejectIf_eq_ok.mpr (by decide), ?_⟩
  refine bind_eq_ok.mpr ⟨poolInfo, rfl, ?_⟩
  refine bind_eq_ok.mpr ⟨⟨atom, usdc⟩, ?_, rfl⟩
  exact bind_eq_ok.mpr ⟨usdc, husdcLp, bind_eq_ok.mpr ⟨atom, hatomLp, rfl⟩⟩

/-- In every state of every run in which the windows are over and nothing but `SetPoolSize` is
missing, it succeeds and `InitPool` can follow if and only if there is enough for the pools. -/
theorem setPoolSize_iff {w₀ : World E} (hstart : Started w₀) (as : List (Action E))
    {atom usdc : PriceFeedRate} (h : Sizable x (run (World.exec x) w₀ as) atom usdc)
    (hnameable : Nameable x (run (World.exec x) w₀ as)) {u : Addr}
    (hu : u ≠ (run (World.exec x) w₀ as).env.contract) :
    (∃ w' bs, (run (World.exec x) w₀ as).exec x (.execute ⟨u, []⟩ .setPoolSize) = .ok w' ∧
        CanInitPool x (run (World.exec x) w' bs)) ↔
      EnoughForPools (run (World.exec x) w₀ as) atom.rate usdc.rate := by
  have hstaged := @staged_run _ x _ hstart as
  have hknown := @denomsKnown_run _ x _ hstart as
  generalize run (World.exec x) w₀ as = w at *
  -- the pools were not sized, so nothing was minted for them either
  have hunset : ¬ ∀ p, 0 < w.storage.state.ntrnSize p :=
    fun hsized => (hsized .usdc).ne' h.unset.1
  have hunminted : w.storage.state.lpUsdcSharesMinted = none ∧
      w.storage.state.lpAtomSharesMinted = none := by
    constructor <;> by_contra hminted
    · exact hunset (hstaged.minted (Or.inl hminted))
    · exact hunset (hstaged.minted (Or.inr hminted))
  have hiff := executeSetPoolSize_iff h hunminted.1 hunminted.2
  constructor
  · rintro ⟨w', bs, hexec, r', bank, hinit, -⟩
    obtain ⟨r, hr, rfl⟩ := (exec_setPoolSize_ok hu).mp hexec
    obtain ⟨-, -, husdcLp, hatomLp⟩ := executeSetPoolSize_sizes h hr
    obtain ⟨-, _, _, _, _, _, _, _, _, hsizes⟩ := executeSetPoolSize_ok hr
    obtain ⟨hterms, -⟩ := World.run_terms (x := x) { w with storage := r.storage } bs
    have hsame := @sameSizes_run _ x { w with storage := r.storage }
      ⟨.usdc, (hsizes.ntrnSize_pos .usdc).ne'⟩ bs
    have hconfig : r.storage.config = w.storage.config := by rw [hsizes.storage]
    refine ⟨hiff.mp ⟨r, hr⟩, ?_, ?_⟩
    · obtain ⟨_, _, _, _, hstarts⟩ := executeInitPool_ok hinit
      refine (not_and_or.mp hstarts.sized).imp (fun hne => ?_) (fun hne => ?_)
      · exact (getLpSize_ne_zero husdcLp).mp fun hzero => hne ((hsame.lpSize .usdc).trans hzero)
      · exact (getLpSize_ne_zero hatomLp).mp fun hzero => hne ((hsame.lpSize .atom).trans hzero)
    · unfold executeInitPool at hinit
      simp only [bind_eq_ok, rejectIf_eq_ok, exists_const] at hinit
      obtain ⟨_, -, -, -, closed, hclosed, -⟩ := hinit
      have hfits := (isLockWindowClosed_iff.mp hclosed).1
      rw [hterms.lockEnd] at hfits
      rwa [← hconfig]
  · rintro ⟨hlarge, heither, hfits⟩
    obtain ⟨r, hr⟩ := hiff.mpr hlarge
    obtain ⟨-, -, husdcLp, hatomLp⟩ := executeSetPoolSize_sizes h hr
    obtain ⟨-, _, _, _, _, _, _, _, _, hsizes⟩ := executeSetPoolSize_ok hr
    have hconfig : r.storage.config = w.storage.config := by rw [hsizes.storage]
    have hsized := heither.imp (getLpSize_ne_zero husdcLp).mpr (getLpSize_ne_zero hatomLp).mpr
    obtain ⟨bs, hcan⟩ := @canInitPool_of_sized _ x { w with storage := r.storage }
      ⟨by rw [hconfig]; exact hnameable.owner, hnameable.lpTokens⟩
      (by rw [hsizes.storage]; exact hunminted) (not_and_or.mpr hsized)
      (by rw [hconfig]; exact hknown h.deposited.ne') (by rwa [hconfig])
    exact ⟨_, bs, (exec_setPoolSize_ok hu).mpr ⟨r, hr, rfl⟩, hcan⟩

/-! ### Stranded deposits -/

/-- The windows are over, no size is set, and one asset was not deposited at all. -/
structure Stranded (w : World E) : Prop where
  window : 0 < w.storage.config.withdrawalWindow
  late : w.storage.config.closing ≤ w.env.time
  staged : Staged w.storage
  unset : ∃ p, w.storage.state.ntrnSize p = 0
  oneSided : ∃ p, w.storage.state.totalDeposited p = 0

theorem SameDeposits.totalDeposited {s s' : Storage} (h : SameDeposits s s') (p : PoolType) :
    s'.state.totalDeposited p = s.state.totalDeposited p := by
  cases p with
  | usdc => exact h.totalUsdc
  | atom => exact h.totalAtom

/-- A pool without a deposit has no LP size. -/
theorem Sizes.totalDeposited_pos {q : Querier} {s s' : Storage} {env : Env}
    {atom usdc : PriceFeedRate} {ratio : Decimal}
    {ntrnAmount usdcNtrnSize atomNtrnSize usdcLpSize atomLpSize : Nat}
    (h : Sizes q s s' env atom usdc ratio ntrnAmount usdcNtrnSize atomNtrnSize usdcLpSize
      atomLpSize) (p : PoolType) : 0 < s.state.totalDeposited p := by
  cases p with
  | usdc => exact (getLpSize_pos h.usdcLpSize_eq).2
  | atom => exact (getLpSize_pos h.atomLpSize_eq).2

theorem Stranded.exec {a : Action E} (h : Stranded w) (hexec : w.exec x a = .ok w') :
    Stranded w' ∧ SameDeposits w.storage w'.storage := by
  obtain ⟨hterms, htime⟩ := World.exec_terms hexec
  obtain ⟨hsizes, hsame⟩ : SameSizes w.storage w'.storage ∧ SameDeposits w.storage w'.storage := by
    cases a with
    | execute info msg =>
        constructor
        · rcases World.execute_sizes hexec with hsame | ⟨-, _, _, _, _, _, _, _, _, hsizes⟩
          · exact hsame
          · obtain ⟨p, hp⟩ := h.oneSided
            exact absurd hp (hsizes.totalDeposited_pos p).ne'
        · cases World.execute_moves hexec with
          | deposited _ _ _ _ _ hdeposits =>
              have hearly := hdeposits.early
              have hclosing := w.storage.config.depositsEnd_le_closing
              have := h.late
              omega
          | withdrawn _ _ _ _ _ _ _ _ hwithdraws =>
              exact absurd (hwithdraws.not_late (Or.inl h.window)) (Nat.not_lt_of_le h.late)
          | kept hsame => exact hsame
    | _ =>
        obtain rfl := Except.ok.inj hexec
        exact ⟨.refl _, .refl _⟩
  refine ⟨⟨?_, ?_, h.staged.exec hexec, ?_, ?_⟩, hsame⟩
  · rw [hterms.withdrawalWindow]
    exact h.window
  · rw [hterms.closing]
    exact h.late.trans htime
  · obtain ⟨p, hp⟩ := h.unset
    exact ⟨p, by rw [hsizes.ntrnSize, hp]⟩
  · obtain ⟨p, hp⟩ := h.oneSided
    exact ⟨p, by rw [hsame.totalDeposited, hp]⟩

/-- Nothing moves stranded deposits any more: they stay, and no pool is ever made. -/
theorem Stranded.forever (h : Stranded w) (as : List (Action E)) :
    SameDeposits w.storage (run (World.exec x) w as).storage ∧
      (run (World.exec x) w as).storage.Unminted := by
  have hboth := @run_invariant _ _ _ (World.exec x)
    (fun t : World E => Stranded t ∧ SameDeposits w.storage t.storage)
    (fun t a t' ht hexec => by
      obtain ⟨hstranded, hsame⟩ := ht.1.exec hexec
      exact ⟨hstranded, ht.2.trans hsame⟩) as w ⟨h, .refl _⟩
  refine ⟨hboth.2, ?_⟩
  by_contra hminted
  obtain ⟨p, hp⟩ := hboth.1.unset
  exact (hboth.1.staged.minted (Or.inl hminted) p).ne' hp

/-- The run after which alice's deposit of one asset is all there is. -/
def onlyUsdc : List (Action SampleExt) :=
  sampleDeposits [⟨"usdc", 2000000⟩] ++ [.advance 20 1]

theorem onlyUsdc_sizable :
    Sizable sampleExternals (run (World.exec sampleExternals) (sampleStart 10) onlyUsdc)
      ⟨1, 30, 0⟩ ⟨1, 30, 0⟩ := by
  constructor
  · decide +kernel
  · decide +kernel
  · decide +kernel
  · decide +kernel
  · decide +kernel
  · decide +kernel
  · rfl
  · decide +kernel
  · decide +kernel
  · constructor <;> decide +kernel

/-- Everything is there for `SetPoolSize`, but with USDC alone it fails, and the two million stay
in the contract whatever happens next. -/
theorem onlyUsdc_stranded :
    Sizable sampleExternals (run (World.exec sampleExternals) (sampleStart 10) onlyUsdc)
        ⟨1, 30, 0⟩ ⟨1, 30, 0⟩ ∧
      (run (World.exec sampleExternals) (sampleStart 10)
        onlyUsdc).storage.state.totalUsdcDeposited = 2000000 ∧
      ((run (World.exec sampleExternals) (sampleStart 10) onlyUsdc).exec sampleExternals
        bobSetsPoolSize).isOk = false ∧
      ∀ as, SameDeposits (run (World.exec sampleExternals) (sampleStart 10) onlyUsdc).storage
          (run (World.exec sampleExternals)
            (run (World.exec sampleExternals) (sampleStart 10) onlyUsdc) as).storage ∧
        (run (World.exec sampleExternals)
          (run (World.exec sampleExternals) (sampleStart 10) onlyUsdc) as).storage.Unminted := by
  refine ⟨onlyUsdc_sizable, by decide +kernel, by decide +kernel, fun as => ?_⟩
  have hstaged := @staged_run _ sampleExternals _ (sampleStart_started 10) onlyUsdc
  exact Stranded.forever ⟨by decide +kernel, by decide +kernel, hstaged,
    ⟨.usdc, by decide +kernel⟩, ⟨.atom, by decide +kernel⟩⟩ as

/-- Everything is there for `SetPoolSize` in the small auction. -/
theorem sampleClosed_sizable :
    Sizable sampleExternals sampleClosed ⟨1, 30, 0⟩ ⟨1, 30, 0⟩ := by
  constructor
  · decide +kernel
  · decide +kernel
  · decide +kernel
  · decide +kernel
  · decide +kernel
  · decide +kernel
  · rfl
  · decide +kernel
  · decide +kernel
  · constructor <;> decide +kernel

theorem setPoolSize_iff_sample :
    ∃ w' bs, sampleClosed.exec sampleExternals bobSetsPoolSize = .ok w' ∧
      CanInitPool sampleExternals (run (World.exec sampleExternals) w' bs) := by
  refine (setPoolSize_iff (sampleStart_started 10) _ sampleClosed_sizable
    ⟨by decide +kernel, ⟨0, 0⟩, "usdc_lp", "atom_lp", 0, 0, rfl, rfl⟩ (u := "bob") (by decide)).mpr
    ⟨⟨?_, ?_, ?_, ?_⟩, Or.inl ?_, ?_⟩
  · decide +kernel
  · decide +kernel
  · decide +kernel
  · decide +kernel
  · decide +kernel
  · decide +kernel

end NeutronTge.Auction
