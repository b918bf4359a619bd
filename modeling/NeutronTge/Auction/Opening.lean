import Mathlib.Tactic.Linarith
import NeutronTge.Auction.PoolSize

/-!
# NeutronTge.Auction.Opening

The prices with which the pools open. `SetPoolSize` divides the NTRN by the value of the
deposits, with two rates of the price feed, and rounds at each of its divisions. `SamePrice`
says how far the NTRN prices of the two pools can be apart: the deposits and the sizes do not
change any more, so it still holds of the liquidity that `InitPool` provides.
-/

namespace NeutronTge.Auction

open CosmWasm Astroport
open Lockdrop (PoolType)

variable {E : Type} {x : Externals E} {w w' : World E}

/-! ### Values -/

section Values

variable {usdcAmount atomAmount atomRate usdcRate usdcNtrnSize atomNtrnSize : Nat}

/-- The value of the ATOM in USDC is that of the two rates, up to one unit and to the precision
of the relative rate. -/
structure FairValue (atomAmount atomRate usdcRate value : Nat) : Prop where
  lower : atomAmount * atomRate < (value + 1) * usdcRate
  upper : value * usdcRate * FixedPoint.fractional ≤
    (atomAmount * FixedPoint.fractional + value) * atomRate

theorem div_bounds (n : Nat) {d : Nat} (hd : 0 < d) : n / d * d ≤ n ∧ n < (n / d + 1) * d := by
  refine ⟨Nat.div_mul_le_self n d, ?_⟩
  rw [Nat.mul_comm]
  exact Nat.lt_mul_div_succ n hd

theorem atomInUsdc_fair (hpos : 0 < usdcRate * FixedPoint.fractional / atomRate) :
    FairValue atomAmount atomRate usdcRate (atomInUsdc atomAmount atomRate usdcRate) := by
  have hfractional := FixedPoint.fractional_pos
  have hatomRate : 0 < atomRate := (Nat.div_pos_iff.mp hpos).1
  obtain ⟨hratioLe, hratioLt⟩ := div_bounds (usdcRate * FixedPoint.fractional) hatomRate
  unfold atomInUsdc
  generalize usdcRate * FixedPoint.fractional / atomRate = ratio at hpos hratioLe hratioLt
  -- the two roundings of the value, one after the other
  obtain ⟨hinnerLe, hinnerLt⟩ :=
    div_bounds (atomAmount * FixedPoint.fractional * FixedPoint.fractional) hpos
  generalize atomAmount * FixedPoint.fractional * FixedPoint.fractional / ratio = inner
    at hinnerLe hinnerLt
  obtain ⟨houterLe, houterLt⟩ := div_bounds inner hfractional
  generalize inner / FixedPoint.fractional = value at houterLe houterLt
  have hvalueLe : value * ratio ≤ atomAmount * FixedPoint.fractional := by
    refine Nat.le_of_mul_le_mul_right ?_ hfractional
    calc value * ratio * FixedPoint.fractional = value * FixedPoint.fractional * ratio := by ring
      _ ≤ inner * ratio := Nat.mul_le_mul_right _ houterLe
      _ ≤ _ := hinnerLe
  have hvalueLt : atomAmount * FixedPoint.fractional < (value + 1) * ratio := by
    refine Nat.lt_of_mul_lt_mul_right (a := FixedPoint.fractional) ?_
    calc atomAmount * FixedPoint.fractional * FixedPoint.fractional < (inner + 1) * ratio :=
          hinnerLt
      _ ≤ (value + 1) * FixedPoint.fractional * ratio := Nat.mul_le_mul_right _ houterLt
      _ = (value + 1) * ratio * FixedPoint.fractional := by ring
  constructor
  · refine Nat.lt_of_mul_lt_mul_right (a := FixedPoint.fractional) ?_
    calc atomAmount * atomRate * FixedPoint.fractional
        = atomAmount * FixedPoint.fractional * atomRate := by ring
      _ < (value + 1) * ratio * atomRate := Nat.mul_lt_mul_of_pos_right hvalueLt hatomRate
      _ = (value + 1) * (ratio * atomRate) := Nat.mul_assoc _ _ _
      _ ≤ (value + 1) * (usdcRate * FixedPoint.fractional) := Nat.mul_le_mul_left _ hratioLe
      _ = (value + 1) * usdcRate * FixedPoint.fractional := (Nat.mul_assoc _ _ _).symm
  · calc value * usdcRate * FixedPoint.fractional
        = value * (usdcRate * FixedPoint.fractional) := Nat.mul_assoc _ _ _
      _ ≤ value * ((ratio + 1) * atomRate) := Nat.mul_le_mul_left _ hratioLt.le
      _ = (value * ratio + value) * atomRate := by ring
      _ ≤ (atomAmount * FixedPoint.fractional + value) * atomRate := by gcongr

/-- The prices of NTRN in the two pools: the ATOM pool gets at least as much NTRN for its value
as the USDC pool, and hardly more. -/
structure SamePrice (usdcAmount value usdcNtrnSize atomNtrnSize : Nat) : Prop where
  lower : value * usdcNtrnSize ≤ usdcAmount * atomNtrnSize
  upper : usdcAmount * atomNtrnSize * FixedPoint.fractional <
    value * usdcNtrnSize * FixedPoint.fractional +
      (usdcAmount + value) * (FixedPoint.fractional + usdcNtrnSize + atomNtrnSize)

/-- Dividing an amount by value, with a ratio that is rounded as a decimal. -/
theorem samePrice_of_ratio {value ntrnAmount : Nat} (hpos : 0 < usdcAmount + value)
    (husdc : usdcNtrnSize = ntrnAmount *
      (usdcAmount * FixedPoint.fractional / (usdcAmount + value)) / FixedPoint.fractional)
    (hsplit : usdcNtrnSize + atomNtrnSize = ntrnAmount) :
    SamePrice usdcAmount value usdcNtrnSize atomNtrnSize := by
  have hfractional := FixedPoint.fractional_pos
  obtain ⟨hratioLe, hratioLt⟩ := div_bounds (usdcAmount * FixedPoint.fractional) hpos
  generalize usdcAmount * FixedPoint.fractional / (usdcAmount + value) = ratio
    at husdc hratioLe hratioLt
  obtain ⟨hsizeLe, hsizeLt⟩ := div_bounds (ntrnAmount * ratio) hfractional
  rw [← husdc, ← hsplit] at hsizeLe hsizeLt
  constructor
  · refine Nat.le_of_mul_le_mul_right ?_ hfractional
    have hall : usdcNtrnSize * FixedPoint.fractional * (usdcAmount + value) ≤
        (usdcNtrnSize + atomNtrnSize) * (usdcAmount * FixedPoint.fractional) :=
      calc usdcNtrnSize * FixedPoint.fractional * (usdcAmount + value)
          ≤ (usdcNtrnSize + atomNtrnSize) * ratio * (usdcAmount + value) :=
            Nat.mul_le_mul_right _ hsizeLe
        _ = (usdcNtrnSize + atomNtrnSize) * (ratio * (usdcAmount + value)) := Nat.mul_assoc _ _ _
        _ ≤ _ := Nat.mul_le_mul_left _ hratioLe
    linarith only [hall]
  · have hall : (usdcNtrnSize + atomNtrnSize) * (usdcAmount * FixedPoint.fractional) <
        ((usdcNtrnSize + 1) * FixedPoint.fractional + (usdcNtrnSize + atomNtrnSize)) *
          (usdcAmount + value) :=
      calc (usdcNtrnSize + atomNtrnSize) * (usdcAmount * FixedPoint.fractional)
          ≤ (usdcNtrnSize + atomNtrnSize) * ((ratio + 1) * (usdcAmount + value)) :=
            Nat.mul_le_mul_left _ hratioLt.le
        _ = ((usdcNtrnSize + atomNtrnSize) * ratio + (usdcNtrnSize + atomNtrnSize)) *
              (usdcAmount + value) := by ring
        _ < _ := Nat.mul_lt_mul_of_pos_right (Nat.add_lt_add_right hsizeLt _) hpos
    linarith only [hall]

/-- The ratio of the USDC to all deposits. -/
theorem usdcRatio_ok {ratio : Decimal}
    (h : usdcRatio usdcAmount atomAmount atomRate usdcRate = .ok ratio) :
    0 < usdcRate * FixedPoint.fractional / atomRate ∧
      0 < usdcAmount + atomInUsdc atomAmount atomRate usdcRate ∧
      ratio.atomics = usdcAmount * FixedPoint.fractional /
        (usdcAmount + atomInUsdc atomAmount atomRate usdcRate) := by
  simp only [usdcRatio, FixedPoint.parseWhole, bind_eq_ok, FixedPoint.fromRatio_eq_ok,
    FixedPoint.div, FixedPoint.toUintFloor, Uint.checkedAdd_eq_ok] at h
  obtain ⟨rate, ⟨-, -, hrate⟩, atoms, hatoms, value, ⟨hpos, -, hvalue⟩, _, ⟨-, rfl⟩, hall, -,
    hratio⟩ := h
  split_ifs at hatoms
  obtain rfl := Except.ok.inj hatoms
  rw [hrate] at hpos hvalue
  have hsame : value.atomics / FixedPoint.fractional = atomInUsdc atomAmount atomRate usdcRate := by
    rw [hvalue]
    rfl
  rw [hsame] at hall hratio
  exact ⟨hpos, hall, hratio⟩

end Values

/-! ### Runs -/

/-- A message that provides NTRN and another token to a pool. -/
def CosmosMsg.Provides (ntrnAmount otherAmount : Nat) (m : CosmosMsg) : Prop :=
  ∃ pool ntrnDenom otherDenom,
    m = buildProvideLiquidityToLpPoolMsg pool ntrnAmount ntrnDenom otherAmount otherDenom

/-- The rates that `SetPoolSize` asks for. -/
def ratesOf (x : Externals E) (w : World E) : Action E → Option (Nat × Nat)
  | .execute _ .setPoolSize =>
      match x.getRate w.ext w.storage.config.priceFeedContract with
      | .ok [atom, usdc] => some (atom.rate, usdc.rate)
      | _ => none
  | _ => none

/-- The rates with which the sizes were set in a run. -/
def setRates (x : Externals E) (w : World E) (as : List (Action E)) : Option (Nat × Nat) :=
  history (World.exec x) (fun w a _ rates => (ratesOf x w a).or rates) w none as

/-- The sizes of the pools fit to the deposits and the rates, and the liquidity is provided in
these amounts. -/
structure Opened (w : World E) (atomRate usdcRate : Nat) : Prop where
  deposited : ∀ p, 0 < w.storage.state.totalDeposited p
  value : FairValue w.storage.state.totalAtomDeposited atomRate usdcRate
    (atomInUsdc w.storage.state.totalAtomDeposited atomRate usdcRate)
  price : SamePrice w.storage.state.totalUsdcDeposited
    (atomInUsdc w.storage.state.totalAtomDeposited atomRate usdcRate)
    w.storage.state.usdcNtrnSize w.storage.state.atomNtrnSize
  provided : ¬ w.storage.Unminted → ∀ p, ∃ m ∈ w.trace,
    m.Provides (w.storage.state.ntrnSize p) (w.storage.state.totalDeposited p)

/-- The state of the sizes in a run. -/
inductive Sized (w : World E) : Option (Nat × Nat) → Prop
  | unset (hunset : ∀ p, w.storage.state.ntrnSize p = 0) : Sized w none
  | set (atomRate usdcRate : Nat) (hfrozen : Frozen w) (hopened : Opened w atomRate usdcRate) :
      Sized w (some (atomRate, usdcRate))

section Steps

variable {info : MessageInfo} {msg : ExecuteMsg}

/-- The trace grows, and `InitPool` adds the two provisions of liquidity. -/
theorem execute_provides (h : w.execute x info msg = .ok w') :
    (∀ m ∈ w.trace, m ∈ w'.trace) ∧ (w.storage.Unminted → ¬ w'.storage.Unminted →
      ∀ p, ∃ m ∈ w'.trace,
        m.Provides (w.storage.state.ntrnSize p) (w.storage.state.totalDeposited p)) := by
  rcases execute_cases h with ⟨msgs, hresponds, hmsg⟩ | ⟨-, w₁, usdcDenom, atomDenom, poolInfo,
    prev, cur, lockdrop, provide₁, provide₂, msgs, hinit⟩
  · rw [hresponds.trace]
    refine ⟨fun m hm => List.mem_append_left _ hm, fun hunminted hminted => absurd ?_ hminted⟩
    exact (hresponds.minted hmsg).1.trans hunminted
  · have hprovides := hinit.starts.messages
    simp only [List.cons.injEq] at hprovides
    obtain ⟨hprovide₁, hprovide₂, -⟩ := hprovides
    rw [hinit.trace]
    refine ⟨fun m hm => List.mem_append_left _ hm, fun _ _ p => ?_⟩
    cases p with
    | usdc => exact ⟨provide₁, by simp, _, _, _, hprovide₁⟩
    | atom => exact ⟨provide₂, by simp, _, _, _, hprovide₂⟩

theorem sizes_of_setPoolSize (h : w.execute x info .setPoolSize = .ok w') :
    ∃ atom usdc ratio ntrnAmount usdcNtrnSize atomNtrnSize usdcLpSize atomLpSize,
      Sizes ((w.receive info).querier x) w.storage w'.storage w.env atom usdc ratio ntrnAmount
        usdcNtrnSize atomNtrnSize usdcLpSize atomLpSize := by
  rcases execute_cases h with ⟨msgs, hresponds, -⟩ | ⟨hmsg, -⟩
  · have heffect := hresponds.effect
    cases heffect with
    | configure _ hmsg => cases hmsg
    | size atom usdc ratio ntrnAmount usdcNtrnSize atomNtrnSize usdcLpSize atomLpSize _ hsizes =>
        exact ⟨atom, usdc, ratio, ntrnAmount, usdcNtrnSize, atomNtrnSize, usdcLpSize, atomLpSize,
          hsizes⟩
  · cases hmsg

/-- What `SetPoolSize` makes of the deposits. -/
theorem Sizes.opened {q : Querier} {env : Env} {atom usdc : PriceFeedRate} {ratio : Decimal}
    {ntrnAmount usdcNtrnSize atomNtrnSize usdcLpSize atomLpSize : Nat}
    (h : Sizes q w.storage w'.storage env atom usdc ratio ntrnAmount usdcNtrnSize atomNtrnSize
      usdcLpSize atomLpSize) : Opened w' atom.rate usdc.rate := by
  obtain ⟨hrate, hall, hratio⟩ := usdcRatio_ok h.ratio_eq
  have hdeposited := h.totalDeposited_pos
  have hsize := h.usdcNtrnSize_eq
  have hunminted := h.unminted.1
  rw [hratio] at hsize
  constructor
  · intro p
    rw [h.storage]
    cases p with
    | usdc => exact hdeposited .usdc
    | atom => exact hdeposited .atom
  · rw [h.storage]
    exact atomInUsdc_fair hrate
  · rw [h.storage]
    exact samePrice_of_ratio hall hsize h.split
  · intro hminted
    rw [h.storage] at hminted
    exact absurd hunminted hminted

theorem Opened.of_same {atomRate usdcRate : Nat} (h : Opened w atomRate usdcRate)
    (hdeposits : SameDeposits w.storage w'.storage) (hsizes : SameSizes w.storage w'.storage)
    (hprovided : ¬ w'.storage.Unminted → ∀ p, ∃ m ∈ w'.trace,
      m.Provides (w.storage.state.ntrnSize p) (w.storage.state.totalDeposited p)) :
    Opened w' atomRate usdcRate := by
  have husdc : w'.storage.state.totalUsdcDeposited = w.storage.state.totalUsdcDeposited :=
    hdeposits.totalDeposited .usdc
  have hatom : w'.storage.state.totalAtomDeposited = w.storage.state.totalAtomDeposited :=
    hdeposits.totalDeposited .atom
  have husdcSize : w'.storage.state.usdcNtrnSize = w.storage.state.usdcNtrnSize :=
    hsizes.ntrnSize .usdc
  have hatomSize : w'.storage.state.atomNtrnSize = w.storage.state.atomNtrnSize :=
    hsizes.ntrnSize .atom
  constructor
  · intro p
    rw [hdeposits.totalDeposited]
    exact h.deposited p
  · rw [hatom]
    exact h.value
  · rw [husdc, hatom, husdcSize, hatomSize]
    exact h.price
  · intro hminted p
    rw [hsizes.ntrnSize, hdeposits.totalDeposited]
    exact hprovided hminted p

theorem timely_of_window (hwindow : 0 < w.storage.config.withdrawalWindow) (a : Action E) :
    Timely w a := by
  unfold Timely
  split
  · exact Or.inl hwindow
  · trivial

/-- Once the sizes are set, they fit to the deposits. -/
theorem Opened.exec {a : Action E} {atomRate usdcRate : Nat} (h : Opened w atomRate usdcRate)
    (hfrozen : Frozen w) (hwindow : 0 < w.storage.config.withdrawalWindow)
    (hexec : w.exec x a = .ok w') : Frozen w' ∧ Opened w' atomRate usdcRate := by
  obtain ⟨hfrozen', hdeposits, hsizes⟩ := hfrozen.exec (timely_of_window hwindow a) hexec
  refine ⟨hfrozen', h.of_same hdeposits hsizes fun hminted p => ?_⟩
  cases a with
  | execute info msg =>
      obtain ⟨hgrows, hnew⟩ := execute_provides hexec
      by_cases hunminted : w.storage.Unminted
      · exact hnew hunminted hminted p
      · obtain ⟨m, hm, hprovides⟩ := h.provided hunminted p
        exact ⟨m, hgrows m hm, hprovides⟩
  | _ =>
      obtain rfl := Except.ok.inj hexec
      exact h.provided hminted p

theorem Sized.exec {a : Action E} {rates : Option (Nat × Nat)} (h : Sized w rates)
    (hwindow : 0 < w.storage.config.withdrawalWindow) (hexec : w.exec x a = .ok w') :
    Sized w' ((ratesOf x w a).or rates) := by
  cases h with
  | unset hunset =>
      cases a with
      | execute info msg =>
          by_cases hmsg : msg = .setPoolSize
          · subst hmsg
            obtain ⟨atom, usdc, _, _, _, _, _, _, hsizes⟩ := sizes_of_setPoolSize hexec
            -- this is the `SetPoolSize` that fixes the rates
            have hrates : ratesOf x w (.execute info .setPoolSize) =
                some (atom.rate, usdc.rate) := by
              have heq : x.getRate w.ext w.storage.config.priceFeedContract = .ok [atom, usdc] :=
                hsizes.rates_eq
              simp only [ratesOf, heq]
            rw [hrates]
            exact .set _ _ (frozen_of_setPoolSize hexec) hsizes.opened
          · have hnone : ratesOf x w (.execute info msg) = none := by
              cases msg <;> first | rfl | exact absurd rfl hmsg
            rw [hnone]
            rcases World.execute_sizes hexec with hsame | ⟨heq, -⟩
            · exact .unset fun p => (hsame.ntrnSize p).trans (hunset p)
            · exact absurd heq hmsg
      | _ =>
          obtain rfl := Except.ok.inj hexec
          exact .unset hunset
  | set atomRate usdcRate hfrozen hopened =>
      have hnone : ratesOf x w a = none := by
        cases a with
        | execute info msg =>
            by_cases hmsg : msg = .setPoolSize
            · subst hmsg
              obtain ⟨_, _, _, _, _, _, _, _, hsizes⟩ := sizes_of_setPoolSize hexec
              -- the sizes are set once
              exact absurd hsizes.unset.1 (hfrozen.sized .usdc).ne'
            · cases msg <;> first | rfl | exact absurd rfl hmsg
        | _ => rfl
      obtain ⟨hfrozen', hopened'⟩ := hopened.exec hfrozen hwindow hexec
      rw [hnone]
      exact .set atomRate usdcRate hfrozen' hopened'

theorem Started.sized (h : Started w) : Sized w none := by
  obtain ⟨⟨env, info, msg, hinst, -⟩, -⟩ := h
  unfold instantiate at hinst
  simp only [bind_eq_ok, rejectIf_eq_ok, exists_const, Except.ok.injEq] at hinst
  obtain ⟨-, hstorage⟩ := hinst
  refine .unset fun p => ?_
  rw [← hstorage]
  cases p <;> rfl

theorem run_sized {w₀ : World E} (hunset : Sized w₀ none)
    (hwindow : 0 < w₀.storage.config.withdrawalWindow) (as : List (Action E)) :
    Sized (run (World.exec x) w₀ as) (setRates x w₀ as) := by
  have hboth := @history_invariant _ _ _ (World.exec x) _
    (fun w a _ rates => (ratesOf x w a).or rates)
    (fun w rates => 0 < w.storage.config.withdrawalWindow ∧ Sized w rates)
    (fun w a w' rates h hexec => ⟨by rw [(World.exec_terms hexec).1.withdrawalWindow]; exact h.1,
      h.2.exec h.1 hexec⟩) as w₀ none ⟨hwindow, hunset⟩
  exact hboth.2

end Steps

/-- 1000 ATOM and 3000 USDC at equal rates, with 4000 NTRN. -/
def sampleUneven : List (Action SampleExt) :=
  sampleDeposits [⟨"atom", 1000⟩, ⟨"usdc", 3000⟩] ++ [.advance 20 1, bobSetsPoolSize]

/-- The NTRN is divided three to one. -/
example :
    (run (World.exec sampleExternals) (sampleStart 10) sampleUneven).storage.state.usdcNtrnSize =
      3000 := by
  decide +kernel

end NeutronTge.Auction
