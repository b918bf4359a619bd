import NeutronTge.UsdcConverter.Chain

/-!
# NeutronTge.UsdcConverter.Conversions

The converter spends only what belongs to the present conversion. Every conversion takes away
what it brought, whatever the pools do in between, because what they do leaves the converter
with at least what it had (`Kept`); and it provides what its own withdrawal and its own swap
brought, for the one who sent the LP tokens (`Conversions`).
-/

namespace NeutronTge.UsdcConverter

open CosmWasm Astroport

variable {dep : Deployment} {w w₁ w₂ w' : World}

/-! ### What the events of a transaction look like -/

/-- Liquidity is provided for `sender`, with `ntrn` and with what the swap brought: the
converter's balance rose from `before` to `after`. -/
structure Provides (sender : Addr) (ntrn : Nat) (usdcDenom : String)
    (before after : String → Nat) (msg : ProvideLiquidity) (funds : List Coin) : Prop where
  gained : before usdcDenom ≤ after usdcDenom
  receiver : msg.receiver = some sender
  assets : msg.assets = [⟨.nativeToken ntrnDenom, ntrn⟩,
    ⟨.nativeToken usdcDenom, after usdcDenom - before usdcDenom⟩]
  funds_eq : funds = [⟨ntrnDenom, ntrn⟩, ⟨usdcDenom, after usdcDenom - before usdcDenom⟩]

/-- Well-nested conversions: LP tokens come in and are withdrawn, what was withdrawn is swapped,
and what was withdrawn and gained is provided. Other conversions happen while a pool is
called. -/
inductive Conversions (config : Config) : List Event → Prop
  | nil : Conversions config []
  | cons {sender swapPool providePool : Addr} {amount ntrn axlUsdc : Nat} {usdcDenom : String}
      {before after : String → Nat} {msg : ProvideLiquidity} {funds : List Coin}
      {inSwap inProvide rest : List Event}
      (hprovides : Provides sender ntrn usdcDenom before after msg funds)
      (hswap : Conversions config inSwap) (hprovide : Conversions config inProvide)
      (hrest : Conversions config rest) :
      Conversions config ([.received sender amount, .withdrawn amount ntrn axlUsdc,
        .swapping swapPool [⟨config.axlUsdcDenom, axlUsdc⟩] before] ++ inSwap ++
        .provided providePool msg funds after :: (inProvide ++ rest))

theorem Conversions.append {config : Config} {xs ys : List Event} (h : Conversions config xs)
    (h' : Conversions config ys) : Conversions config (xs ++ ys) := by
  induction h with
  | nil => exact h'
  | cons hprovides hswap hprovide _ _ _ ih =>
      simp only [List.append_assoc, List.cons_append, List.nil_append]
      exact Conversions.cons hprovides hswap hprovide ih

/-! ### What a call leaves behind -/

/-- The converter has at least what it had, and the events since are conversions. -/
structure Kept (config : Config) (w w' : World) : Prop where
  balances : ∀ d, w.balances d ≤ w'.balances d
  lp : w.lp ≤ w'.lp
  log : ∃ log, w'.log = w.log ++ log ∧ Conversions config log

namespace Kept

variable {config : Config}

theorem refl (w : World) : Kept config w w :=
  ⟨fun _ => le_refl _, le_refl _, [], by simp, Conversions.nil⟩

theorem trans (h : Kept config w w₁) (h' : Kept config w₁ w₂) : Kept config w w₂ := by
  obtain ⟨xs, hxs, hconv⟩ := h.log
  obtain ⟨ys, hys, hconv'⟩ := h'.log
  refine ⟨fun d => (h.balances d).trans (h'.balances d), h.lp.trans h'.lp, xs ++ ys, ?_,
    hconv.append hconv'⟩
  rw [hys, hxs, List.append_assoc]

theorem credit (w : World) (coin : Coin) : Kept config w (w.credit coin) :=
  ⟨fun _ => Nat.le_add_right _ _, le_refl _, [], (List.append_nil _).symm, Conversions.nil⟩

end Kept

/-! ### One conversion -/

/-- The steps of a conversion: the pair pays for the LP tokens (`w₁`), the transmuter pool is
paid (`w₂`) and does what it does (`w₃`), then the noble pool is paid (`w₄`). -/
structure Converts (dep : Deployment) (swap provide : World → Except StdError World)
    (sender : Addr) (amount ntrn axlUsdc : Nat) (hook : ConvertAndStake)
    (w w₁ w₂ w₃ w₄ w' : World) (msg : ProvideLiquidity) (funds : List Coin) : Prop where
  withdraws : w₁ = { w with
    balances := fun d => w.balances d + (if d = ntrnDenom then ntrn else 0) +
      if d = dep.config.axlUsdcDenom then axlUsdc else 0
    log := w.log ++ [.received sender amount, .withdrawn amount ntrn axlUsdc] }
  paysSwap : (w₁.note (.swapping hook.transmuterPool [⟨dep.config.axlUsdcDenom, axlUsdc⟩]
    w₁.balances)).pay ⟨dep.config.axlUsdcDenom, axlUsdc⟩ = .ok w₂
  swapped : swap w₂ = .ok w₃
  provides : Provides sender ntrn hook.nobleUsdcDenom w₁.balances w₃.balances msg funds
  paysProvide : funds.foldlM World.pay
    (w₃.note (.provided hook.noblePool msg funds w₃.balances)) = .ok w₄
  provided : provide w₄ = .ok w'

section Convert

variable {swap provide : World → Except StdError World} {ntrn axlUsdc n : Nat}

/-- The stake callback. -/
theorem stakes_ok {before : String → Nat} {slippageTolerance : Decimal}
    {caller noblePool : Addr} {nobleUsdcDenom : String}
    (h : dispatch dep swap provide ntrn axlUsdc n w (.callback (.stakeCallback
      (before nobleUsdcDenom) ntrn slippageTolerance caller noblePool nobleUsdcDenom)) = .ok w') :
    ∃ msg funds paid, Provides caller ntrn nobleUsdcDenom before w.balances msg funds ∧
      funds.foldlM World.pay (w.note (.provided noblePool msg funds w.balances)) = .ok paid ∧
      provide paid = .ok w' := by
  obtain ⟨m, msgs, hmsgs, hrun⟩ := dispatch_callback h
  simp only [handleCallback, handleStakeCallback, World.querier, bind_eq_ok,
    Uint.checkedSub_eq_ok, Except.ok.injEq] at hmsgs
  obtain ⟨_, rfl, _, ⟨hle, rfl⟩, rfl⟩ := hmsgs
  obtain ⟨paid, hpaid, hprovide⟩ := dispatch_provide (foldlM_singleton_ok.mp hrun)
  exact ⟨_, _, paid, ⟨hle, rfl, rfl, rfl⟩, hpaid, hprovide⟩

/-- The swap callback right after the pair paid: what was withdrawn is what it paid. -/
theorem swaps_ok {prev : String → Nat} {slippageTolerance : Decimal}
    {transmuterPool caller noblePool : Addr} {nobleUsdcDenom : String}
    (hpair : dep.config.axlUsdcDenom ≠ ntrnDenom)
    (hbalances : w.balances = fun d => prev d + (if d = ntrnDenom then ntrn else 0) +
      if d = dep.config.axlUsdcDenom then axlUsdc else 0)
    (h : dispatch dep swap provide ntrn axlUsdc n w (.callback (.swapCallback transmuterPool
      (prev dep.config.axlUsdcDenom) (prev ntrnDenom) slippageTolerance caller noblePool
      nobleUsdcDenom)) = .ok w') :
    ∃ m paid swapped,
      (w.note (.swapping transmuterPool [⟨dep.config.axlUsdcDenom, axlUsdc⟩] w.balances)).pay
        ⟨dep.config.axlUsdcDenom, axlUsdc⟩ = .ok paid ∧
      swap paid = .ok swapped ∧
      dispatch dep swap provide ntrn axlUsdc m swapped (.callback (.stakeCallback
        (w.balances nobleUsdcDenom) ntrn slippageTolerance caller noblePool nobleUsdcDenom)) =
        .ok w' := by
  obtain ⟨m, msgs, hmsgs, hrun⟩ := dispatch_callback h
  simp only [handleCallback, handleSwapCallback, World.querier, bind_eq_ok,
    Uint.checkedSub_eq_ok, Except.ok.injEq] at hmsgs
  obtain ⟨_, rfl, _, ⟨-, rfl⟩, _, rfl, _, ⟨-, rfl⟩, _, rfl, rfl⟩ := hmsgs
  have hntrn : w.balances ntrnDenom - prev ntrnDenom = ntrn := by
    simp [hbalances, Ne.symm hpair]
  have haxlUsdc : w.balances dep.config.axlUsdcDenom - prev dep.config.axlUsdcDenom =
      axlUsdc := by
    simp [hbalances, hpair]
  rw [hntrn, haxlUsdc] at hrun
  obtain ⟨swapped, hswap, hrun⟩ := foldlM_cons_ok.mp hrun
  obtain ⟨paid, hpaid, hswap⟩ := dispatch_swap hswap
  exact ⟨m, paid, swapped, foldlM_singleton_ok.mp hpaid, hswap, foldlM_singleton_ok.mp hrun⟩

end Convert

theorem execCall_convert_ok {sender : Addr} {amount ntrn axlUsdc : Nat}
    {hook : Option ConvertAndStake} {swap provide : List Call}
    (hpair : dep.config.axlUsdcDenom ≠ ntrnDenom)
    (h : execCall dep (.convert sender amount hook ntrn axlUsdc swap provide) w = .ok w') :
    ∃ hook w₁ w₂ w₃ w₄ msg funds, Converts dep (execCalls dep swap) (execCalls dep provide)
      sender amount ntrn axlUsdc hook w w₁ w₂ w₃ w₄ w' msg funds := by
  unfold execCall at h
  simp only [execute, receiveCw20, executeConvertAndStake, World.querier, if_true, bind_eq_ok,
    rejectIf_eq_ok, exists_const, okOr_eq_ok, Except.ok.injEq] at h
  obtain ⟨_, ⟨_, rfl, -, hook, -, _, rfl, _, rfl, rfl⟩, hrun⟩ := h
  obtain ⟨w₁, hwithdraw, hrun⟩ := foldlM_cons_ok.mp hrun
  obtain ⟨-, hw₁⟩ := withdraw_ok (dispatch_withdraw hwithdraw)
  have hbalances : w₁.balances = fun d => w.balances d + (if d = ntrnDenom then ntrn else 0) +
      if d = dep.config.axlUsdcDenom then axlUsdc else 0 := by rw [hw₁]
  obtain ⟨_, w₂, w₃, hpay, hswap, hstake⟩ :=
    swaps_ok hpair hbalances (foldlM_singleton_ok.mp hrun)
  obtain ⟨msg, funds, w₄, hprovides, hpaid, hprovide⟩ := stakes_ok hstake
  refine ⟨hook, w₁, w₂, w₃, w₄, msg, funds, ?_, hpay, hswap, hprovides, hpaid, hprovide⟩
  rw [hw₁]
  simp

/-- A conversion takes away what it brought. -/
theorem Converts.kept {swap provide : World → Except StdError World} {sender : Addr}
    {amount ntrn axlUsdc : Nat} {hook : ConvertAndStake} {w w₁ w₂ w₃ w₄ w' : World}
    {msg : ProvideLiquidity} {funds : List Coin}
    (h : Converts dep swap provide sender amount ntrn axlUsdc hook w w₁ w₂ w₃ w₄ w' msg funds)
    (hswap : ∀ w w', swap w = .ok w' → Kept dep.config w w')
    (hprovide : ∀ w w', provide w = .ok w' → Kept dep.config w w') : Kept dep.config w w' := by
  have hw₁ := h.withdraws
  obtain ⟨-, hw₂⟩ := pay_ok h.paysSwap
  have hinSwap := hswap _ _ h.swapped
  have hinProvide := hprovide _ _ h.provided
  have hprovides := h.provides
  have hpaid := h.paysProvide
  obtain rfl := hprovides.funds_eq
  obtain ⟨u, hntrn, hpaid⟩ := foldlM_cons_ok.mp hpaid
  obtain ⟨hntrn_le, rfl⟩ := pay_ok hntrn
  obtain ⟨hgain_le, hw₄⟩ := pay_ok (foldlM_singleton_ok.mp hpaid)
  simp only [World.note] at hw₂ hntrn_le hgain_le hw₄
  constructor
  · intro d
    have hfirst := hinSwap.balances d
    have hlast := hinProvide.balances d
    have hgained := hprovides.gained
    rw [hw₄] at hlast
    rw [hw₂] at hfirst
    rw [hw₁] at hfirst hgained hlast
    dsimp only at hfirst hlast hgained
    -- the denominations of a conversion may coincide, apart from those of the pair
    by_cases hd : d = hook.nobleUsdcDenom
    · subst hd
      simp only [if_true] at hlast
      split_ifs at hfirst hlast hgained <;> omega
    · simp only [if_neg hd] at hlast
      split_ifs at hfirst hlast <;> omega
  · have hfirst := hinSwap.lp
    have hlast := hinProvide.lp
    rw [hw₄] at hlast
    rw [hw₂, hw₁] at hfirst
    exact hfirst.trans hlast
  · obtain ⟨inSwap, hlogSwap, hconvSwap⟩ := hinSwap.log
    obtain ⟨inProvide, hlogProvide, hconvProvide⟩ := hinProvide.log
    refine ⟨_, ?_, @Conversions.cons dep.config sender hook.transmuterPool hook.noblePool amount
      ntrn axlUsdc _ _ _ msg _ inSwap inProvide [] hprovides hconvSwap hconvProvide .nil⟩
    rw [hlogProvide, hw₄]
    simp only [hlogSwap, hw₂, hw₁]
    simp

/-! ### Transactions -/

mutual
/-- One call, by its structure: the pools of a conversion run calls that are parts of it. -/
theorem execCall_kept (hpair : dep.config.axlUsdcDenom ≠ ntrnDenom) :
    ∀ {call : Call} {w w' : World}, execCall dep call w = .ok w' → Kept dep.config w w'
  | .send coin, w, _, h => by
      simp only [execCall, Except.ok.injEq] at h
      subst h
      exact Kept.credit w coin
  | .transferLp amount, w, _, h => by
      simp only [execCall, Except.ok.injEq] at h
      subst h
      exact ⟨fun _ => le_refl _, Nat.le_add_right _ _, [], by simp, Conversions.nil⟩
  | .execute info msg, w, _, h => by
      simp only [execCall, bind_eq_ok, rejectIf_eq_ok, exists_const, not_or] at h
      obtain ⟨⟨hcontract, hsender⟩, msgs, hmsgs, -⟩ := h
      have htoken : ((info.funds.foldl World.credit w).querier dep).liquidityToken
          dep.config.axlPool = .ok dep.lpToken := if_pos rfl
      exact absurd hmsgs (execute_rejected hcontract htoken hsender)
  | .convert sender amount hook ntrn axlUsdc swap provide, w, _, h => by
      obtain ⟨_, _, _, _, _, _, _, hconverts⟩ := execCall_convert_ok hpair h
      exact hconverts.kept (fun _ _ => execCalls_kept hpair) (fun _ _ => execCalls_kept hpair)
  | .attempt calls, w, _, h => by
      simp only [execCall] at h
      split at h
      · rename_i w' hcalls
        obtain rfl := Except.ok.inj h
        exact execCalls_kept hpair hcalls
      · -- what failed is undone
        obtain rfl := Except.ok.inj h
        exact Kept.refl _
theorem execCalls_kept (hpair : dep.config.axlUsdcDenom ≠ ntrnDenom) :
    ∀ {calls : List Call} {w w' : World}, execCalls dep calls w = .ok w' → Kept dep.config w w'
  | [], _, _, h => by
      simp only [execCalls, Except.ok.injEq] at h
      subst h
      exact Kept.refl _
  | call :: calls, _, _, h => by
      simp only [execCalls, bind_eq_ok] at h
      obtain ⟨_, hcall, hcalls⟩ := h
      exact (execCall_kept hpair hcall).trans (execCalls_kept hpair hcalls)
end

/-- Whatever is done to the converter in a transaction that succeeds, with any conversions
nested in the calls of the pools: it has at least as much of every token as before, and every
provision of liquidity is for the one who sent the LP tokens, and carries the NTRN that was
withdrawn and the USDC that was gained in its conversion. -/
theorem keeps_funds (hpair : dep.config.axlUsdcDenom ≠ ntrnDenom) {calls : List Call}
    (h : execCalls dep calls w = .ok w') :
    (∀ denom, w.balances denom ≤ w'.balances denom) ∧ w.lp ≤ w'.lp ∧
      ∃ log, w'.log = w.log ++ log ∧ Conversions dep.config log := by
  have hkept := execCalls_kept hpair h
  exact ⟨hkept.balances, hkept.lp, hkept.log⟩

/-! ### A nested conversion -/

/-- The converter of the small chain. -/
def sampleDeployment : Deployment where
  config := ⟨"axl_pool", "axl_usdc"⟩
  contract := "converter"
  lpToken := "axl_lp"

/-- The converter holds coins of somebody else. -/
def sampleWorld : World where
  balances denom := if denom = "untrn" then 100 else if denom = "axl_usdc" then 50 else 7
  lp := 3
  log := []

/-- Mallory's transmuter pool starts a conversion of Bob's LP tokens while it is called, with
the noble USDC taken to be NTRN, and returns 40. -/
def sampleCalls : List Call :=
  [.convert "mallory" 10 (some ⟨"evil", "noble_pool", "usdc", FixedPoint.zero⟩) 20 30
    [.convert "bob" 5 (some ⟨"transmuter", "noble_pool", "untrn", FixedPoint.zero⟩) 6 8
      [.send ⟨"untrn", 9⟩] [],
    .attempt [.execute ⟨"evil", []⟩ (.callback (.stakeCallback 0 100 FixedPoint.zero "evil" "evil"
      "untrn"))],
    .send ⟨"usdc", 40⟩] []]

theorem keeps_funds_sample :
    ∃ w', execCalls sampleDeployment sampleCalls sampleWorld = .ok w' ∧
      (∀ denom, sampleWorld.balances denom ≤ w'.balances denom) ∧ w'.log.length = 8 := by
  have hlength : (execCalls sampleDeployment sampleCalls sampleWorld).map (·.log.length) =
      .ok 8 := by
    decide +kernel
  obtain ⟨w', hw', hlog⟩ := map_eq_ok.mp hlength
  obtain ⟨hbalances, -, -⟩ := keeps_funds (by decide) hw'
  exact ⟨w', hw', hbalances, hlog⟩

end NeutronTge.UsdcConverter
