import NeutronTge.Credits.Backing
import NeutronTge.Lockdrop.Rewards

/-!
# NeutronTge.Composed.Airdrop

The airdrop as the lockdrop and the credits contract pay it together. A user withdraws what
his allocation has vested, and once the lockdrop burns for him what he could withdraw at that
time and at most his lockdrop reward of the rest. The burn is not booked in the allocation, so
what it paid of the vested part can be withdrawn a second time, from what is not vested yet.
-/

namespace NeutronTge.Airdrop

open CosmWasm Credits

variable {cw20 : Cw20Base} {q : Lockdrop.Querier} {lockdrop u : Addr} {w w' : Credits.World}

/-- What the lockdrop reads from the credits contract. -/
def creditsQuerier (q : Lockdrop.Querier) (w : Credits.World) : Lockdrop.Querier :=
  { q with
    creditsBalance := fun _ addr => .ok (w.storage.token.balanceOf addr)
    withdrawableAmount := fun _ addr => queryWithdrawableAmount w.storage w.env addr
    vestedAmount := fun _ addr => queryVestedAmount w.storage w.env addr }

section Exec

variable (cw20 : Cw20Base) (q : Lockdrop.Querier) (lockdrop : Addr)

/-- The lockdrop builds its message for a user with a reward, and the credits contract executes
it. -/
def claim (w : Credits.World) (userAddr : Addr) (ntrnLockdropRewards : Nat) :
    Except ContractError Credits.World := do
  let msg ← (Lockdrop.claimAirdropTokensWithMultiplierMsg (creditsQuerier q w) w.env.contract
    userAddr ntrnLockdropRewards).mapError .std
  match msg with
  | .burnFrom _ owner amount => w.execute cw20 ⟨lockdrop, []⟩ (.burnFrom owner amount)
  | _ => .error (.std .aborted)

/-- What happens in a run. -/
inductive Action
  | credits (action : Credits.Action)
  /-- The lockdrop claims the airdrop of a user. -/
  | claim (userAddr : Addr) (ntrnLockdropRewards : Nat)

/-- One action of a run. -/
def exec (w : Credits.World) : Action → Except ContractError Credits.World
  | .credits action => w.exec cw20 action
  | .claim userAddr ntrnLockdropRewards => claim cw20 q lockdrop w userAddr ntrnLockdropRewards

end Exec

/-! ### The account of a user -/

/-- What a user has of his allocation: it was withdrawn, burned by the lockdrop, or is still
his balance. `base` is what he was paid before. -/
structure Accounted (u : Addr) (a : Allocation) (base burned : Nat) (w : Credits.World) :
    Prop where
  split : ∃ withdrawn, w.storage.allocations.mayLoad u =
      some { a with withdrawnAmount := withdrawn } ∧
    withdrawn ≤ a.vested w.env.time ∧ w.paid u = base + withdrawn + burned ∧
    w.storage.token.balanceOf u + withdrawn + burned = a.allocatedAmount

/-- A transaction that leaves a user's cNTRN alone, or lets him withdraw. -/
def Untouched (u : Addr) (w : Credits.World) : Action → Prop
  | .credits (.execute info (.transfer recipient _)) => info.sender ≠ u ∧ recipient ≠ u
  | .credits (.execute info (.burn _)) => info.sender ≠ u
  | .credits (.execute _ (.burnFrom owner _)) => owner ≠ u
  | .credits (.execute _ .mint) => w.storage.config.airdropAddress ≠ some u
  | .claim userAddr _ => userAddr ≠ u
  | _ => True

/-- Burning the cNTRN of somebody else. -/
theorem Accounted.burns_other {a : Allocation} {base burned : Nat}
    (h : Accounted u a base burned w) {payee : Addr} {amount : Nat} (hother : payee ≠ u)
    (hburns : Burns w.storage w'.storage payee amount)
    (hallocations : w'.storage.allocations.mayLoad u = w.storage.allocations.mayLoad u)
    (henv : w'.env = w.env) (htrace : w'.trace = w.trace ++ [⟨payee, amount⟩]) :
    Accounted u a base burned w' := by
  obtain ⟨⟨withdrawn, halloc, hvested, hpaid, hall⟩⟩ := h
  refine ⟨withdrawn, hallocations.trans halloc, henv ▸ hvested, ?_, ?_⟩
  · rw [paid_single htrace, if_neg hother, hpaid, Nat.add_zero]
  · rw [balanceOf_save hburns.balances, if_neg hother.symm, hall]

/-- Nothing happened to the user. -/
theorem Accounted.same {a : Allocation} {base burned : Nat} (h : Accounted u a base burned w)
    (hbalance : w'.storage.token.balanceOf u = w.storage.token.balanceOf u)
    (hallocations : w'.storage.allocations.mayLoad u = w.storage.allocations.mayLoad u)
    (henv : w'.env = w.env) (htrace : w'.trace = w.trace) : Accounted u a base burned w' := by
  obtain ⟨⟨withdrawn, halloc, hvested, hpaid, hall⟩⟩ := h
  refine ⟨withdrawn, hallocations.trans halloc, henv ▸ hvested, ?_, ?_⟩
  · rw [World.paid, htrace, ← hpaid]
    rfl
  · rw [hbalance, hall]

theorem Accounted.credits (hcw20 : cw20.Lawful) {a : Allocation} {base burned : Nat}
    {action : Credits.Action} (haccount : Accounted u a base burned w)
    (huntouched : Untouched u w (.credits action)) (hexec : w.exec cw20 action = .ok w') :
    Accounted u a base burned w' := by
  cases action with
  | advance seconds blocks =>
      obtain rfl := Except.ok.inj hexec
      obtain ⟨⟨withdrawn, halloc, hvested, hrest⟩⟩ := haccount
      exact ⟨withdrawn, halloc,
        hvested.trans (vestedAt_mono _ _ (Nat.le_add_right _ _)), hrest⟩
  | donate amount =>
      obtain rfl := Except.ok.inj hexec
      exact ⟨haccount.split⟩
  | execute info msg =>
      obtain ⟨payments, heffect, henv, htrace, -⟩ := World.execute_ok hcw20 hexec
      cases heffect with
      | configure _ htoken hallocations =>
          exact haccount.same (by rw [htoken]) (by rw [hallocations]) henv (by simp [htrace])
      | addVesting address _ _ _ _ hnew hstorage =>
          refine haccount.same (by rw [hstorage]) ?_ henv (by simp [htrace])
          -- an allocation is made once, and the user has one
          have hother : u ≠ address := by
            rintro rfl
            obtain ⟨⟨_, halloc, -⟩⟩ := haccount
            rw [hnew] at halloc
            cases halloc
          rw [hstorage, Map.mayLoad_save_ne hother]
      | transfer recipient amount token left _ hleft hbalances _ hstorage =>
          obtain ⟨hsender, hrecipient⟩ := huntouched
          refine haccount.same ?_ (by rw [hstorage]) henv (by simp [htrace])
          rw [hstorage]
          unfold Cw20State.balanceOf
          rw [hbalances, Map.mayLoad_save_ne hrecipient.symm, hleft,
            Map.mayLoad_save_ne hsender.symm]
      -- the only way the user's own tokens move here: they are burnt and paid
      | withdraw allocation withdrawable amount hwithdraws =>
          by_cases hu : info.sender = u
          · subst hu
            obtain ⟨⟨withdrawn, halloc, hvested, hpaid, hall⟩⟩ := haccount
            obtain rfl := Option.some.inj (hwithdraws.allocation_eq.symm.trans halloc)
            have hmore := hwithdraws.vested
            have hle := hwithdraws.burns.amount_le
            refine ⟨withdrawn + amount, by rw [hwithdraws.allocations, Map.mayLoad_save], ?_, ?_,
              ?_⟩
            · rw [henv]
              exact hmore
            · rw [paid_single htrace, if_pos rfl, hpaid]
              omega
            · rw [balanceOf_save hwithdraws.burns.balances, if_pos rfl]
              omega
          · refine haccount.burns_other hu hwithdraws.burns ?_ henv htrace
            rw [hwithdraws.allocations, Map.mayLoad_save_ne (Ne.symm hu)]
      | burn _ _ hburns hallocations =>
          exact haccount.burns_other huntouched hburns (by rw [hallocations]) henv htrace
      | burnFrom _ _ _ hburns hallocations =>
          exact haccount.burns_other huntouched hburns (by rw [hallocations]) henv htrace
      | mint recipient amount token _ hairdrop hbalances _ hstorage =>
          have hother : u ≠ recipient := by
            rintro rfl
            exact huntouched hairdrop
          refine haccount.same ?_ (by rw [hstorage]) henv (by simp [htrace])
          rw [hstorage]
          show token.balanceOf u = _
          rw [balanceOf_save hbalances, if_neg hother]

/-! ### The claim of the lockdrop -/

/-- The lockdrop burns what can be withdrawn, and at most the reward of the rest. -/
structure Claims (w w' : Credits.World) (u : Addr) (reward withdrawable amount : Nat) : Prop where
  withdrawable_eq : queryWithdrawableAmount w.storage w.env u = .ok withdrawable
  amount_le : amount ≤ reward + withdrawable
  burns : Burns w.storage w'.storage u amount
  allocations : w'.storage.allocations = w.storage.allocations
  env : w'.env = w.env
  trace : w'.trace = w.trace ++ [⟨u, amount⟩]

theorem claim_ok (hcw20 : cw20.Lawful) {reward : Nat}
    (h : claim cw20 q lockdrop w u reward = .ok w') :
    ∃ withdrawable amount, Claims w w' u reward withdrawable amount := by
  unfold claim at h
  rw [bind_eq_ok] at h
  obtain ⟨msg, hmsg, h⟩ := h
  rw [mapError_eq_ok] at hmsg
  unfold Lockdrop.claimAirdropTokensWithMultiplierMsg at hmsg
  simp only [bind_eq_ok, Uint.checkedAdd_eq_ok, Except.ok.injEq] at hmsg
  obtain ⟨withdrawable, hwithdrawable, vested, -, rewards, hrewards, multiplied, hmultiplied,
    amount, ⟨-, hamount⟩, rfl⟩ := hmsg
  -- the multiplier is one
  have hreward : multiplied.toUintFloor = reward := by
    obtain ⟨-, rfl⟩ := FixedPoint.ofUint_eq_ok.mp hrewards
    obtain ⟨-, rfl⟩ := FixedPoint.checkedMul_eq_ok.mp hmultiplied
    show reward * FixedPoint.fractional * FixedPoint.fractional / FixedPoint.fractional /
      FixedPoint.fractional = reward
    rw [Nat.mul_div_cancel _ FixedPoint.fractional_pos,
      Nat.mul_div_cancel _ FixedPoint.fractional_pos]
  obtain ⟨payments, heffect, henv, htrace, -⟩ := World.execute_ok hcw20 h
  cases heffect with
  | burnFrom _ _ _ hburns hallocations =>
      refine ⟨withdrawable, amount, hwithdrawable, ?_, hburns, hallocations, henv, htrace⟩
      rw [hamount, hreward]
      exact Nat.add_le_add_right (Nat.min_le_right _ _) _

/-- Another user's claim. -/
theorem Accounted.step (hcw20 : cw20.Lawful) {a : Allocation} {base burned : Nat} {action : Action}
    (haccount : Accounted u a base burned w) (huntouched : Untouched u w action)
    (hexec : exec cw20 q lockdrop w action = .ok w') : Accounted u a base burned w' := by
  cases action with
  | credits action => exact haccount.credits hcw20 huntouched hexec
  | claim userAddr reward =>
      obtain ⟨_, _, hclaims⟩ := claim_ok hcw20 hexec
      exact haccount.burns_other huntouched hclaims.burns (by rw [hclaims.allocations])
        hclaims.env hclaims.trace

theorem Accounted.along (hcw20 : cw20.Lawful) {a : Allocation} {base burned : Nat}
    {actions : List Action} (h : Accounted u a base burned w)
    (huntouched : Along (exec cw20 q lockdrop) (Untouched u) w actions) :
    Accounted u a base burned (run (exec cw20 q lockdrop) w actions) :=
  run_invariant_along (Accounted u a base burned)
    (fun _ _ _ ht hP hexec => ht.step hcw20 hP hexec) h huntouched

/-- What can be withdrawn is what was vested and not yet withdrawn, as long as nothing was
burned. -/
theorem Accounted.withdrawable {a : Allocation} {base withdrawable : Nat}
    (h : Accounted u a base 0 w)
    (hquery : queryWithdrawableAmount w.storage w.env u = .ok withdrawable) :
    w.paid u + withdrawable = base + a.vested w.env.time := by
  obtain ⟨⟨withdrawn, halloc, hvested, hpaid, hall⟩⟩ := h
  unfold queryWithdrawableAmount at hquery
  simp only [bind_eq_ok, Map.load_eq_ok, okOr_eq_ok, Except.ok.injEq] at hquery
  obtain ⟨alloc, halloc', offered, hoffered, balance, hbalance, rfl⟩ := hquery
  obtain rfl := Option.some.inj (halloc.symm.trans halloc')
  have hsum := computeWithdrawableAmount_ok hoffered
  change withdrawn + offered = a.vested w.env.time at hsum
  have hwhole : a.vested w.env.time ≤ a.allocatedAmount := vestedAt_le _ _ _
  rw [Cw20State.balanceOf, hbalance, Option.getD_some] at hall
  omega

/-- A claim burns from the account of the user. -/
theorem Accounted.claims {a : Allocation} {base reward withdrawable amount : Nat}
    (h : Accounted u a base 0 w) (hclaims : Claims w w' u reward withdrawable amount) :
    Accounted u a base amount w' := by
  obtain ⟨⟨withdrawn, halloc, hvested, hpaid, hall⟩⟩ := h
  have hle := hclaims.burns.amount_le
  refine ⟨withdrawn, by rw [hclaims.allocations, halloc], hclaims.env ▸ hvested, ?_, ?_⟩
  · rw [paid_single hclaims.trace, if_pos rfl, hpaid, Nat.add_zero]
  · rw [balanceOf_save hclaims.burns.balances, if_pos rfl]
    omega

theorem Accounted.bounds {a : Allocation} {base burned : Nat} (h : Accounted u a base burned w) :
    w.paid u ≤ base + a.vested w.env.time + burned ∧ w.paid u ≤ base + a.allocatedAmount := by
  obtain ⟨⟨withdrawn, -, hvested, hpaid, hall⟩⟩ := h
  omega

/-- What a user is paid around the one claim of the lockdrop: before the claim what has vested,
right after it at most the reward more, and from then on also what could be withdrawn at the
claim once more. -/
theorem paid_around_claim (hcw20 : cw20.Lawful) {w₀ w₁ w₂ w₃ : Credits.World} {a : Allocation}
    {reward : Nat} {before after : List Action}
    (ha : w₀.storage.allocations.mayLoad u = some a) (hzero : a.withdrawnAmount = 0)
    (hbalance : w₀.storage.token.balanceOf u = a.allocatedAmount)
    (hbefore : Along (exec cw20 q lockdrop) (Untouched u) w₀ before)
    (h₁ : run (exec cw20 q lockdrop) w₀ before = w₁)
    (h₂ : run (exec cw20 q lockdrop) w₁ [.claim u reward] = w₂)
    (hafter : Along (exec cw20 q lockdrop) (Untouched u) w₂ after)
    (h₃ : run (exec cw20 q lockdrop) w₂ after = w₃) :
    w₁.paid u ≤ w₀.paid u + a.vested w₁.env.time ∧
      w₂.paid u ≤ w₀.paid u + a.vested w₂.env.time + reward ∧
      w₃.paid u ≤ w₀.paid u + a.allocatedAmount ∧
      ∀ withdrawable, queryWithdrawableAmount w₁.storage w₁.env u = .ok withdrawable →
        w₃.paid u ≤ w₀.paid u + a.vested w₃.env.time + reward + withdrawable := by
  have hstart : Accounted u a (w₀.paid u) 0 w₀ := by
    refine ⟨0, ?_, Nat.zero_le _, rfl, hbalance⟩
    rw [ha, ← hzero]
  have hopen : Accounted u a (w₀.paid u) 0 w₁ := h₁ ▸ hstart.along hcw20 hbefore
  refine ⟨hopen.bounds.1, ?_⟩
  rw [run_cons, run_nil] at h₂
  rcases commit_cases (exec cw20 q lockdrop) w₁ (.claim u reward) with hok | hsame
  · rw [h₂] at hok
    obtain ⟨withdrawable, amount, hclaims⟩ := claim_ok hcw20 hok
    have hoffer := hopen.withdrawable hclaims.withdrawable_eq
    have hburned : Accounted u a (w₀.paid u) amount w₂ := hopen.claims hclaims
    have hlater : Accounted u a (w₀.paid u) amount w₃ := h₃ ▸ hburned.along hcw20 hafter
    have hamount := hclaims.amount_le
    have hpaid := paid_single hclaims.trace u
    rw [if_pos rfl] at hpaid
    refine ⟨?_, hlater.bounds.2, fun withdrawable' hquery => ?_⟩
    · rw [hclaims.env]
      omega
    · obtain rfl := Except.ok.inj (hclaims.withdrawable_eq.symm.trans hquery)
      have hbound := hlater.bounds.1
      omega
  · -- the claim failed, and nothing was burned
    have hnone : Accounted u a (w₀.paid u) 0 w₂ := by
      rw [← h₂, hsame]
      exact hopen
    have hlater : Accounted u a (w₀.paid u) 0 w₃ := h₃ ▸ hnone.along hcw20 hafter
    refine ⟨hnone.bounds.1.trans (by omega), hlater.bounds.2, fun withdrawable _ => ?_⟩
    exact hlater.bounds.1.trans (by omega)

/-! ### A sample -/

/-- A lockdrop that reads nothing else. -/
def noQuerier : Lockdrop.Querier where
  pendingToken _ _ := .error .notFound
  baseRewardToken _ _ := .error .notFound
  deposit _ _ := .error .notFound
  rawGeneratorDeposit _ _ := .error .notFound
  rewardProxies _ _ := .error .notFound
  rawProxyAsset _ _ := .error .notFound
  tokenBalance _ := .error .notFound
  rawBalance _ := .error .notFound
  minter _ := .error .notFound
  poolAssets _ := .error .notFound
  bankBalance _ := .error .notFound
  queryPool _ := .error .notFound
  creditsBalance _ _ := .error .notFound
  withdrawableAmount _ _ := .error .notFound
  vestedAmount _ _ := .error .notFound

/-- alice has an allocation of 100, of which one half has vested. -/
def sampleHalf : Credits.World :=
  run (World.exec cw20Base) sampleStart (sampleAllocation 10 100 ++ [.advance 60 1])

/-- Alice redeems what has vested. -/
def aliceWithdraws : Action := .credits (.execute ⟨"alice", []⟩ .withdraw)

theorem paid_around_claim_sample :
    (run (exec cw20Base noQuerier "lockdrop")
      (run (exec cw20Base noQuerier "lockdrop") sampleHalf [.claim "alice" 10])
      [aliceWithdraws]).paid "alice" ≤ sampleHalf.paid "alice" + 100 :=
  (@paid_around_claim cw20Base noQuerier "lockdrop" "alice" cw20Base_lawful sampleHalf sampleHalf
    _ _ ⟨100, 0, ⟨10, 0, 100⟩⟩ 10 [] [aliceWithdraws] (by decide +kernel) rfl
    (by decide +kernel) trivial rfl rfl ⟨trivial, trivial⟩ rfl).2.2.1

/-- The lockdrop burns 50 that were vested and a reward of 10, and alice withdraws the 40 that
are left, which are not vested. -/
theorem vested_paid_twice :
    sampleHalf.storage.allocations.mayLoad "alice" = some ⟨100, 0, ⟨10, 0, 100⟩⟩ ∧
      sampleHalf.storage.token.balanceOf "alice" = 100 ∧ sampleHalf.trace = [] ∧
      ∃ w, run (exec cw20Base noQuerier "lockdrop") sampleHalf [.claim "alice" 10,
          aliceWithdraws] = w ∧
        w.paid "alice" = 100 ∧
        (⟨100, 0, ⟨10, 0, 100⟩⟩ : Allocation).vested w.env.time + 10 = 60 := by
  refine ⟨by decide +kernel, by decide +kernel, by decide +kernel, _, rfl, ?_⟩
  decide +kernel

end NeutronTge.Airdrop
