import NeutronTge.Composed.Airdrop
import NeutronTge.Lockdrop.Transactions
import NeutronTge.MerkleAirdrop.Recovery

/-!
# NeutronTge.Composed.RewardClaim

A reward claim at the lockdrop by somebody who holds cNTRN of the airdrop. The lockdrop asks the
credits contract what can be withdrawn, adds his reward, and burns as much of his cNTRN. It
checks that he has some, not that there is something to burn: with nothing vested and no reward
the message carries zero, and the whole claim fails.
-/

namespace NeutronTge.Airdrop

open CosmWasm Credits

variable {cw20 : Cw20Base} {c : MerkleAirdrop.Codec} {u : Addr}

/-! ### Who claimed has an allocation -/

/-- An account has an allocation that can be computed with. -/
def Allocated (u : Addr) (w : Credits.World) : Prop :=
  ∃ a, w.storage.allocations.mayLoad u = some a ∧ a.Fits

/-- An allocation stays, but for what is withdrawn. -/
theorem Allocated.exec (hcw20 : cw20.Lawful) {w w' : Credits.World} {action : Credits.Action}
    (h : Allocated u w) (hexec : w.exec cw20 action = .ok w') : Allocated u w' := by
  obtain ⟨a, ha, hfits⟩ := h
  cases action with
  | advance seconds blocks =>
      obtain rfl := Except.ok.inj hexec
      exact ⟨a, ha, hfits⟩
  | donate amount =>
      obtain rfl := Except.ok.inj hexec
      exact ⟨a, ha, hfits⟩
  | execute info msg =>
      obtain ⟨payments, heffect, -⟩ := World.execute_ok hcw20 hexec
      cases heffect with
      | configure _ _ hallocations => exact ⟨a, by rw [hallocations, ha], hfits⟩
      | addVesting address _ _ _ _ hnew hstorage =>
          have hother : u ≠ address := by
            rintro rfl
            rw [hnew] at ha
            cases ha
          exact ⟨a, by rw [hstorage, Map.mayLoad_save_ne hother, ha], hfits⟩
      | transfer _ _ _ _ _ _ _ _ hstorage => exact ⟨a, by rw [hstorage, ha], hfits⟩
      | withdraw old _ amount hwithdraws =>
          rw [Allocated, hwithdraws.allocations, Map.mayLoad_save_eq]
          split_ifs with hu
          · subst hu
            obtain rfl := Option.some.inj (hwithdraws.allocation_eq.symm.trans ha)
            exact ⟨_, rfl, hfits.amount_lt, hfits.end_lt⟩
          · exact ⟨a, ha, hfits⟩
      | burn _ _ _ hallocations => exact ⟨a, by rw [hallocations, ha], hfits⟩
      | burnFrom _ _ _ _ hallocations => exact ⟨a, by rw [hallocations, ha], hfits⟩
      | mint _ _ _ _ _ _ _ hstorage => exact ⟨a, by rw [hstorage, ha], hfits⟩

/-- A message of the airdrop contract keeps the allocations. -/
theorem Allocated.dispatch (hcw20 : cw20.Lawful) {w w' : MerkleAirdrop.World}
    {msg : MerkleAirdrop.CosmosMsg} (h : Allocated u w.credits)
    (hdispatch : w.dispatch cw20 msg = .ok w') : Allocated u w'.credits := by
  have hcall : ∀ {contractAddr : Addr} {m : Credits.ExecuteMsg} {v : MerkleAirdrop.World},
      w.call cw20 contractAddr m = .ok v → Allocated u v.credits := by
    intro contractAddr m v hv
    obtain ⟨-, credits, hcredits, rfl⟩ := MerkleAirdrop.call_ok hv
    exact h.exec hcw20 hcredits
  cases msg with
  | transfer contractAddr recipient amount =>
      simp only [MerkleAirdrop.World.dispatch, bind_eq_ok, Except.ok.injEq] at hdispatch
      obtain ⟨v, hv, rfl⟩ := hdispatch
      have hkept : Allocated u v.credits := hcall hv
      exact hkept
  | addVesting => exact hcall hdispatch
  | burn => exact hcall hdispatch
  | bankSend toAddress coin =>
      simp only [MerkleAirdrop.World.dispatch, bind_eq_ok, rejectIf_eq_ok, exists_const,
        mapError_eq_ok, Except.ok.injEq] at hdispatch
      obtain ⟨-, rest, -, rfl⟩ := hdispatch
      dsimp only
      split_ifs
      · exact h
      · exact h

/-- Who claimed from the airdrop has an allocation. -/
def ClaimantsAllocated (w : MerkleAirdrop.World) : Prop :=
  ∀ u, w.storage.claim.mayLoad u ≠ none → Allocated u w.credits

theorem ClaimantsAllocated.exec (hcw20 : cw20.Lawful) {w w' : MerkleAirdrop.World}
    {a : MerkleAirdrop.Action} (h : ClaimantsAllocated w) (hexec : w.exec cw20 c a = .ok w') :
    ClaimantsAllocated w' := by
  intro u hu
  cases a with
  | donate amount =>
      obtain rfl := Except.ok.inj hexec
      exact h u hu
  | credits action =>
      simp only [MerkleAirdrop.World.exec, bind_eq_ok, rejectIf_eq_ok, exists_const,
        mapError_eq_ok, Except.ok.injEq] at hexec
      obtain ⟨-, credits, hcredits, rfl⟩ := hexec
      exact (h u hu).exec hcw20 hcredits
  | execute info msg =>
      obtain ⟨-, s, msgs, heffect, hrun⟩ := MerkleAirdrop.execute_ok hexec
      have hstorage : w'.storage = s := MerkleAirdrop.dispatches_storage hrun
      have hkept : w.storage.claim.mayLoad u ≠ none → Allocated u w'.credits := by
        intro hold
        have hstart : Allocated u ({ w with storage := s, untrn := w.untrn + untrnIn info.funds } :
          MerkleAirdrop.World).credits := h u hold
        exact foldlM_invariant (fun v : MerkleAirdrop.World => Allocated u v.credits) hstart
          (fun _ _ _ _ hv hmsg => hv.dispatch hcw20 hmsg) hrun
      rw [hstorage] at hu
      rcases heffect.claims_or_quiet with ⟨amount, proof, rfl, hclaims⟩ | hquiet
      · rw [hclaims.storage, Map.mayLoad_save_eq] at hu
        by_cases hclaimant : u = info.sender
        · -- a claim gives the claimant an allocation of what he claims
          obtain ⟨-, hpays⟩ := MerkleAirdrop.claim_pays hclaims hrun
          obtain ⟨credits, -, hvesting⟩ := hpays.transferred
          obtain ⟨payments, heffect', -⟩ := World.execute_ok hcw20 hvesting
          cases heffect' with
          | addVesting _ _ _ _ _ _ hstorage' =>
              rw [Allocated, hstorage', hclaimant, Map.mayLoad_save]
              refine ⟨_, rfl, ?_, hclaims.opened.fits⟩
              have hsum := hclaims.fits
              show amount < 2 ^ 128
              omega
        · rw [if_neg hclaimant] at hu
          exact hkept hu
      · rw [hquiet.claim] at hu
        exact hkept hu

/-! ### The message -/

section Message

variable {q : Lockdrop.Querier} {lockdrop : Addr} {w : Credits.World} {a : Allocation}
variable {reward : Nat}

/-- What an account can withdraw of its allocation. -/
def withdrawableOf (a : Allocation) (w : Credits.World) (u : Addr) : Nat :=
  min (a.vested w.env.time - a.withdrawnAmount) (w.storage.token.balanceOf u)

/-- What the lockdrop burns for a reward: all that can be withdrawn, and of the rest as much as
the reward. -/
def burnedFor (a : Allocation) (w : Credits.World) (u : Addr) (reward : Nat) : Nat :=
  min (w.storage.token.balanceOf u - withdrawableOf a w u) reward + withdrawableOf a w u

/-- The two queries of the lockdrop. -/
theorem queries_ok (hbacked : FullyBacked w) (ha : w.storage.allocations.mayLoad u = some a)
    (hfits : a.Fits) (hpos : 0 < w.storage.token.balanceOf u) :
    queryWithdrawableAmount w.storage w.env u = .ok (withdrawableOf a w u) ∧
      queryVestedAmount w.storage w.env u =
        .ok (w.storage.token.balanceOf u - withdrawableOf a w u) := by
  have hcomputes := hbacked.computes ha hfits
  generalize hbalance : w.storage.token.balanceOf u = balance at hpos ⊢
  have hload : w.storage.token.balances.mayLoad u = some balance := by
    rw [← hbalance] at hpos ⊢
    exact mayLoad_of_balanceOf_pos hpos
  unfold queryWithdrawableAmount queryVestedAmount withdrawableOf
  rw [hbalance]
  simp only [bind_eq_ok, Map.load_eq_ok, okOr_eq_ok, Uint.sub_eq_ok]
  exact ⟨⟨a, ha, _, hcomputes, balance, hload, rfl⟩,
    ⟨a, ha, _, hcomputes, balance, hload, Nat.min_le_right _ _, rfl⟩⟩

/-- The message can be built when the reward fits a decimal. -/
theorem claimMsg_eq_ok (hbacked : FullyBacked w) (ha : w.storage.allocations.mayLoad u = some a)
    (hfits : a.Fits) (hpos : 0 < w.storage.token.balanceOf u)
    (hsupply : w.storage.token.totalSupply < 2 ^ 128) {contract : Addr}
    {msg : Lockdrop.CosmosMsg} :
    Lockdrop.claimAirdropTokensWithMultiplierMsg (creditsQuerier q w) contract u reward = .ok msg ↔
      reward * FixedPoint.fractional < 2 ^ 128 ∧
        msg = .burnFrom contract u (burnedFor a w u reward) := by
  obtain ⟨hwithdrawable, hvested⟩ := queries_ok hbacked ha hfits hpos
  have hle : withdrawableOf a w u ≤ w.storage.token.balanceOf u := Nat.min_le_right _ _
  have hbalance := balanceOf_le_supply hbacked u
  have hone : (FixedPoint.one : Decimal).atomics = FixedPoint.fractional := rfl
  unfold Lockdrop.claimAirdropTokensWithMultiplierMsg burnedFor
  simp only [bind_eq_ok, creditsQuerier, hwithdrawable, hvested, Except.ok.injEq, exists_eq_left',
    FixedPoint.ofUint_eq_ok, FixedPoint.checkedMul_eq_ok, Uint.checkedAdd_eq_ok]
  constructor
  · rintro ⟨_, ⟨hreward, rfl⟩, _, ⟨-, rfl⟩, _, ⟨-, rfl⟩, rfl⟩
    refine ⟨hreward, ?_⟩
    -- the multiplier is one
    rw [FixedPoint.toUintFloor, hone, Nat.mul_div_cancel _ FixedPoint.fractional_pos,
      Nat.mul_div_cancel _ FixedPoint.fractional_pos]
  · rintro ⟨hreward, rfl⟩
    refine ⟨_, ⟨hreward, rfl⟩, _, ⟨?_, rfl⟩, _, ⟨?_, rfl⟩, ?_⟩
    · rw [hone, Nat.mul_div_cancel _ FixedPoint.fractional_pos]
      exact hreward
    · omega
    · rw [FixedPoint.toUintFloor, hone, Nat.mul_div_cancel _ FixedPoint.fractional_pos,
        Nat.mul_div_cancel _ FixedPoint.fractional_pos]

theorem burnedFor_le (a : Allocation) (w : Credits.World) (u : Addr) (reward : Nat) :
    burnedFor a w u reward ≤ w.storage.token.balanceOf u := by
  have hle : withdrawableOf a w u ≤ w.storage.token.balanceOf u := Nat.min_le_right _ _
  unfold burnedFor
  omega

/-- There is something to burn when something has vested or there is a reward. -/
theorem burnedFor_pos (hpos : 0 < w.storage.token.balanceOf u) :
    0 < burnedFor a w u reward ↔ a.withdrawnAmount < a.vested w.env.time ∨ 0 < reward := by
  unfold burnedFor withdrawableOf
  omega

end Message

/-! ### The claim -/

section Whole

variable {E : Type} (x : Lockdrop.Externals E) (cw20) (lockdrop : Addr)

/-- The contracts around the lockdrop for somebody without cNTRN: nothing is burned. -/
def alone : Lockdrop.Externals E where
  querier e := { x.querier e with creditsBalance := fun _ _ => .ok 0 }
  exec e
    | .burnFrom _ _ _ => .error .aborted
    | msg => x.exec e msg

/-- The contracts around the lockdrop, with the credits contract. -/
def withCredits : Lockdrop.Externals (E × Credits.World) where
  querier e := creditsQuerier (x.querier e.1) e.2
  exec e
    | .burnFrom contractAddr owner amount => do
        rejectIf (contractAddr ≠ e.2.env.contract) .notFound
        let credits ← (e.2.execute cw20 ⟨lockdrop, []⟩ (.burnFrom owner amount)).mapError
          fun _ => .aborted
        .ok (e.1, credits)
    | msg => do
        let ext ← x.exec e.1 msg
        .ok (ext, e.2)

/-- A lockdrop next to a credits contract. -/
def attach (v : Lockdrop.World E) (w : Credits.World) : Lockdrop.World (E × Credits.World) where
  storage := v.storage
  ext := (v.ext, w)
  env := v.env
  trace := v.trace

variable {x cw20 lockdrop} {w : Credits.World} {n k : Nat} {v v' : Lockdrop.World E}

/-- The messages to the other contracts do not concern the credits contract. -/
theorem dispatch_attach {msg : Lockdrop.CosmosMsg} (hmsg : ∀ m, msg ≠ .callback m)
    (h : Lockdrop.dispatch (alone x) n v msg = .ok v') :
    Lockdrop.dispatch (withCredits cw20 x lockdrop) k (attach v w) msg = .ok (attach v' w) := by
  obtain ⟨ext, hexec, rfl⟩ := Lockdrop.dispatch_external hmsg h
  have hattached : (withCredits cw20 x lockdrop).exec (v.ext, w) msg = .ok (ext, w) := by
    cases msg with
    | callback m => exact absurd rfl (hmsg m)
    | burnFrom => cases hexec
    | _ =>
        simp only [alone] at hexec
        simp [withCredits, hexec, bind, Except.bind]
  have hsend := (withCredits cw20 x lockdrop).calls.dispatch_of_none
    (Lockdrop.asCallback_eq_none hmsg) (n := k) (s := attach v w)
  exact hsend.trans (bind_eq_ok.mpr ⟨(ext, w), hattached, rfl⟩)

theorem dispatchAll_attach : ∀ {msgs : List Lockdrop.CosmosMsg} {v v' : Lockdrop.World E},
    Lockdrop.External msgs → msgs.foldlM (Lockdrop.dispatch (alone x) n) v = .ok v' →
    msgs.foldlM (Lockdrop.dispatch (withCredits cw20 x lockdrop) k) (attach v w) =
      .ok (attach v' w) := by
  intro msgs
  induction msgs with
  | nil =>
      intro v v' _ h
      obtain rfl := Except.ok.inj h
      rfl
  | cons msg msgs ih =>
      intro v v' hext h
      obtain ⟨v₁, hmsg, hrest⟩ := foldlM_cons_ok.mp h
      exact foldlM_cons_ok.mpr ⟨attach v₁ w, dispatch_attach (hext msg List.mem_cons_self) hmsg,
        ih (fun m hm => hext m (List.mem_cons_of_mem _ hm)) hrest⟩

/-- Booking rewards does not ask the credits contract. -/
theorem dispatch_books_attach {poolType : Lockdrop.PoolType} {prev : Nat}
    {prevProxy : List Astroport.Asset}
    (h : Lockdrop.dispatch (alone x) (n + 1) v
      (.callback (.updatePoolOnDualRewardsClaim poolType prev prevProxy)) = .ok v') :
    Lockdrop.dispatch (withCredits cw20 x lockdrop) (n + 1) (attach v w)
      (.callback (.updatePoolOnDualRewardsClaim poolType prev prevProxy)) = .ok (attach v' w) := by
  obtain ⟨m, r, hr, hmsgs⟩ := Lockdrop.dispatch_callback h
  have hnil : r.messages = [] := (Lockdrop.updatePoolOnDualRewardsClaim_ok hr).1
  rw [hnil] at hmsgs
  obtain rfl := Except.ok.inj hmsgs
  have hr' : Lockdrop.handleCallback ((withCredits cw20 x lockdrop).querier (attach v w).ext)
      (attach v w).storage (attach v w).env
      (.updatePoolOnDualRewardsClaim poolType prev prevProxy) = .ok r := hr
  refine (Calls.dispatch_of_handle _ rfl hr').trans ?_
  show r.messages.foldlM _ _ = _
  rw [hnil]
  rfl

/-- The reward callback asks the credits contract once, for the airdrop of a user who did not
get it before, and adds the message to burn it. -/
theorem callback_attach {q : Lockdrop.Querier} {s : Lockdrop.Storage} {env : Env}
    {key : Lockdrop.LockupKey} {withdraw : Bool} {r : Lockdrop.Response}
    {msg : Lockdrop.CosmosMsg}
    (h : Lockdrop.callbackWithdrawUserRewards
      { q with creditsBalance := fun _ _ => .ok 0 } s env key withdraw = .ok r)
    (hmsg : 0 < w.storage.token.balanceOf key.user →
      Lockdrop.claimAirdropTokensWithMultiplierMsg (creditsQuerier q w) s.config.creditsContract
        key.user (s.user key.user).totalNtrnRewards = .ok msg) :
    ∃ burns, (burns = [] ∨ 0 < w.storage.token.balanceOf key.user ∧ burns = [msg]) ∧
      Lockdrop.callbackWithdrawUserRewards (creditsQuerier q w) s env key withdraw =
        .ok { r with messages := r.messages ++ burns } := by
  unfold Lockdrop.callbackWithdrawUserRewards at h ⊢
  simp only [bind_eq_ok, Except.ok.injEq] at h ⊢
  obtain ⟨pool, hpool, lockup, hlockup, generator, hgenerator, share, hshare,
    ⟨lockup', rewardMsgs⟩, hrewards, ⟨t, exitMsgs⟩, hexits, ⟨t', ntrnMsgs⟩, hntrn, rfl⟩ := h
  have hconfig : t.config = s.config := by
    have hstored := Lockdrop.storeOrClose_ok hexits
    cases hstored with
    | stored => rfl
    | closed _ hcloses => exact hcloses.config
  -- everything before the airdrop is computed without the credits contract
  have hpays : ∃ burns, (burns = [] ∨ 0 < w.storage.token.balanceOf key.user ∧ burns = [msg]) ∧
      Lockdrop.payNtrnRewards (creditsQuerier q w) t key.user (s.user key.user) =
        .ok (t', ntrnMsgs ++ burns) := by
    change Lockdrop.payNtrnRewards _ t key.user (s.user key.user) = .ok (t', ntrnMsgs) at hntrn
    unfold Lockdrop.payNtrnRewards Lockdrop.airdropMsgs at hntrn ⊢
    split_ifs at hntrn ⊢ with htransferred
    · obtain ⟨rfl, rfl⟩ := Prod.mk.inj (Except.ok.inj hntrn)
      exact ⟨[], Or.inl rfl, rfl⟩
    · simp only [bind_eq_ok, Except.ok.injEq, exists_eq_left', Nat.lt_irrefl, if_false,
        Prod.mk.injEq] at hntrn ⊢
      obtain ⟨rfl, rfl⟩ := hntrn
      rw [hconfig]
      by_cases hpos : 0 < w.storage.token.balanceOf key.user
      · refine ⟨[msg], Or.inr ⟨hpos, rfl⟩, [msg], ⟨_, rfl, ?_⟩, rfl, ?_⟩
        · rw [if_pos hpos]
          simp only [bind_eq_ok, Except.ok.injEq]
          exact ⟨msg, hmsg hpos, rfl⟩
        · simp
      · refine ⟨[], Or.inl rfl, [], ⟨_, rfl, ?_⟩, rfl, ?_⟩
        · rw [if_neg hpos]
        · simp
  obtain ⟨burns, hburns, hpays⟩ := hpays
  refine ⟨burns, hburns, pool, hpool, lockup, hlockup, generator, hgenerator, share, hshare,
    (lockup', rewardMsgs), hrewards, (t, exitMsgs), hexits, (t', ntrnMsgs ++ burns), hpays, ?_⟩
  simp

/-- The reward the claim handler finds for its user. -/
theorem total_eq {q : Lockdrop.Querier} {s t t' : Lockdrop.Storage} {user : Addr}
    {userInfo : Lockdrop.UserInfo} {total reward : Nat}
    (hfinds : Lockdrop.FindsTotal q s user userInfo total t)
    (hreward : Lockdrop.userNtrnRewards q s user userInfo = .ok (reward, t')) :
    total = reward := by
  unfold Lockdrop.userNtrnRewards at hreward
  cases hfinds with
  | computed total t hzero hcomputed =>
      rw [if_pos hzero, hcomputed] at hreward
      exact (Prod.mk.inj (Except.ok.inj hreward)).1
  | stored hne =>
      rw [if_neg hne] at hreward
      exact (Prod.mk.inj (Except.ok.inj hreward)).1

/-- A claim that goes through for somebody without cNTRN goes through with it, when the credits
contract executes the message that burns it. -/
theorem claim_attach {info : MessageInfo} {poolType : Lockdrop.PoolType} {duration : Nat}
    {withdraw : Bool} {userInfo : Lockdrop.UserInfo} {t : Lockdrop.Storage} {reward amount : Nat}
    {q : Lockdrop.Querier} {w' : Credits.World}
    (huser : v.storage.userInfo.mayLoad info.sender = some userInfo)
    (hreward : Lockdrop.userNtrnRewards ((alone x).querier v.ext) v.storage info.sender userInfo =
      .ok (reward, t))
    (hwired : v.storage.config.creditsContract = w.env.contract)
    (hmsg : Lockdrop.claimAirdropTokensWithMultiplierMsg (creditsQuerier q w) w.env.contract
      info.sender reward = .ok (.burnFrom w.env.contract info.sender amount))
    (hburn : w.execute cw20 ⟨lockdrop, []⟩ (.burnFrom info.sender amount) = .ok w')
    (h : v.execute (alone x) info
      (.claimRewardsAndOptionallyUnlock poolType duration withdraw) = .ok v') :
    ∃ v'', (attach v w).execute (withCredits cw20 x lockdrop) info
      (.claimRewardsAndOptionallyUnlock poolType duration withdraw) = .ok v'' := by
  obtain ⟨r, hr, hrun, hsender⟩ := Lockdrop.execute_ok h
  obtain ⟨-, userInfo', total, t', st, collect, hclaim⟩ :=
    Lockdrop.handleClaimRewardsAndUnlockForLockup_ok hr
  obtain rfl := Option.some.inj (huser.symm.trans hclaim.user_eq)
  obtain rfl := total_eq hclaim.finds hreward
  rw [hclaim.messages] at hrun
  obtain ⟨v₁, hcollect, hpay⟩ := foldlM_append_ok.mp hrun
  obtain ⟨-, -, husers, hconfig, -⟩ := (Lockdrop.collects_ok hclaim.collect_eq hcollect).frame
  -- the rewards of the pool are collected as before
  have hcollected : collect.foldlM (Lockdrop.dispatch (withCredits cw20 x lockdrop)
      Lockdrop.callDepth) (attach (v.respond r) w) = .ok (attach v₁ w) := by
    rcases hclaim.collect_eq with rfl | ⟨generator, lpToken, prev, prevProxy, rfl⟩
    · obtain rfl := Except.ok.inj hcollect
      rfl
    · obtain ⟨v₀, hfirst, hbooks⟩ := foldlM_cons_ok.mp hcollect
      exact foldlM_cons_ok.mpr ⟨attach v₀ w, dispatch_attach (fun _ => nofun) hfirst,
        foldlM_singleton_ok.mpr (dispatch_books_attach (foldlM_singleton_ok.mp hbooks))⟩
  have hpay := foldlM_singleton_ok.mp hpay
  obtain ⟨m, r₂, hr₂, hmsgs⟩ := Lockdrop.dispatch_callback hpay
  have htotal : (v₁.storage.user info.sender).totalNtrnRewards = total := by
    unfold Lockdrop.Storage.user
    rw [husers]
    show ((r.storage.userInfo.mayLoad info.sender).getD _).totalNtrnRewards = total
    rw [hclaim.storage, Map.mayLoad_save, Option.getD_some]
  have hcontract : v₁.storage.config.creditsContract = w.env.contract := by
    rw [hconfig]
    show r.storage.config.creditsContract = _
    rw [hclaim.sameBooks.config, hwired]
  obtain ⟨burns, hburns, hcallback⟩ := @callback_attach w (x.querier v₁.ext) v₁.storage v₁.env
    ⟨poolType, info.sender, duration⟩ withdraw r₂ (.burnFrom w.env.contract info.sender amount) hr₂
    (by
      intro _
      rw [htotal, hcontract]
      exact hmsg)
  have hexternal : Lockdrop.External r₂.messages := by
    obtain ⟨-, _, _, _, _, _, _, _, _, _, hpays⟩ := Lockdrop.callbackWithdrawUserRewards_ok hr₂
    exact hpays.external
  have hpaid := @dispatchAll_attach cw20 E x lockdrop w m 3 r₂.messages (v₁.respond r₂) v' hexternal
    hmsgs
  -- and the credits contract burns at the end
  have hburned : ∃ v'', burns.foldlM (Lockdrop.dispatch (withCredits cw20 x lockdrop) 3)
      (attach v' w) = .ok v'' := by
    rcases hburns with rfl | ⟨-, rfl⟩
    · exact ⟨_, rfl⟩
    · have hlast : ∃ v'', Lockdrop.dispatch (withCredits cw20 x lockdrop) 3 (attach v' w)
          (.burnFrom w.env.contract info.sender amount) = .ok v'' := by
        have hexec : (withCredits cw20 x lockdrop).exec (v'.ext, w)
            (.burnFrom w.env.contract info.sender amount) = .ok (v'.ext, w') := by
          simp only [withCredits, bind_eq_ok, rejectIf_eq_ok, exists_const, not_not,
            mapError_eq_ok, Except.ok.injEq]
          exact ⟨trivial, w', hburn, rfl⟩
        exact ⟨_, bind_eq_ok.mpr ⟨(v'.ext, w'), hexec, rfl⟩⟩
      obtain ⟨v'', hlast⟩ := hlast
      exact ⟨v'', foldlM_singleton_ok.mpr hlast⟩
  obtain ⟨v'', hburned⟩ := hburned
  refine ⟨v'', ?_⟩
  unfold Lockdrop.World.execute
  simp only [bind_eq_ok, rejectIf_eq_ok, exists_const]
  refine ⟨hsender, r, hr, ?_⟩
  rw [hclaim.messages]
  refine foldlM_append_ok.mpr ⟨attach v₁ w, hcollected, foldlM_singleton_ok.mpr ?_⟩
  have hhandled : Lockdrop.handleCallback ((withCredits cw20 x lockdrop).querier (attach v₁ w).ext)
      (attach v₁ w).storage (attach v₁ w).env
      (.withdrawUserLockupRewardsCallback poolType info.sender duration withdraw) =
        .ok { r₂ with messages := r₂.messages ++ burns } := hcallback
  refine (Calls.dispatch_of_handle _ rfl hhandled).trans ?_
  exact foldlM_append_ok.mpr ⟨attach v' w, hpaid, hburned⟩

end Whole

/-! ### When a claim goes through -/

/-- The credits contract does not stand in the way of a claim with this reward. -/
structure GoesThrough (cw20 : Cw20Base) (q : Lockdrop.Querier) (lockdrop : Addr)
    (w : Credits.World) (u : Addr) (reward : Nat) : Prop where
  /-- The message burns something that the user has, and the credits contract executes it. -/
  burned : ∃ amount w', Lockdrop.claimAirdropTokensWithMultiplierMsg (creditsQuerier q w)
      w.env.contract u reward = .ok (.burnFrom w.env.contract u amount) ∧
    0 < amount ∧ amount ≤ w.storage.token.balanceOf u ∧
    w.execute cw20 ⟨lockdrop, []⟩ (.burnFrom u amount) = .ok w' ∧
    w'.trace = w.trace ++ [⟨u, amount⟩]
  /-- A claim with this reward that goes through without cNTRN goes through with it. -/
  whole : ∀ {E : Type} {x : Lockdrop.Externals E} {v v' : Lockdrop.World E} {info : MessageInfo}
    {poolType : Lockdrop.PoolType} {duration : Nat} {withdraw : Bool}
    {userInfo : Lockdrop.UserInfo} {t : Lockdrop.Storage}, info.sender = u →
    v.storage.userInfo.mayLoad u = some userInfo →
    Lockdrop.userNtrnRewards ((alone x).querier v.ext) v.storage u userInfo = .ok (reward, t) →
    v.storage.config.creditsContract = w.env.contract →
    v.execute (alone x) info (.claimRewardsAndOptionallyUnlock poolType duration withdraw) =
      .ok v' →
    ∃ v'', (attach v w).execute (withCredits cw20 x lockdrop) info
      (.claimRewardsAndOptionallyUnlock poolType duration withdraw) = .ok v''

section GoesThrough

variable {q : Lockdrop.Querier} {lockdrop : Addr}

theorem goesThrough_iff (hcw20 : cw20.Lawful) (hburnable : cw20.Burnable) {w : Credits.World}
    {a : Allocation} {reward : Nat} (hbacked : FullyBacked w)
    (ha : w.storage.allocations.mayLoad u = some a) (hfits : a.Fits)
    (hpos : 0 < w.storage.token.balanceOf u) (hsupply : w.storage.token.totalSupply < 2 ^ 128)
    (hlockdrop : w.storage.config.lockdropAddress = some lockdrop)
    (hother : lockdrop ≠ w.env.contract) :
    GoesThrough cw20 q lockdrop w u reward ↔
      (a.withdrawnAmount < a.vested w.env.time ∨ 0 < reward) ∧
        reward * FixedPoint.fractional < 2 ^ 128 := by
  have hmsg : ∀ {msg}, _ ↔ _ := fun {msg} =>
    @claimMsg_eq_ok u q w a reward hbacked ha hfits hpos hsupply w.env.contract msg
  constructor
  · rintro ⟨⟨amount, w', hbuilt, hamount, -⟩, -⟩
    obtain ⟨hreward, hsame⟩ := hmsg.mp hbuilt
    obtain rfl := (Lockdrop.CosmosMsg.burnFrom.inj hsame).2.2
    exact ⟨(burnedFor_pos hpos).mp hamount, hreward⟩
  · rintro ⟨hsome, hreward⟩
    have hbuilt := hmsg.mpr ⟨hreward, rfl⟩
    have hamount : 0 < burnedFor a w u reward := (burnedFor_pos hpos).mpr hsome
    have hle := burnedFor_le a w u reward
    obtain ⟨w', hexec⟩ := @exec_burnFrom_isOk cw20 w hburnable hbacked ⟨lockdrop, []⟩ u _ hamount
      hle hother hlockdrop
    refine ⟨⟨_, w', hbuilt, hamount, hle, hexec, ?_⟩, ?_⟩
    · obtain ⟨payments, heffect, -, htrace, -⟩ := World.execute_ok hcw20 hexec
      cases heffect with
      | burnFrom => exact htrace
    · rintro E x v v' info poolType duration withdraw userInfo t rfl huser htotal hwired hclaim
      exact claim_attach huser htotal hwired hbuilt hexec hclaim

/-- A claim of somebody who claimed cNTRN from the airdrop and has some left, in any state the
airdrop and the credits contract reach: it goes through exactly when something has vested that
was not withdrawn, or there is a reward, and the reward fits a decimal. -/
theorem claim_goes_through_iff (hcw20 : cw20.Lawful) (hburnable : cw20.Burnable)
    {w₀ w : MerkleAirdrop.World} {as : List MerkleAirdrop.Action}
    (hstarted : MerkleAirdrop.Started c w₀)
    (hrun : run (MerkleAirdrop.World.exec cw20 c) w₀ as = w)
    (hclaimed : w.storage.claim.mayLoad u ≠ none)
    (hpos : 0 < w.credits.storage.token.balanceOf u)
    (hsupply : w.credits.storage.token.totalSupply < 2 ^ 128)
    (hlockdrop : w.credits.storage.config.lockdropAddress = some lockdrop)
    (hother : lockdrop ≠ w.credits.env.contract) :
    ∃ a, w.credits.storage.allocations.mayLoad u = some a ∧ ∀ reward,
      (GoesThrough cw20 q lockdrop w.credits u reward ↔
        (a.withdrawnAmount < a.vested w.credits.env.time ∨ 0 < reward) ∧
          reward * FixedPoint.fractional < 2 ^ 128) := by
  have hrooted : MerkleAirdrop.Rooted w := hrun ▸ (MerkleAirdrop.Rooted.start hstarted).run hcw20 as
  have hallocated : ClaimantsAllocated w := by
    rw [← hrun]
    refine run_invariant ClaimantsAllocated (fun _ _ _ h hexec => h.exec hcw20 hexec) ?_
    intro u hu
    obtain ⟨info, msg, hinit, -⟩ := hstarted.storage
    rw [MerkleAirdrop.instantiate_ok hinit] at hu
    exact absurd rfl hu
  obtain ⟨a, ha, hfits⟩ := hallocated u hclaimed
  exact ⟨a, ha, fun reward =>
    goesThrough_iff hcw20 hburnable hrooted.backed ha hfits hpos hsupply hlockdrop hother⟩

/-- The airdrop right after a claim. -/
def claimedState : MerkleAirdrop.World :=
  run (MerkleAirdrop.World.exec cw20Base MerkleAirdrop.codec) MerkleAirdrop.sampleStart
    (MerkleAirdrop.sampleFunding ++ [.credits (.advance 20 1), MerkleAirdrop.sampleClaim])

/-- What the credits contract knows by then, in one evaluation. -/
theorem claimedState_facts :
    claimedState.storage.claim.mayLoad MerkleAirdrop.sampleAccount = some true ∧
      claimedState.credits.storage.token.balanceOf MerkleAirdrop.sampleAccount = 100 ∧
      claimedState.credits.storage.token.totalSupply = 1000 ∧
      claimedState.credits.storage.config.lockdropAddress = some "lockdrop" ∧
      claimedState.credits.env.contract = "credits" ∧
      Lockdrop.claimAirdropTokensWithMultiplierMsg (creditsQuerier noQuerier claimedState.credits)
        claimedState.credits.env.contract MerkleAirdrop.sampleAccount 0 =
          .ok (.burnFrom claimedState.credits.env.contract MerkleAirdrop.sampleAccount 0) ∧
      (claimedState.credits.execute cw20Base ⟨"lockdrop", []⟩
        (.burnFrom MerkleAirdrop.sampleAccount 0)).isOk = false := by
  decide +kernel

theorem claim_goes_through_iff_sample :
    ∃ a, claimedState.credits.storage.allocations.mayLoad MerkleAirdrop.sampleAccount = some a ∧
      ∀ reward, (GoesThrough cw20Base noQuerier "lockdrop" claimedState.credits
        MerkleAirdrop.sampleAccount reward ↔
          (a.withdrawnAmount < a.vested claimedState.credits.env.time ∨ 0 < reward) ∧
            reward * FixedPoint.fractional < 2 ^ 128) := by
  obtain ⟨hclaimed, hbalance, hsupply, hlockdrop, hcontract, -⟩ := claimedState_facts
  refine claim_goes_through_iff cw20Base_lawful cw20Base_burnable
    MerkleAirdrop.sampleStart_started rfl ?_ ?_ ?_ hlockdrop ?_
  · rw [hclaimed]
    exact Option.some_ne_none true
  · rw [hbalance]
    decide
  · rw [hsupply]
    decide
  · rw [hcontract]
    decide

/-- Before the vesting starts nothing can be withdrawn, and a claim without a reward burns
nothing, which `cw20-base` rejects. -/
theorem claim_blocked :
    MerkleAirdrop.Started MerkleAirdrop.codec MerkleAirdrop.sampleStart ∧
      claimedState.storage.claim.mayLoad MerkleAirdrop.sampleAccount = some true ∧
      claimedState.credits.storage.token.balanceOf MerkleAirdrop.sampleAccount = 100 ∧
      claimedState.credits.storage.config.lockdropAddress = some "lockdrop" ∧
      Lockdrop.claimAirdropTokensWithMultiplierMsg (creditsQuerier noQuerier claimedState.credits)
        claimedState.credits.env.contract MerkleAirdrop.sampleAccount 0 =
          .ok (.burnFrom claimedState.credits.env.contract MerkleAirdrop.sampleAccount 0) ∧
      (claimedState.credits.execute cw20Base ⟨"lockdrop", []⟩
        (.burnFrom MerkleAirdrop.sampleAccount 0)).isOk = false ∧
      ¬ GoesThrough cw20Base noQuerier "lockdrop" claimedState.credits
        MerkleAirdrop.sampleAccount 0 := by
  obtain ⟨hclaimed, hbalance, -, hlockdrop, -, hmsg, hfails⟩ := claimedState_facts
  refine ⟨MerkleAirdrop.sampleStart_started, hclaimed, hbalance, hlockdrop, hmsg, hfails, ?_⟩
  rintro ⟨⟨amount, w', hbuilt, hamount, -⟩, -⟩
  rw [hmsg] at hbuilt
  obtain rfl := (Lockdrop.CosmosMsg.burnFrom.inj (Except.ok.inj hbuilt)).2.2
  exact absurd hamount (Nat.lt_irrefl 0)

end GoesThrough

end NeutronTge.Airdrop
