import NeutronTge.Astroport.Ownership
import NeutronTge.Lockdrop.Chain

/-!
# NeutronTge.Lockdrop.Authority

Who owns the lockdrop. Three of its messages are about that; all the others, with every
callback they lead to, leave the owner and the proposal alone. So the ownership is handed
over in two steps, in every run.
-/

namespace NeutronTge.Lockdrop

open CosmWasm Astroport Shares

variable {E : Type} {x : Externals E} {q : Querier} {s s' : Storage} {w w' : World E}

/-- The owner and the proposal of another one, if there is one. -/
def Storage.ownership (s : Storage) : Ownership := ⟨s.config.owner, s.ownershipProposal⟩

/-! ### Handlers -/

theorem updateUserLockupPositions_sameOwnership {user : Addr} {total : Nat}
    (h : updateUserLockupPositionsAndCalcRewards q s user = .ok (total, s')) :
    s'.ownership = s.ownership := by
  unfold updateUserLockupPositionsAndCalcRewards at h
  refine addAmounts_invariant (P := fun t => t.ownership = s.ownership) ?_ rfl h
  intro t key reward t' _ ht hreward
  refine Eq.trans ?_ ht
  unfold updateLockupReward at hreward
  simp only [bind_eq_ok] at hreward
  obtain ⟨_, -, _, -, hreward⟩ := hreward
  split at hreward
  · simp only [bind_eq_ok, Except.ok.injEq, Prod.mk.injEq] at hreward
    obtain ⟨_, -, -, rfl⟩ := hreward
    rfl
  · simp only [Except.ok.injEq, Prod.mk.injEq] at hreward
    obtain ⟨-, rfl⟩ := hreward
    rfl

theorem payNtrnRewards_sameOwnership {user : Addr} {userInfo : UserInfo} {msgs : List CosmosMsg}
    (h : payNtrnRewards q s user userInfo = .ok (s', msgs)) : s'.ownership = s.ownership := by
  unfold payNtrnRewards at h
  split at h
  · simp only [Except.ok.injEq, Prod.mk.injEq] at h
    obtain ⟨rfl, -⟩ := h
    rfl
  · simp only [bind_eq_ok, Except.ok.injEq, Prod.mk.injEq] at h
    obtain ⟨_, -, rfl, -⟩ := h
    rfl

theorem closeLockup_sameOwnership {height : Nat} {key : LockupKey} {pool : PoolInfo}
    {lockup : LockupInfoV2} {amount : Nat}
    (h : closeLockup s height key pool lockup amount = .ok s') : s'.ownership = s.ownership := by
  simp only [closeLockup, bind_eq_ok, Except.ok.injEq] at h
  obtain ⟨_, -, _, -, rfl⟩ := h
  rfl

theorem handleCallback_sameOwnership {env : Env} {msg : CallbackMsg} {r : Response}
    (h : handleCallback q s env msg = .ok r) : r.storage.ownership = s.ownership := by
  cases msg with
  | updatePoolOnDualRewardsClaim =>
      simp only [handleCallback, updatePoolOnDualRewardsClaim, bind_eq_ok, Except.ok.injEq] at h
      obtain ⟨_, -, _, -, _, -, _, -, _, -, _, -, _, -, _, -, _, -, rfl⟩ := h
      rfl
  | withdrawUserLockupRewardsCallback =>
      simp only [handleCallback, callbackWithdrawUserRewards, bind_eq_ok, Except.ok.injEq] at h
      obtain ⟨_, -, _, -, _, -, _, -, ⟨_, _⟩, -, ⟨t, _⟩, hexit, ⟨_, _⟩, hntrn, rfl⟩ := h
      refine (payNtrnRewards_sameOwnership hntrn).trans ?_
      unfold storeOrClose at hexit
      split at hexit
      · simp only [bind_eq_ok, Except.ok.injEq, Prod.mk.injEq] at hexit
        obtain ⟨_, hclose, rfl, -⟩ := hexit
        exact closeLockup_sameOwnership hclose
      · simp only [Except.ok.injEq, Prod.mk.injEq] at hexit
        obtain ⟨rfl, -⟩ := hexit
        rfl
  | initMigrateLockupToPCLPoolsCallback =>
      simp only [handleCallback, callbackInitMigrateLockupToPclPools, bind_eq_ok] at h
      obtain ⟨_, -, h⟩ := h
      split at h
      · obtain rfl := Except.ok.inj h
        rfl
      · simp only [bind_eq_ok, Except.ok.injEq] at h
        obtain ⟨_, -, _, -, rfl⟩ := h
        rfl
  | transferAllRewardsBeforeMigrationCallback =>
      simp only [handleCallback, callbackTransferAllRewardsBeforeMigration, bind_eq_ok,
        Except.ok.injEq] at h
      obtain ⟨_, -, _, -, _, -, _, -, _, -, ⟨_, _⟩, -, ⟨_, _⟩, -, ⟨_, _⟩, hntrn, rfl⟩ := h
      exact payNtrnRewards_sameOwnership hntrn
  | withdrawUserLockupCallback =>
      simp only [handleCallback, callbackWithdrawUserLockup, bind_eq_ok, Except.ok.injEq] at h
      obtain ⟨_, -, _, -, _, -, _, -, _, -, _, -, _, -, _, hclose, rfl⟩ := h
      exact closeLockup_sameOwnership hclose
  | migrateUserLockupToPCLPairCallback =>
      simp only [handleCallback, callbackMigrateUserLockupToPclPair, bind_eq_ok,
        Except.ok.injEq] at h
      obtain ⟨_, -, _, -, _, -, _, -, _, -, _, -, _, -, _, -, _, -, rfl⟩ := h
      rfl

/-! ### Messages -/

/-- The message about the ownership that a message is, if it is one. -/
def ExecuteMsg.ownership : ExecuteMsg → Option OwnershipMsg
  | .proposeNewOwner owner expiresIn => some (.proposeNewOwner owner expiresIn)
  | .dropOwnershipProposal => some .dropOwnershipProposal
  | .claimOwnership => some .claimOwnership
  | _ => none

/-- Three handlers call the shared functions, and the others leave the ownership alone. -/
theorem execute_ownership {env : Env} {info : MessageInfo} {msg : ExecuteMsg} {r : Response}
    (h : execute q s env info msg = .ok r) :
    s.ownership.Obeys info env msg.ownership r.storage.ownership := by
  cases msg with
  | proposeNewOwner owner expiresIn =>
      simp only [execute, bind_eq_ok, Except.ok.injEq] at h
      obtain ⟨p, hpropose, rfl⟩ := h
      exact bind_eq_ok.mpr ⟨p, hpropose, rfl⟩
  | dropOwnershipProposal =>
      simp only [execute, bind_eq_ok, Except.ok.injEq] at h
      obtain ⟨_, hdrop, rfl⟩ := h
      exact bind_eq_ok.mpr ⟨_, hdrop, rfl⟩
  | claimOwnership =>
      simp only [execute, bind_eq_ok, Except.ok.injEq] at h
      obtain ⟨owner, hclaim, rfl⟩ := h
      exact bind_eq_ok.mpr ⟨owner, hclaim, rfl⟩
  | receive msg =>
      simp only [execute, receiveCw20, bind_eq_ok] at h
      obtain ⟨_, -, hook, -, h⟩ := h
      cases hook with
      | initializePool poolType incentivesShare =>
          simp only [handleInitializePool, bind_eq_ok, Except.ok.injEq] at h
          obtain ⟨_, -, _, -, _, -, _, -, _, -, _, -, rfl⟩ := h
          rfl
  | claimRewardsAndOptionallyUnlock poolType duration withdraw =>
      simp only [execute, handleClaimRewardsAndUnlockForLockup, bind_eq_ok, Except.ok.injEq] at h
      obtain ⟨_, -, _, -, _, -, _, -, ⟨_, t⟩, hrewards, _, -, _, -, _, -, _, -, rfl⟩ := h
      have hloop : t.ownership = s.ownership := by
        unfold userNtrnRewards at hrewards
        split at hrewards
        · exact updateUserLockupPositions_sameOwnership hrewards
        · simp only [Except.ok.injEq, Prod.mk.injEq] at hrewards
          obtain ⟨-, rfl⟩ := hrewards
          rfl
      exact hloop
  | callback msg =>
      simp only [execute, bind_eq_ok] at h
      obtain ⟨_, -, h⟩ := h
      exact handleCallback_sameOwnership h
  | increaseNTRNIncentives =>
      simp only [execute, handleIncreasingNtrnIncentives, bind_eq_ok, Except.ok.injEq] at h
      obtain ⟨_, -, _, -, _, -, _, -, rfl⟩ := h
      rfl
  | increaseLockupFor userAddress poolType amount duration =>
      simp only [execute, handleIncreaseLockup, bind_eq_ok, Except.ok.injEq] at h
      obtain ⟨_, -, _, -, _, -, _, -, _, -, _, -, _, -, _, -, _, -, ⟨_, _⟩, -, _, -, rfl⟩ := h
      rfl
  | withdrawFromLockup userAddress poolType duration amount =>
      simp only [execute, handleWithdrawFromLockup, bind_eq_ok, Except.ok.injEq] at h
      obtain ⟨_, -, _, -, _, -, _, -, _, -, _, -, _, -, _, -, _, -, _, -, _, -, _, -, _, -, _, -,
        _, -, _, -, t, hstore, _, -, rfl⟩ := h
      have hstored : t.ownership = s.ownership := by
        unfold storeRemaining at hstore
        split at hstore
        · simp only [bind_eq_ok, Except.ok.injEq] at hstore
          obtain ⟨_, -, rfl⟩ := hstore
          rfl
        · obtain rfl := Except.ok.inj hstore
          rfl
      exact hstored
  | updateConfig newConfig =>
      simp only [execute, handleUpdateConfig, bind_eq_ok, Except.ok.injEq] at h
      obtain ⟨_, -, _, -, rfl⟩ := h
      rfl
  | setTokenInfo atomToken usdcToken generator =>
      simp only [execute, handleSetTokenInfo, bind_eq_ok, Except.ok.injEq] at h
      obtain ⟨_, -, rfl⟩ := h
      rfl
  | migrateLiquidityToPCLPools raw =>
      simp only [execute, handleMigrateLiquidityToPclPools, bind_eq_ok, Except.ok.injEq] at h
      obtain ⟨_, -, t, hstore, rfl⟩ := h
      unfold storeNtrnRewards at hstore
      split at hstore
      · simp only [bind_eq_ok, Except.ok.injEq] at hstore
        obtain ⟨⟨_, u⟩, hupdate, rfl⟩ := hstore
        have hloop : u.ownership = s.ownership := updateUserLockupPositions_sameOwnership hupdate
        exact hloop
      · obtain rfl := Except.ok.inj hstore
        rfl

/-! ### Runs -/

/-- The messages of a handler leave the ownership alone, with all that they lead to. -/
theorem dispatchAll_sameOwnership {n : Nat} {msgs : List CosmosMsg}
    (h : msgs.foldlM (dispatch x n) w = .ok w') :
    w'.env = w.env ∧ w'.storage.ownership = w.storage.ownership := by
  refine Calls.invariant_all (Q := fun _ => True)
    (P := fun v : World E => v.env = w.env ∧ v.storage.ownership = w.storage.ownership) ?_ ?_
    ⟨rfl, rfl⟩ (fun _ _ => trivial) h
  · exact fun _ _ _ hv _ _ => hv
  · exact fun v c r hv hr =>
      ⟨⟨hv.1, (handleCallback_sameOwnership hr).trans hv.2⟩, fun _ _ => trivial⟩

/-- What a transaction says about the ownership. -/
def Action.ownershipEvent (w : World E) : Action E → Option OwnershipEvent
  | .execute info msg => msg.ownership.map (OwnershipMsg.event info.sender w.env.time)
  | _ => none

theorem exec_ownership {a : Action E} (h : w.exec x a = .ok w') :
    w.env.time ≤ w'.env.time ∧
      w.storage.ownership.Moves w.env.time (a.ownershipEvent w) w'.storage.ownership := by
  cases a with
  | advance seconds blocks =>
      obtain rfl := Except.ok.inj h
      exact ⟨Nat.le_add_right _ _, rfl⟩
  | drift ext =>
      obtain rfl := Except.ok.inj h
      exact ⟨le_refl _, rfl⟩
  | migrate pclLockdropContract =>
      obtain rfl := Except.ok.inj h
      exact ⟨le_refl _, rfl⟩
  | execute info msg =>
      obtain ⟨r, hr, hrun, -⟩ := execute_ok h
      obtain ⟨henv, hsame⟩ := dispatchAll_sameOwnership hrun
      refine ⟨by rw [henv]; exact le_refl w.env.time, ?_⟩
      rw [hsame]
      exact (execute_ownership hr).moves

theorem handsOver (x : Externals E) :
    HandsOver (World.exec x) (fun w => w.storage.ownership) (fun w => w.env.time)
      fun w a => a.ownershipEvent w where
  clock_le _ _ _ h := (exec_ownership h).1
  moves _ _ _ h := (exec_ownership h).2

/-- In every run of the lockdrop the ownership is handed over properly. -/
theorem lockdrop_handed_over (x : Externals E) (info : MessageInfo) (msg : InstantiateMsg)
    (ext : E) (env : Env) (as : List (Action E)) :
    let start : World E := ⟨msg.storage info, ext, env, []⟩
    let record := ownershipRecord (World.exec x) (fun w a => a.ownershipEvent w) start as
    Throughout (Proper (msg.owner.getD info.sender)) record ∧
      (run (World.exec x) start as).storage.config.owner =
        ownerAfter (msg.owner.getD info.sender) record :=
  (handsOver x).run as rfl

end NeutronTge.Lockdrop
