import NeutronTge.Astroport.Ownership
import NeutronTge.LockdropPcl.Chain

/-!
# NeutronTge.LockdropPcl.Authority

Who owns the PCL lockdrop. As in the XYK lockdrop three messages are about that, and neither
the other messages nor the liquidity that is migrated in touch the owner and the proposal.
-/

namespace NeutronTge.LockdropPcl

open CosmWasm Astroport Lockdrop Shares

variable {E : Type} {x : Externals E} {q : Querier} {s s' : Storage} {w w' : World E}

/-- The owner and the proposal of another one, if there is one. -/
def Storage.ownership (s : Storage) : Ownership := ⟨s.config.owner, s.ownershipProposal⟩

/-! ### Handlers -/

theorem userNtrnRewards_sameOwnership {user : Addr} {userInfo : UserInfo} {total : Nat}
    (h : userNtrnRewards s user userInfo = .ok (total, s')) : s'.ownership = s.ownership := by
  unfold userNtrnRewards at h
  split at h
  · unfold updateUserLockupPositionsAndCalcRewards at h
    refine addAmounts_invariant (P := fun t => t.ownership = s.ownership) ?_ rfl h
    intro t key reward t' _ ht hreward
    refine Eq.trans ?_ ht
    unfold updateLockupReward at hreward
    simp only [bind_eq_ok] at hreward
    obtain ⟨_, -, _, -, hreward⟩ := hreward
    split at hreward
    · simp only [bind_eq_ok, Except.ok.injEq, Prod.mk.injEq] at hreward
      obtain ⟨_, -, -, rfl⟩ := hreward
      rfl
    · simp only [Except.ok.injEq, Prod.mk.injEq] at hreward
      obtain ⟨-, rfl⟩ := hreward
      rfl
  · simp only [Except.ok.injEq, Prod.mk.injEq] at h
    obtain ⟨-, rfl⟩ := h
    rfl

theorem handleCallback_sameOwnership {env : Env} {msg : CallbackMsg} {r : Response}
    (h : handleCallback q s env msg = .ok r) : r.storage.ownership = s.ownership := by
  cases msg with
  | updatePoolOnDualRewardsClaim =>
      simp only [handleCallback, updatePoolOnDualRewardsClaim, bind_eq_ok, Except.ok.injEq] at h
      obtain ⟨_, -, _, -, _, -, rfl⟩ := h
      rfl
  | withdrawUserLockupRewardsCallback =>
      simp only [handleCallback, callbackWithdrawUserRewards, bind_eq_ok, Except.ok.injEq] at h
      obtain ⟨_, -, _, -, _, -, ⟨_, _⟩, -, ⟨t, _⟩, hexit, ⟨u, _⟩, hntrn, rfl⟩ := h
      have hclosed : t.ownership = s.ownership := by
        unfold storeOrClose at hexit
        split at hexit
        · simp only [bind_eq_ok, Except.ok.injEq, Prod.mk.injEq] at hexit
          obtain ⟨_, -, _, -, rfl, -⟩ := hexit
          rfl
        · simp only [Except.ok.injEq, Prod.mk.injEq] at hexit
          obtain ⟨rfl, -⟩ := hexit
          rfl
      refine Eq.trans ?_ hclosed
      unfold payNtrnRewards at hntrn
      split at hntrn
      · simp only [Except.ok.injEq, Prod.mk.injEq] at hntrn
        obtain ⟨rfl, -⟩ := hntrn
        rfl
      · simp only [bind_eq_ok, Except.ok.injEq, Prod.mk.injEq] at hntrn
        obtain ⟨_, -, rfl, -⟩ := hntrn
        rfl
  | finishLockupMigrationCallback poolType user duration lpToken prev userInfo lockup stake =>
      simp only [handleCallback, callbackFinishLockupMigration, bind_eq_ok] at h
      obtain ⟨_, -, _, -, _, -, _, -, _, -, _, -, _, -, h⟩ := h
      split at h <;>
      · obtain rfl := Except.ok.inj h
        rfl

/-! ### Messages -/

/-- The message about the ownership that a message is, if it is one. -/
def ExecuteMsg.ownership : ExecuteMsg → Option OwnershipMsg
  | .proposeNewOwner owner expiresIn => some (.proposeNewOwner owner expiresIn)
  | .dropOwnershipProposal => some .dropOwnershipProposal
  | .claimOwnership => some .claimOwnership
  | _ => none

/-- Three handlers call the shared functions, and the others leave the ownership alone. -/
theorem execute_ownership {env : Env} {info : MessageInfo} {msg : ExecuteMsg} {r : Response}
    (h : execute q s env info msg = .ok r) :
    s.ownership.Obeys info env msg.ownership r.storage.ownership := by
  cases msg with
  | proposeNewOwner owner expiresIn =>
      simp only [execute, bind_eq_ok, Except.ok.injEq] at h
      obtain ⟨p, hpropose, rfl⟩ := h
      exact bind_eq_ok.mpr ⟨p, hpropose, rfl⟩
  | dropOwnershipProposal =>
      simp only [execute, bind_eq_ok, Except.ok.injEq] at h
      obtain ⟨_, hdrop, rfl⟩ := h
      exact bind_eq_ok.mpr ⟨_, hdrop, rfl⟩
  | claimOwnership =>
      simp only [execute, bind_eq_ok, Except.ok.injEq] at h
      obtain ⟨owner, hclaim, rfl⟩ := h
      exact bind_eq_ok.mpr ⟨owner, hclaim, rfl⟩
  | claimRewardsAndOptionallyUnlock poolType duration withdraw =>
      simp only [execute, handleClaimRewardsAndUnlockForLockup, bind_eq_ok, Except.ok.injEq] at h
      obtain ⟨_, -, _, -, ⟨_, t⟩, hrewards, _, -, _, -, _, -, _, -, rfl⟩ := h
      have hloop : t.ownership = s.ownership := userNtrnRewards_sameOwnership hrewards
      exact hloop
  | callback msg =>
      simp only [execute, bind_eq_ok] at h
      obtain ⟨_, -, h⟩ := h
      exact handleCallback_sameOwnership h
  | updateConfig incentivesAddress =>
      simp only [execute, handleUpdateConfig, bind_eq_ok] at h
      obtain ⟨_, -, h⟩ := h
      cases incentivesAddress with
      | none =>
          obtain rfl := Except.ok.inj h
          rfl
      | some incentives =>
          simp only [bind_eq_ok, Except.ok.injEq] at h
          obtain ⟨_, -, rfl⟩ := h
          rfl
  | migrateXYKLiquidity poolType user duration userInfo lockup stake =>
      simp only [execute, handleMigrateXykLiquidity, bind_eq_ok, Except.ok.injEq] at h
      obtain ⟨_, -, _, -, _, -, _, -, _, -, rfl⟩ := h
      rfl

/-! ### Runs -/

/-- The messages of a handler leave the ownership alone, with all that they lead to. -/
theorem dispatchAll_sameOwnership {n : Nat} {msgs : List CosmosMsg}
    (h : msgs.foldlM (dispatch x n) w = .ok w') :
    w'.env = w.env ∧ w'.storage.ownership = w.storage.ownership := by
  refine Calls.invariant_all (Q := fun _ => True)
    (P := fun v : World E => v.env = w.env ∧ v.storage.ownership = w.storage.ownership) ?_ ?_
    ⟨rfl, rfl⟩ (fun _ _ => trivial) h
  · exact fun _ _ _ hv _ _ => hv
  · exact fun v c r hv hr =>
      ⟨⟨hv.1, (handleCallback_sameOwnership hr).trans hv.2⟩, fun _ _ => trivial⟩

/-- What a transaction says about the ownership. -/
def Action.ownershipEvent (w : World E) : Action E → Option OwnershipEvent
  | .execute info msg => msg.ownership.map (OwnershipMsg.event info.sender w.env.time)
  | _ => none

theorem exec_ownership {a : Action E} (h : w.exec x a = .ok w') :
    w.env.time ≤ w'.env.time ∧
      w.storage.ownership.Moves w.env.time (a.ownershipEvent w) w'.storage.ownership := by
  cases a with
  | advance seconds blocks =>
      obtain rfl := Except.ok.inj h
      exact ⟨Nat.le_add_right _ _, rfl⟩
  | drift ext =>
      obtain rfl := Except.ok.inj h
      exact ⟨le_refl _, rfl⟩
  | execute info msg =>
      obtain ⟨r, hr, hrun, -⟩ := execute_ok h
      obtain ⟨henv, hsame⟩ := dispatchAll_sameOwnership hrun
      refine ⟨by rw [henv]; exact le_refl w.env.time, ?_⟩
      rw [hsame]
      exact (execute_ownership hr).moves

theorem handsOver (x : Externals E) :
    HandsOver (World.exec x) (fun w => w.storage.ownership) (fun w => w.env.time)
      fun w a => a.ownershipEvent w where
  clock_le _ _ _ h := (exec_ownership h).1
  moves _ _ _ h := (exec_ownership h).2

/-- In every run of the PCL lockdrop the ownership is handed over properly. -/
theorem pclLockdrop_handed_over (x : Externals E) (info : MessageInfo) (msg : InstantiateMsg)
    (ext : E) (env : Env) (as : List (Action E)) :
    let start : World E := ⟨msg.storage env info, ext, env, []⟩
    let record := ownershipRecord (World.exec x) (fun w a => a.ownershipEvent w) start as
    Throughout (Proper (msg.owner.getD info.sender)) record ∧
      (run (World.exec x) start as).storage.config.owner =
        ownerAfter (msg.owner.getD info.sender) record :=
  (handsOver x).run as rfl

end NeutronTge.LockdropPcl
