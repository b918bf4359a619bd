import NeutronTge.Lockdrop.Limits
import NeutronTge.Composed.Lockdrops

/-!
# NeutronTge.Composed.Unlocking

No lockup leaves before its time. A lockup of the XYK lockdrop is withdrawn by the auction
while the windows are open, unlocked by its owner after its unlock time, or handed over to
the PCL lockdrop with the same unlock time, where only its owner unlocks it. `Evolves` says
what a transaction of the XYK lockdrop does to the two lockups under a key.
-/

namespace NeutronTge.LockdropPcl

open CosmWasm Astroport
open Lockdrop (LockupKey)

variable {E : Type} {x : Externals E} {w w' : World E} {key : LockupKey}

/-- What a transaction of somebody else than the XYK lockdrop does to the lockup under a
key. -/
inductive Evolves (w w' : World E) (info : MessageInfo) (msg : ExecuteMsg) (k : LockupKey) :
    Prop
  | still (h : w'.storage.coreOf k = w.storage.coreOf k)
  | paid (core core' : LockupCore) (hcore : w.storage.coreOf k = some core)
      (h : w'.storage.coreOf k = some core')
      (hopen : core.astroportLpTransferred = none)
      (hopen' : core'.astroportLpTransferred = none)
      (hunits : core'.lpUnitsLocked = core.lpUnitsLocked)
      (hunlock : core'.unlockTimestamp = core.unlockTimestamp)
  | unlocked (core core' : LockupCore) (share : Nat)
      (hmsg : msg = .claimRewardsAndOptionallyUnlock k.poolType k.duration true)
      (hsender : info.sender = k.user) (hcore : w.storage.coreOf k = some core)
      (h : w'.storage.coreOf k = some core')
      (hopen : core.astroportLpTransferred = none)
      (hclosed : core'.astroportLpTransferred = some share)
      (hunlock : core'.unlockTimestamp = core.unlockTimestamp)
      (hlate : core.unlockTimestamp ≤ w.env.time)

theorem World.execute_evolves {info : MessageInfo} {msg : ExecuteMsg}
    (hsender : info.sender ≠ w.storage.config.xykLockdropContract)
    (h : w.execute x info msg = .ok w') (k : LockupKey) : Evolves w w' info msg k := by
  cases execute_effect h with
  | administer _ _ hsame => exact .still (coreOf_congr hsame.lockupInfo k)
  | migrate _ _ _ _ _ _ _ _ _ _ _ hxyk => exact absurd hxyk hsender
  | claim poolType duration withdraw r w₁ opened collect msgs pool lockup lockup' share t
      rewardMsgs exitMsgs ntrnMsgs hstarts hcollects hpays =>
      obtain ⟨-, hlockups, -, -⟩ := hcollects.frame
      have hbefore : ∀ k, w₁.storage.coreOf k = w.storage.coreOf k := fun k =>
        (coreOf_congr hlockups k).trans (hstarts.sameBooks.lockups k)
      obtain ⟨hkey, hothers⟩ := hpays.paysOut.coreOf
      by_cases hk : k = ⟨poolType, info.sender, duration⟩
      · obtain rfl := hk
        have hopened : w.storage.coreOf ⟨poolType, info.sender, duration⟩ = some opened.core := by
          rw [← hstarts.sameBooks.coreOf, Storage.coreOf, hstarts.lockup_eq, Option.map_some]
        have hlockup : w.storage.coreOf ⟨poolType, info.sender, duration⟩ = some lockup.core := by
          rw [← hbefore, Storage.coreOf, hpays.paysOut.lockup_eq, Option.map_some]
        have hcore : lockup.core = opened.core := Option.some.inj (hlockup.symm.trans hopened)
        have hopen : lockup.core.astroportLpTransferred = none := by
          rw [hcore]
          exact hstarts.lockup_open
        cases withdraw with
        | false => exact .paid _ _ hlockup hkey hopen hopen rfl rfl
        | true =>
            refine .unlocked _ _ share rfl rfl hlockup hkey hopen rfl rfl ?_
            rw [hcore]
            exact hstarts.unlocked rfl
      · exact .still ((hothers k hk).trans (hbefore k))

end NeutronTge.LockdropPcl

namespace NeutronTge.Lockdrops

open CosmWasm Astroport
open Lockdrop (LockupKey LockupCore)

variable {F : Type} {o : Outside F} {w w' : World F}

/-! ### What a transaction of the XYK lockdrop does to a lockup -/

/-- What a transaction of the XYK lockdrop does to the lockups under a key, in both
lockdrops. -/
inductive Evolves (w w' : World F) (info : MessageInfo) (msg : Lockdrop.ExecuteMsg)
    (k : LockupKey) : Prop
  | still (hxyk : w'.storage.coreOf k = w.storage.coreOf k)
      (hpcl : w'.ext.storage.coreOf k = w.ext.storage.coreOf k)
  | opened (core' : LockupCore) (hearly : w.env.time < w.storage.config.lockEnd)
      (hnone : w.storage.coreOf k = none) (hxyk : w'.storage.coreOf k = some core')
      (hunlock : core'.unlockTimestamp = w.storage.config.closing + k.duration)
      (hpcl : w'.ext.storage.coreOf k = w.ext.storage.coreOf k)
  | kept (core core' : LockupCore) (hcore : w.storage.coreOf k = some core)
      (hxyk : w'.storage.coreOf k = some core')
      (hunlock : core'.unlockTimestamp = core.unlockTimestamp)
      (hunits : core.lpUnitsLocked ≤ core'.lpUnitsLocked)
      (htransferred : core'.astroportLpTransferred = core.astroportLpTransferred)
      (hpcl : w'.ext.storage.coreOf k = w.ext.storage.coreOf k)
  | withdrawn (amount : Nat) (core : LockupCore)
      (hmsg : msg = .withdrawFromLockup k.user k.poolType k.duration amount)
      (hsender : info.sender = w.storage.config.auctionContract)
      (hearly : w.env.time < w.storage.config.closing)
      (hcore : w.storage.coreOf k = some core)
      (hrest : ∀ core', w'.storage.coreOf k = some core' →
        core'.unlockTimestamp = core.unlockTimestamp ∧
          core'.astroportLpTransferred = core.astroportLpTransferred)
      (hpcl : w'.ext.storage.coreOf k = w.ext.storage.coreOf k)
  | unlocked (core core' : LockupCore) (share : Nat)
      (hmsg : msg = .claimRewardsAndOptionallyUnlock k.poolType k.duration true)
      (hsender : info.sender = k.user) (hcore : w.storage.coreOf k = some core)
      (hopen : core.astroportLpTransferred = none) (hlate : core.unlockTimestamp ≤ w.env.time)
      (hxyk : w'.storage.coreOf k = some core')
      (hunlock : core'.unlockTimestamp = core.unlockTimestamp)
      (hclosed : core'.astroportLpTransferred = some share)
      (hpcl : w'.ext.storage.coreOf k = w.ext.storage.coreOf k)
  | handedOver (core : LockupCore) (share : Nat) (core' : LockdropPcl.LockupCore)
      (hmsg : ∃ raw, msg = .migrateLiquidityToPCLPools raw)
      (hcore : w.storage.coreOf k = some core) (hopen : core.astroportLpTransferred = none)
      (hxyk : w'.storage.coreOf k = some { core with astroportLpTransferred := some share })
      (hpcl : w'.ext.storage.coreOf k = some core')
      (hopen' : core'.astroportLpTransferred = none)
      (hunlock : core'.unlockTimestamp = core.unlockTimestamp)

theorem Evolves.increases {info : MessageInfo} {msg : Lockdrop.ExecuteMsg} {key : LockupKey}
    {amount : Nat} {pool : Lockdrop.PoolInfo} {weight : Nat} {lockup : Lockdrop.LockupInfoV2}
    {userInfo : Lockdrop.UserInfo}
    (h : Lockdrop.Increases w.storage w'.storage w.env info key amount pool weight lockup
      userInfo) (hext : w'.ext = w.ext) (k : LockupKey) : Evolves w w' info msg k := by
  have hsaved := Lockdrop.coreOf_save h.lockupInfo k
  have hpcl : w'.ext.storage.coreOf k = w.ext.storage.coreOf k := by rw [hext]
  split_ifs at hsaved with hk
  · obtain rfl := hk
    cases h.position with
    | grown st _ hst hcore =>
        have hbefore : w.storage.coreOf k = some st.core := by
          rw [Lockdrop.Storage.coreOf, hst, Option.map_some]
        refine .kept st.core lockup.core hbefore hsaved ?_ ?_ ?_ hpcl <;> rw [hcore]
        exact Nat.le_add_right _ _
    | opened _ hnone hcore =>
        refine .opened lockup.core h.early ?_ hsaved ?_ hpcl
        · rw [Lockdrop.Storage.coreOf, hnone, Option.map_none]
        · rw [hcore]
  · exact .still hsaved hpcl

theorem Evolves.withdraws {info : MessageInfo} {key : LockupKey} {amount : Nat}
    {pool : Lockdrop.PoolInfo} {weight : Nat} {st : Lockdrop.StoredLockup}
    {lockup : Lockdrop.LockupInfoV2}
    (h : Lockdrop.Withdraws w.storage w'.storage w.env info key amount pool weight st lockup)
    (hext : w'.ext = w.ext) (k : LockupKey) :
    Evolves w w' info (.withdrawFromLockup key.user key.poolType key.duration amount) k := by
  have hpcl : w'.ext.storage.coreOf k = w.ext.storage.coreOf k := by rw [hext]
  have hposition := h.position
  generalize hlockups : w'.storage.lockupInfo = lockups at hposition
  generalize w'.storage.userInfo = users at hposition
  by_cases hk : k = key
  · obtain rfl := hk
    have hbefore : w.storage.coreOf k = some st.core := by
      rw [Lockdrop.Storage.coreOf, h.lockup_eq, Option.map_some]
    refine .withdrawn amount st.core rfl h.sender h.early hbefore ?_ hpcl
    intro core' hcore'
    cases hposition with
    | deleted =>
        rw [Lockdrop.Storage.coreOf, hlockups, Map.mayLoad_remove_eq, if_pos rfl] at hcore'
        cases hcore'
    | kept =>
        rw [Lockdrop.coreOf_save hlockups, if_pos rfl] at hcore'
        obtain rfl := Option.some.inj hcore'
        rw [h.remaining]
        exact ⟨rfl, rfl⟩
  · refine .still ?_ hpcl
    cases hposition with
    | deleted =>
        rw [Lockdrop.Storage.coreOf, hlockups, Map.mayLoad_remove_eq, if_neg hk,
          Lockdrop.Storage.coreOf]
    | kept => rw [Lockdrop.coreOf_save hlockups, if_neg hk]

/-- A claim: the reward callback follows steps that keep every lockup. -/
theorem Evolves.claims {w₁ : World F} {info : MessageInfo} {poolType : Lockdrop.PoolType}
    {duration : Nat} {withdraw : Bool} {st : Lockdrop.StoredLockup}
    {msgs : List Lockdrop.CosmosMsg} {pool : Lockdrop.PoolInfo}
    {lockup lockup' : Lockdrop.LockupInfoV2} {generator : Addr} {share : Nat}
    {t : Lockdrop.Storage} {rewardMsgs exitMsgs ntrnMsgs : List Lockdrop.CosmosMsg}
    (hbefore : ∀ k, w₁.storage.coreOf k = w.storage.coreOf k)
    (hst : w.storage.coreOf ⟨poolType, info.sender, duration⟩ = some st.core)
    (hopen : st.core.astroportLpTransferred = none)
    (hunlocked : withdraw = true → st.core.unlockTimestamp ≤ w.env.time)
    (hpays : Lockdrop.Pays o.externals w₁ w' ⟨poolType, info.sender, duration⟩ withdraw msgs pool
      lockup lockup' generator share t rewardMsgs exitMsgs ntrnMsgs)
    (hsame : SamePcl w.ext w'.ext) (k : LockupKey) :
    Evolves w w' info (.claimRewardsAndOptionallyUnlock poolType duration withdraw) k := by
  have hpcl : w'.ext.storage.coreOf k = w.ext.storage.coreOf k := by rw [hsame.storage]
  obtain ⟨debt, hkey, hothers⟩ := hpays.coreOf
  by_cases hk : k = ⟨poolType, info.sender, duration⟩
  · obtain rfl := hk
    have hlockup : w.storage.coreOf ⟨poolType, info.sender, duration⟩ = some lockup.core := by
      rw [← hbefore]
      exact Lockdrop.coreOf_of_load hpays.paysOut.lockup_eq
    have hcore : st.core = lockup.core := Option.some.inj (hst.symm.trans hlockup)
    rw [hcore] at hopen hunlocked
    cases withdraw with
    | false => exact .kept lockup.core _ hlockup hkey rfl (Nat.le_refl _) rfl hpcl
    | true =>
        exact .unlocked lockup.core _ share rfl rfl hlockup hopen (hunlocked rfl) hkey rfl rfl hpcl
  · exact .still ((hothers k hk).trans (hbefore k)) hpcl

theorem World.execute_evolves (hpcl : KnowsPcl w) {info : MessageInfo}
    {msg : Lockdrop.ExecuteMsg} (h : Lockdrop.World.execute o.externals w info msg = .ok w')
    (k : LockupKey) : Evolves w w' info msg k := by
  obtain ⟨r, hr, hrun, hsender⟩ := Lockdrop.execute_ok h
  obtain ⟨-, heffect⟩ := Lockdrop.execute_effect hsender hr
  have hnone : r.messages = [] → w' = w.respond r := by
    intro hnil
    rw [hnil] at hrun
    exact (Except.ok.inj hrun).symm
  cases heffect with
  | increase key amount pool weight lockup userInfo hmsgs hinc =>
      have hw' : w' = w.respond r := hnone hmsgs
      have hinc' : Lockdrop.Increases w.storage w'.storage w.env info key amount pool weight lockup
          userInfo := by
        rw [hw']
        exact hinc
      exact .increases hinc' (by rw [hw']; rfl) k
  | withdraw key amount pool weight st lockup hmsgs hwith =>
      have hw' : w' = w.respond r := hnone hmsgs
      have hwith' : Lockdrop.Withdraws w.storage w'.storage w.env info key amount pool weight st
          lockup := by
        rw [hw']
        exact hwith
      exact .withdraws hwith' (by rw [hw']; rfl) k
  | setTokenInfo atomToken usdcToken generator hmsgs hstorage =>
      obtain rfl := hnone hmsgs
      exact .still (Lockdrop.coreOf_congr (show r.storage.lockupInfo = _ by rw [hstorage]) k) rfl
  | reconfigure msg hmsg hmsgs hsame =>
      obtain rfl := hnone hmsgs
      exact .still (Lockdrop.coreOf_congr hsame.lockupInfo k) rfl
  | initPool poolType incentivesShare sender amount pool hauction hinit =>
      have hsame : SamePcl w.ext w'.ext := initPool_same hinit hrun
      obtain ⟨ext, -, rfl⟩ := Lockdrop.externals_ok hinit.external hrun
      refine .still (Lockdrop.coreOf_congr (show r.storage.lockupInfo = _ by rw [hinit.storage]) k)
        (by rw [hsame.storage])
  | claim poolType duration withdraw userInfo total t st collect hclaim =>
      obtain ⟨w₁, msgs, pool, lockup, lockup', generator, share, t', rewardMsgs, exitMsgs,
        ntrnMsgs, hcollects, hpays⟩ := Lockdrop.execute_claim_ok hclaim hrun
      obtain ⟨-, hlockups, -, -, -⟩ := hcollects.frame
      have hst : w.storage.coreOf ⟨poolType, info.sender, duration⟩ = some st.core := by
        rw [Lockdrop.Storage.coreOf, ← hclaim.sameBooks.lockups, hclaim.lockup_eq, Option.map_some]
      refine Evolves.claims (fun k => ?_) hst hclaim.lockup_open hclaim.unlocked hpays
        ((collects_same hcollects).trans (pays_same hpays)) k
      exact (Lockdrop.coreOf_congr hlockups k).trans (hclaim.sameBooks.lockups k)
  | migrate raw hbooks hmsgs =>
      have hstart : KnowsPcl (w.respond r) := hpcl.of_eq hbooks.pclLockdropContract rfl
      have hmigrated : KnowsPcl w' ∧ Migrated k (w.respond r) w' := by
        refine foldlM_invariant (fun v => KnowsPcl v ∧ Migrated k (w.respond r) v)
          ⟨hstart, .refl k _⟩ ?_ hrun
        intro v v' m hm hv hstep
        obtain ⟨key, rfl⟩ := hmsgs m hm
        have hmigrate := Lockdrop.migrates_ok hstep
        refine ⟨hv.1.migrates hmigrate, hv.2.trans ?_⟩
        rcases migrates_cases hv.1 hmigrate with rfl | ⟨core, share, e, funds, lockup, userInfo,
          stake, pair, ext, msgs, prev, balance, pool, weight, hover⟩
        · exact .refl k v'
        · exact hover.migrated k
      have hsame : (w.respond r).storage.coreOf k = w.storage.coreOf k := hbooks.lockups k
      cases hmigrated.2 with
      | still hxyk hpcl' => exact .still (hxyk.trans hsame) hpcl'
      | handedOver core share core' hcore hopen hxyk hpcl' hopen' hunlock =>
          exact .handedOver core share core' ⟨raw, rfl⟩ (hsame ▸ hcore) hopen hxyk hpcl' hopen'
            hunlock

end NeutronTge.Lockdrops
