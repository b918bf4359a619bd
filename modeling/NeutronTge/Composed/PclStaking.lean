import NeutronTge.Lockdrop.StakeFlags
import NeutronTge.Composed.PclLedger

/-!
# NeutronTge.Composed.PclStaking

When the LP tokens of a PCL pool are staked. Lockups leave the XYK lockdrop in any order, and
the migration that drains a pool tells the PCL lockdrop to stake (`Draining`). An unlock says
nothing about staking: when the last lockup is unlocked while others are in the PCL lockdrop
(`Strands`), their LP tokens are never staked. In every other order of exits they are, once and
with the last lockup that comes.
-/

namespace NeutronTge.LockdropPcl

open CosmWasm Astroport
open Lockdrop (PoolType LockupKey)

variable {E : Type} {x : Externals E} {w w' : World E} {s s' : Storage} {p : PoolType}

/-- The LP tokens of the pool are staked. -/
def Storage.IsStaked (s : Storage) (p : PoolType) : Prop :=
  ∃ pool, s.assetPools.mayLoad p = some pool ∧ pool.isStaked = true

theorem Storage.IsStaked.of_eq (h : s.IsStaked p)
    (hpools : s'.assetPools.mayLoad p = s.assetPools.mayLoad p) : s'.IsStaked p := by
  unfold Storage.IsStaked
  rw [hpools]
  exact h

section Finishes

variable {height : Nat} {key : LockupKey} {lpToken : Addr} {userInfo : Lockdrop.UserInfo}
variable {lockup : Lockdrop.LockupInfoV2} {stake : Bool} {msgs : List CosmosMsg}
variable {balance units : Nat} {pool : PoolInfo} {weight : Nat}

/-- A lockup that comes with the flag gets its pool staked. -/
theorem Finishes.staked
    (h : Finishes s s' height key lpToken userInfo lockup stake msgs balance units pool weight)
    (hstake : stake = true) : s'.IsStaked key.poolType := by
  have hpool := h.assetPools key.poolType
  rw [if_pos rfl] at hpool
  exact ⟨_, hpool, by rw [hstake, Bool.true_or]⟩

theorem Finishes.isStaked
    (h : Finishes s s' height key lpToken userInfo lockup stake msgs balance units pool weight)
    (hstaked : s.IsStaked p) : s'.IsStaked p := by
  have hpool := h.assetPools p
  split_ifs at hpool with hp
  · obtain rfl := hp
    obtain ⟨pool', hpool', hstaked'⟩ := hstaked
    obtain rfl := Option.some.inj (hpool'.symm.trans h.pool_eq)
    exact ⟨_, hpool, by rw [hstaked', Bool.or_true]⟩
  · exact hstaked.of_eq hpool

end Finishes

/-- No transaction takes the flag of a staked pool back. -/
theorem World.execute_isStaked {info : MessageInfo} {msg : ExecuteMsg}
    (h : w.execute x info msg = .ok w') (hstaked : w.storage.IsStaked p) :
    w'.storage.IsStaked p := by
  cases execute_effect h with
  | administer _ _ hsame => exact hstaked.of_eq (by rw [hsame.assetPools])
  | migrate _ _ _ _ _ _ _ _ _ _ _ _ hmigrates => exact hmigrates.finishes.isStaked hstaked
  | claim poolType duration withdraw r w₁ opened collect msgs pool lockup lockup' share t
      rewardMsgs exitMsgs ntrnMsgs hstarts hcollects hpays =>
      have hcollected : w₁.storage.IsStaked p := by
        have hresponds : (w.respond r).storage.IsStaked p :=
          hstaked.of_eq (congrArg (·.mayLoad p) hstarts.sameBooks.assetPools)
        cases hcollects with
        | nothing => exact hresponds
        | booked incentives lpToken ext s' prev pool' deposit perShare hclaim hbooks =>
            obtain ⟨pool'', hpool'', hstaked''⟩ := hresponds
            unfold Storage.IsStaked
            rw [hbooks.storage, SnapshotMap.mayLoad_save_eq]
            split_ifs with hp
            · obtain rfl := hp
              obtain rfl := Option.some.inj (hpool''.symm.trans hbooks.pool_eq)
              exact ⟨_, rfl, hstaked''⟩
            · exact ⟨pool'', hpool'', hstaked''⟩
      obtain ⟨hkey, hothers⟩ := hpays.paysOut.assetPools
      by_cases hp : p = poolType
      · obtain rfl := hp
        obtain ⟨pool', hpool', hstaked'⟩ := hcollected
        obtain rfl := Option.some.inj (hpool'.symm.trans hpays.paysOut.pool_eq)
        exact ⟨_, hkey, hstaked'⟩
      · exact hcollected.of_eq (hothers p hp)

/-- The other contracts change message by message. -/
theorem World.execute_ext {P : E → Prop} (hexec : ∀ e e' m, P e → x.exec e m = .ok e' → P e')
    {info : MessageInfo} {msg : ExecuteMsg} (hw : P w.ext)
    (h : w.execute x info msg = .ok w') : P w'.ext := by
  cases execute_effect h with
  | administer _ _ hsame =>
      rw [hsame.ext]
      exact hw
  | migrate _ _ _ _ _ _ _ _ _ _ _ _ hmigrates =>
      exact foldlM_invariant P (hexec _ _ _ hw hmigrates.provides)
        (fun e e' m _ he hstep => hexec e e' m he hstep) hmigrates.exec
  | claim poolType duration withdraw r w₁ opened collect msgs pool lockup lockup' share t
      rewardMsgs exitMsgs ntrnMsgs hstarts hcollects hpays =>
      have hcollected : P w₁.ext := by
        cases hcollects with
        | nothing => exact hw
        | booked _ _ _ _ _ _ _ _ hclaim => exact hexec _ _ _ hw hclaim
      exact foldlM_invariant P hcollected (fun e e' m _ he hstep => hexec e e' m he hstep)
        hpays.exec

end NeutronTge.LockdropPcl

namespace NeutronTge.Lockdrops

open CosmWasm Astroport Shares
open Lockdrop (PoolType LockupKey LockupCore Views)

variable {F : Type} {o : Outside F} {c : Lockdrop.PoolSetup (LockdropPcl.World F)}
variable {dep : F → Nat} {rp₀ : RewardPool LockupKey} {w w' : World F}

/-! ### The generator of the XYK pool -/

/-- The deposit of the XYK pool's LP token is what the generator says, and only the XYK
lockdrop's own messages change it, by exactly the amounts they name. -/
structure HonestPool (o : Outside F) (c : Lockdrop.PoolSetup (LockdropPcl.World F))
    (dep : F → Nat) : Prop where
  deposit_eq : ∀ e, c.deposit e = dep e.ext
  deposit : ∀ f, (o.xykQuerier f).deposit c.generator c.lpToken = .ok (dep f)
  withdraw : ∀ f f' amount,
    o.xykExec f (.generatorWithdraw c.generator c.lpToken amount) = .ok f' →
      amount ≤ dep f ∧ dep f' = dep f - amount
  neutral : ∀ f f' m, Lockdrop.Neutral c.lpToken m → o.xykExec f m = .ok f' → dep f' = dep f
  pcl : ∀ f f' m, o.pcl.exec f m = .ok f' → dep f' = dep f

namespace HonestPool

variable {e e' : LockdropPcl.World F}

theorem pclExecute (h : HonestPool o c dep) {info : MessageInfo} {msg : LockdropPcl.ExecuteMsg}
    (hexec : LockdropPcl.World.execute o.pcl e info msg = .ok e') : dep e'.ext = dep e.ext :=
  LockdropPcl.World.execute_ext (P := fun f => dep f = dep e.ext)
    (fun f f' m hf hm => (h.pcl f f' m hm).trans hf) rfl hexec

/-- To the XYK lockdrop the generator is honest, also while lockups are handed over. -/
theorem honest (h : HonestPool o c dep) : c.Honest o.externals where
  deposit e := by
    rw [h.deposit_eq]
    exact h.deposit e.ext
  withdraw e e' amount hexec := by
    obtain ⟨f, hf, hdeliver⟩ := bind_eq_ok.mp hexec
    obtain rfl := Except.ok.inj hdeliver
    rw [h.deposit_eq, h.deposit_eq]
    exact h.withdraw _ _ _ hf
  neutral e e' m hm hexec := by
    replace hexec : deliver o e m = .ok e' := hexec
    unfold deliver at hexec
    rw [bind_eq_ok] at hexec
    obtain ⟨f, hf, hdeliver⟩ := hexec
    rw [h.deposit_eq, h.deposit_eq, ← h.neutral _ _ _ hm hf]
    split at hdeliver
    · split_ifs at hdeliver
      · exact h.pclExecute hdeliver
      · obtain rfl := Except.ok.inj hdeliver
        rfl
    · obtain rfl := Except.ok.inj hdeliver
      rfl

end HonestPool

/-! ### Exits from the XYK lockdrop -/

/-- A migrated lockup of the pool still sits in the PCL lockdrop. -/
def Occupied (w : World F) (p : PoolType) : Prop :=
  ∃ k core, k.poolType = p ∧ w.ext.storage.coreOf k = some core ∧
    core.astroportLpTransferred = none

/-- The owner of the last open lockup that a pool has in the XYK lockdrop unlocks it. -/
def UnlocksLast (p : PoolType) (w : World F) (a : Action F) : Prop :=
  ∃ info key core,
    a = .xyk info (.claimRewardsAndOptionallyUnlock key.poolType key.duration true) ∧
      info.sender = key.user ∧ key.poolType = p ∧ w.storage.coreOf key = some core ∧
      core.astroportLpTransferred = none ∧ core.unlockTimestamp ≤ w.env.time ∧
      ∀ k core', k.poolType = p → k ≠ key → w.storage.coreOf k = some core' →
        core'.astroportLpTransferred ≠ none

/-- He leaves lockups of the pool behind in the PCL lockdrop. -/
def Strands (p : PoolType) (w : World F) (a : Action F) : Prop :=
  UnlocksLast p w a ∧ Occupied w p

/-- Actions of a run in which lockups only claim and leave, and nothing else changes the
deposit at the generator. -/
def Leaving (dep : F → Nat) (w : World F) : Action F → Prop
  | .xyk _ msg => msg.exits = true
  | .drift ext => dep ext = dep w.ext.ext
  | _ => True

/-- When a claim drains the pool, it unlocks the last lockup. -/
theorem unlocksLast_of_evolves {p poolType : PoolType} {duration : Nat} {withdraw : Bool}
    {info : MessageInfo}
    (hevolves : ∀ k, Evolves w w' info
      (.claimRewardsAndOptionallyUnlock poolType duration withdraw) k)
    (hopen : ¬ w.storage.Drained p) (hdrained : w'.storage.Drained p) :
    UnlocksLast p w (.xyk info (.claimRewardsAndOptionallyUnlock poolType duration withdraw)) := by
  have hunlocked : ∀ k core, k.poolType = p → w.storage.coreOf k = some core →
      core.astroportLpTransferred = none →
        Lockdrop.ExecuteMsg.claimRewardsAndOptionallyUnlock poolType duration withdraw =
            .claimRewardsAndOptionallyUnlock k.poolType k.duration true ∧
          info.sender = k.user ∧ core.unlockTimestamp ≤ w.env.time := by
    intro k core hp hcore hnone
    cases hevolves k with
    | still hxyk => exact absurd hnone (hdrained k core hp (hxyk.trans hcore))
    | opened _ _ habsent =>
        rw [hcore] at habsent
        cases habsent
    | kept core₀ core' hcore₀ hxyk _ _ htransferred =>
        obtain rfl := Option.some.inj (hcore.symm.trans hcore₀)
        exact absurd (htransferred.trans hnone) (hdrained k core' hp hxyk)
    | withdrawn _ _ hmsg => cases hmsg
    | unlocked core₀ _ _ hmsg hsender hcore₀ _ hlate =>
        obtain rfl := Option.some.inj (hcore.symm.trans hcore₀)
        exact ⟨hmsg, hsender, hlate⟩
    | handedOver _ _ _ hmsg =>
        obtain ⟨raw, hmsg⟩ := hmsg
        cases hmsg
  unfold Lockdrop.Storage.Drained at hopen
  push Not at hopen
  obtain ⟨k, core, hp, hcore, hnone⟩ := hopen
  obtain ⟨hmsg, hsender, hlate⟩ := hunlocked k core hp hcore hnone
  refine ⟨info, k, core, by rw [hmsg], hsender, hp, hcore, hnone, hlate, ?_⟩
  -- a second open lockup would be unlocked by the same message
  intro j core' hj hne hcore' hnone'
  obtain ⟨hmsg', hsender', -⟩ := hunlocked j core' hj hcore' hnone'
  rw [hmsg] at hmsg'
  injection hmsg' with hpool hduration
  obtain ⟨poolType', user', duration'⟩ := j
  obtain ⟨poolType'', user'', duration''⟩ := k
  obtain rfl : poolType'' = poolType' := hpool
  obtain rfl : duration'' = duration' := hduration
  obtain rfl : user'' = user' := hsender.symm.trans hsender'
  exact hne rfl

/-- What holds of a pool while its lockups leave: before it is drained nothing is staked, and
when it is drained the last migration said to stake, unless nobody is left to stake for. -/
structure Draining (c : Lockdrop.PoolSetup (LockdropPcl.World F)) (rp₀ : RewardPool LockupKey)
    (w : World F) : Prop where
  views : ∃ rp, c.Steps rp₀ rp ∧ Views c w rp
  staked : true ∈ w.stakeFlags c.poolType → w.ext.storage.IsStaked c.poolType
  unstaked : ¬ w.storage.Drained c.poolType → ∀ b ∈ w.stakeFlags c.poolType, b = false
  drained : w.storage.Drained c.poolType →
    (∃ flags, (∀ b ∈ flags, b = false) ∧ w.stakeFlags c.poolType = flags ++ [true]) ∨
      ¬ Occupied w c.poolType

namespace Draining

/-- A step without exits from the pool. -/
theorem frame (h : Draining c rp₀ w) (hviews : ∃ rp, c.Steps rp₀ rp ∧ Views c w' rp)
    (hflags : w'.stakeFlags c.poolType = w.stakeFlags c.poolType)
    (hdrained : w'.storage.Drained c.poolType ↔ w.storage.Drained c.poolType)
    (hoccupied : Occupied w' c.poolType → Occupied w c.poolType)
    (hstaked : w.ext.storage.IsStaked c.poolType → w'.ext.storage.IsStaked c.poolType) :
    Draining c rp₀ w' where
  views := hviews
  staked hmem := hstaked (h.staked (hflags ▸ hmem))
  unstaked hleft := by
    rw [hflags]
    exact h.unstaked fun hgone => hleft (hdrained.mpr hgone)
  drained hgone := by
    rw [hflags]
    exact (h.drained (hdrained.mp hgone)).imp_right fun hempty hocc => hempty (hoccupied hocc)

/-- A step that the XYK lockdrop does not notice. -/
theorem outside (h : Draining c rp₀ w) (hconfig : w'.storage.config = w.storage.config)
    (hpools : w'.storage.assetPools = w.storage.assetPools)
    (hlockups : w'.storage.lockupInfo = w.storage.lockupInfo) (htrace : w'.trace = w.trace)
    (hdeposit : c.deposit w'.ext = c.deposit w.ext)
    (hoccupied : Occupied w' c.poolType → Occupied w c.poolType)
    (hstaked : w.ext.storage.IsStaked c.poolType → w'.ext.storage.IsStaked c.poolType) :
    Draining c rp₀ w' := by
  obtain ⟨rp, hsteps, hviews⟩ := h.views
  have hcores : ∀ k, w'.storage.coreOf k = w.storage.coreOf k :=
    fun k => Lockdrop.coreOf_congr hlockups k
  have hcount : ∀ f, Lockdrop.World.count f w' = Lockdrop.World.count f w := by
    intro f
    unfold Lockdrop.World.count
    rw [htrace]
  have hviews' : Views c w' rp := by
    refine hviews.frame ?_ ?_ ?_ ?_ (fun k _ => hcores k) hdeposit (hcount _) (hcount _) ?_
    · rw [hconfig]
    · rw [hpools]
    · exact fun p pool' _ hpool' => ⟨pool', hpools ▸ hpool', rfl⟩
    · exact fun k => by rw [hcores]
    · unfold Lockdrop.World.lpTaken
      rw [htrace]
  refine h.frame ⟨rp, hsteps, hviews'⟩ ?_ (Lockdrop.drained_congr fun k _ => hcores k) hoccupied
    hstaked
  unfold Lockdrop.World.stakeFlags
  rw [htrace]

/-- The migration of one lockup. -/
theorem migrates (hgen : c.Honest o.externals) (hfunded : c.Funded rp₀) (hknows : KnowsPcl w)
    (h : Draining c rp₀ w) {n : Nat} {key : LockupKey}
    (hstep : Lockdrop.dispatch o.externals n w (.callback
      (.initMigrateLockupToPCLPoolsCallback key.poolType key.user key.duration)) = .ok w') :
    Draining c rp₀ w' := by
  by_cases hne : w' = w
  · rw [hne]
    exact h
  have hmigrates := Lockdrop.migrates_ok hstep
  obtain ⟨core, share, e, funds, lockup, userInfo, stake, pair, ext, msgs, prev, balance, pool,
    weight, hover, hlast⟩ := (migrates_last hknows hmigrates).resolve_left hne
  obtain ⟨rp, hsteps, hviews⟩ := h.views
  obtain ⟨rp', hsteps', hviews'⟩ := hviews.migrates hgen hmigrates
  obtain ⟨hflags, hstake⟩ := hviews'.stakeFlags hgen hstep hne hlast
  have hviewed : ∃ rp, c.Steps rp₀ rp ∧ Views c w' rp := ⟨rp', hsteps.trans hsteps', hviews'⟩
  by_cases hkey : key.poolType = c.poolType
  · -- the pool had an open lockup, so nothing was staked yet
    have hopen : ¬ w.storage.Drained c.poolType := fun hgone =>
      hgone key core hkey hover.core_eq hover.core_open
    have hfalse := h.unstaked hopen
    have hgone := hviews.deposit_eq_zero hfunded hsteps hsteps' hviews' hopen
    rw [if_pos hkey] at hflags
    refine ⟨hviewed, fun hmem => ?_, fun hleft b hb => ?_, fun hdrained => Or.inl ?_⟩
    · rw [hflags, List.mem_append, List.mem_singleton] at hmem
      rcases hmem with hold | hnew
      · cases hfalse _ hold
      · rw [← hkey]
        exact hover.migrates.finishes.staked hnew.symm
    · rw [hflags, List.mem_append, List.mem_singleton] at hb
      rcases hb with hb | rfl
      · exact hfalse b hb
      · rw [hstake hkey]
        exact decide_eq_false fun hzero => hleft (hgone.mp hzero)
    · refine ⟨_, hfalse, ?_⟩
      rw [hflags, hstake hkey, decide_eq_true (hgone.mpr hdrained)]
  · rw [if_neg hkey, List.append_nil] at hflags
    have hne_key : ∀ k : LockupKey, k.poolType = c.poolType → k ≠ key := by
      rintro k hk rfl
      exact hkey hk
    refine h.frame hviewed hflags
      (Lockdrop.drained_congr fun k hk => hover.others k (hne_key k hk)) ?_ fun hstaked => ?_
    · rintro ⟨k, core', hk, hcore', hopen'⟩
      rw [LockdropPcl.coreOf_save hover.migrates.finishes.lockupInfo, if_neg (hne_key k hk),
        hover.same.storage] at hcore'
      exact ⟨k, core', hk, hcore', hopen'⟩
    · refine hover.migrates.finishes.isStaked ?_
      rw [hover.same.storage]
      exact hstaked

/-- A transaction in which lockups claim and leave, and none is left behind by the last. -/
theorem execute (hgen : c.Honest o.externals) (hfunded : c.Funded rp₀) (hknows : KnowsPcl w)
    (h : Draining c rp₀ w) {info : MessageInfo} {msg : Lockdrop.ExecuteMsg}
    (hexits : msg.exits = true) (hstrands : ¬ Strands c.poolType w (.xyk info msg))
    (hexec : Lockdrop.World.execute o.externals w info msg = .ok w') : Draining c rp₀ w' := by
  obtain ⟨rp, hsteps, hviews⟩ := h.views
  obtain ⟨rp', hsteps', hviews'⟩ :=
    hviews.reaches hgen hexits (Lockdrop.reaches_of_execute hexec)
  have hviewed : ∃ rp, c.Steps rp₀ rp ∧ Views c w' rp := ⟨rp', hsteps.trans hsteps', hviews'⟩
  have hevolves := World.execute_evolves hknows hexec
  obtain ⟨r, hr, hrun, hsender⟩ := Lockdrop.execute_ok hexec
  obtain ⟨hevent, heffect⟩ := Lockdrop.execute_effect hsender hr
  have hresponds : (w.respond r).trace = w.trace := by
    simp only [Lockdrop.World.respond, Lockdrop.Response.events, hevent, List.append_nil]
  cases heffect with
  | claim poolType duration withdraw userInfo total t st collect hclaim =>
      obtain ⟨w₁, msgs, pool, lockup, lockup', generator, share, t', rewardMsgs, exitMsgs,
        ntrnMsgs, hcollects, hpays⟩ := Lockdrop.execute_claim_ok hclaim hrun
      have hsame : SamePcl w.ext w'.ext := (collects_same hcollects).trans (pays_same hpays)
      have hflags : w'.stakeFlags c.poolType = w.stakeFlags c.poolType := by
        refine (Lockdrop.stakeFlags_of_moves
          (hcollects.moves.trans (hpays.moves fun _ => rfl))).trans ?_
        unfold Lockdrop.World.stakeFlags
        rw [hresponds]
      have hoccupied : Occupied w' c.poolType ↔ Occupied w c.poolType := by
        unfold Occupied
        rw [hsame.storage]
      have hstaked : w.ext.storage.IsStaked c.poolType → w'.ext.storage.IsStaked c.poolType := by
        rw [hsame.storage]
        exact id
      by_cases hgone : w.storage.Drained c.poolType
      · have hgone' := hviews.drained_mono hsteps' hviews' hgone
        exact h.frame hviewed hflags (iff_of_true hgone' hgone) hoccupied.mp hstaked
      · by_cases hgone' : w'.storage.Drained c.poolType
        · -- the last lockup was unlocked, so nobody may be in the PCL lockdrop
          have hlast := unlocksLast_of_evolves hevolves hgone hgone'
          refine ⟨hviewed, fun hmem => ?_, fun hleft => absurd hgone' hleft, fun _ => Or.inr ?_⟩
          · rw [hflags] at hmem
            cases h.unstaked hgone _ hmem
          · exact fun hocc => hstrands ⟨hlast, hoccupied.mp hocc⟩
        · exact h.frame hviewed hflags (iff_of_false hgone' hgone) hoccupied.mp hstaked
  | migrate raw hsame hmsgs =>
      have hstart : Draining c rp₀ (w.respond r) := by
        refine h.frame ⟨rp, hsteps, hviews.respond hevent hsame⟩ ?_
          (Lockdrop.drained_congr fun k _ => hsame.lockups k) id id
        unfold Lockdrop.World.stakeFlags
        rw [hresponds]
      have hknown : KnowsPcl (w.respond r) := hknows.of_eq hsame.pclLockdropContract rfl
      refine (foldlM_invariant (fun v => KnowsPcl v ∧ Draining c rp₀ v) ⟨hknown, hstart⟩ ?_
        hrun).2
      rintro v v' m hm ⟨hknows, hv⟩ hstep
      obtain ⟨key, rfl⟩ := hmsgs m hm
      exact ⟨hknows.migrates (Lockdrop.migrates_ok hstep),
        hv.migrates hgen hfunded hknows hstep⟩
  | reconfigure msg hmsg =>
      cases msg <;> simp_all [Lockdrop.ExecuteMsg.exits, Lockdrop.ExecuteMsg.reconfigures]
  | increase => cases hexits
  | withdraw => cases hexits
  | initPool => cases hexits
  | setTokenInfo => cases hexits

/-- A transaction of the PCL lockdrop. -/
theorem executePcl (hhonest : HonestPool o c dep) (h : Draining c rp₀ w) {info : MessageInfo}
    {msg : LockdropPcl.ExecuteMsg} {e : LockdropPcl.World F}
    (hsender : info.sender ≠ w.ext.storage.config.xykLockdropContract)
    (hexec : LockdropPcl.World.execute o.pcl w.ext info msg = .ok e) :
    Draining c rp₀ { w with ext := e } := by
  refine h.outside rfl rfl rfl rfl ?_ ?_ (LockdropPcl.World.execute_isStaked hexec)
  · rw [hhonest.deposit_eq, hhonest.deposit_eq]
    exact hhonest.pclExecute hexec
  · rintro ⟨k, core, hk, hcore, hopen⟩
    cases LockdropPcl.World.execute_evolves hsender hexec k with
    | still hsame => exact ⟨k, core, hk, hsame ▸ hcore, hopen⟩
    | paid core₀ _ hcore₀ _ hopen₀ => exact ⟨k, core₀, hk, hcore₀, hopen₀⟩
    | unlocked core₀ _ _ _ _ hcore₀ _ hopen₀ => exact ⟨k, core₀, hk, hcore₀, hopen₀⟩

theorem exec (hhonest : HonestPool o c dep) (hfunded : c.Funded rp₀) (hlinked : Linked w)
    (h : Draining c rp₀ w) {a : Action F} (hleaving : Leaving dep w a)
    (hstrands : ¬ Strands c.poolType w a) (hexec : Lockdrops.exec o w a = .ok w') :
    Draining c rp₀ w' := by
  cases a with
  | advance seconds blocks =>
      obtain rfl := Except.ok.inj hexec
      exact h.outside rfl rfl rfl rfl (by rw [hhonest.deposit_eq, hhonest.deposit_eq]) id id
  | drift ext =>
      obtain rfl := Except.ok.inj hexec
      refine h.outside rfl rfl rfl rfl ?_ id id
      rw [hhonest.deposit_eq, hhonest.deposit_eq]
      exact hleaving
  | migrate =>
      obtain rfl := Except.ok.inj hexec
      exact h.outside rfl rfl rfl rfl rfl id id
  | xyk info msg => exact h.execute hhonest.honest hfunded hlinked.pcl hleaving hstrands hexec
  | pcl info msg =>
      simp only [Lockdrops.exec, bind_eq_ok, rejectIf_eq_ok, exists_const,
        Except.ok.injEq] at hexec
      obtain ⟨hsender, e, hexecute, rfl⟩ := hexec
      rw [← hlinked.xyk] at hsender
      exact h.executePcl hhonest hsender hexecute

/-- Staking comes with the migration that drains the pool. -/
theorem drained_of_mem (h : Draining c rp₀ w) (hmem : true ∈ w.stakeFlags c.poolType) :
    w.storage.Drained c.poolType := by
  by_contra hopen
  cases h.unstaked hopen _ hmem

end Draining

/-! ### After the pool is drained -/

/-- The PCL lockdrop stores no lockup of the pool that it did not store before. -/
def NoneCome (p : PoolType) (e e' : LockdropPcl.World F) : Prop :=
  ∀ k, k.poolType = p → (e'.storage.coreOf k).isSome = true → (e.storage.coreOf k).isSome = true

/-- No lockup of a drained pool comes to the PCL lockdrop. -/
theorem Draining.noneCome (hhonest : HonestPool o c dep) (hlinked : Linked w)
    (h : Draining c rp₀ w) (hgone : w.storage.Drained c.poolType) {a : Action F}
    (hleaving : Leaving dep w a) (hexec : Lockdrops.exec o w a = .ok w') :
    w'.storage.Drained c.poolType ∧ NoneCome c.poolType w.ext w'.ext := by
  cases a with
  | advance seconds blocks =>
      obtain rfl := Except.ok.inj hexec
      exact ⟨hgone, fun _ _ => id⟩
  | drift ext =>
      obtain rfl := Except.ok.inj hexec
      exact ⟨hgone, fun _ _ => id⟩
  | migrate =>
      obtain rfl := Except.ok.inj hexec
      exact ⟨hgone, fun _ _ => id⟩
  | xyk info msg =>
      obtain ⟨rp, -, hviews⟩ := h.views
      obtain ⟨rp', hsteps, hviews'⟩ :=
        hviews.reaches hhonest.honest hleaving (Lockdrop.reaches_of_execute hexec)
      refine ⟨hviews.drained_mono hsteps hviews' hgone, fun k hk hstored => ?_⟩
      cases World.execute_evolves hlinked.pcl hexec k with
      -- only an open XYK lockup could come, and the pool has none left
      | handedOver core _ _ _ hcore hopen => exact absurd hopen (hgone k core hk hcore)
      | still _ hpcl => rwa [hpcl] at hstored
      | opened _ _ _ _ _ hpcl => rwa [hpcl] at hstored
      | kept _ _ _ _ _ _ _ hpcl => rwa [hpcl] at hstored
      | withdrawn _ _ _ _ _ _ _ hpcl => rwa [hpcl] at hstored
      | unlocked _ _ _ _ _ _ _ _ _ _ _ hpcl => rwa [hpcl] at hstored
  | pcl info msg =>
      simp only [Lockdrops.exec, bind_eq_ok, rejectIf_eq_ok, exists_const,
        Except.ok.injEq] at hexec
      obtain ⟨hsender, e, hexecute, rfl⟩ := hexec
      rw [← hlinked.xyk] at hsender
      refine ⟨hgone, fun k _ hstored => ?_⟩
      cases LockdropPcl.World.execute_evolves hsender hexecute k with
      | still hsame => rwa [hsame] at hstored
      | paid _ _ hcore => exact Option.isSome_iff_exists.mpr ⟨_, hcore⟩
      | unlocked _ _ _ _ _ hcore => exact Option.isSome_iff_exists.mpr ⟨_, hcore⟩

/-! ### Runs -/

/-- A pool of the XYK lockdrop before its lockups leave: its LP tokens are staked, its lockups
have units, and none of them came to the PCL lockdrop yet. -/
structure BeforeExits (c : Lockdrop.PoolSetup (LockdropPcl.World F)) (w : World F) : Prop where
  linked : Linked w
  staked : Lockdrop.Staked c w
  units : ∀ k ∈ c.keys, ∀ core, w.storage.coreOf k = some core →
    core.astroportLpTransferred = none → 0 < core.lpUnitsLocked
  deposit : 0 < c.deposit w.ext
  unsent : w.stakeFlags c.poolType = []
  absent : ∀ k, k.poolType = c.poolType → w.ext.storage.coreOf k = none

theorem BeforeExits.funded (h : BeforeExits c w) : c.Funded (c.rewardPool w) where
  units k hk hopen := by
    obtain ⟨core, hcore⟩ := h.staked.views.core_of_mem hk
    rw [Lockdrop.rewardPool_lots hcore] at hopen ⊢
    exact h.units k hk core hcore hopen
  deposit := h.deposit

theorem BeforeExits.draining (h : BeforeExits c w) : Draining c (c.rewardPool w) w where
  views := ⟨_, .refl, h.staked.views⟩
  staked hmem := by
    rw [h.unsent] at hmem
    cases hmem
  unstaked _ b hb := by
    rw [h.unsent] at hb
    cases hb
  drained _ := by
    refine Or.inr ?_
    rintro ⟨k, core, hk, hcore, -⟩
    rw [h.absent k hk] at hcore
    cases hcore

/-- The LP tokens of the PCL pool are staked: one message said so, and it was the last that
brought a lockup. -/
structure StakedWithLast (w : World F) (p : PoolType) : Prop where
  once : (w.stakeFlags p).count true = 1
  last : (w.stakeFlags p).getLast? = some true
  staked : w.ext.storage.IsStaked p

theorem Draining.stakedWithLast (h : Draining c rp₀ w) (hgone : w.storage.Drained c.poolType)
    (hoccupied : Occupied w c.poolType) : StakedWithLast w c.poolType := by
  obtain ⟨flags, hfalse, hflags⟩ := (h.drained hgone).resolve_right (not_not_intro hoccupied)
  have hnone : flags.count true = 0 :=
    List.count_eq_zero.mpr fun hmem => Bool.noConfusion (hfalse true hmem)
  refine ⟨?_, ?_, h.staked ?_⟩
  · rw [hflags, List.count_append, hnone]
    rfl
  · rw [hflags, List.getLast?_concat]
  · rw [hflags]
    exact List.mem_append_right _ List.mem_cons_self

/-- In every order in which the lockups of a pool leave the XYK lockdrop, as long as no unlock
of the last one leaves others behind in the PCL lockdrop: when the pool is drained and a
migrated lockup is still in the PCL lockdrop, exactly one migration said to stake, it was the
last one, and the PCL pool is staked; and after a migration that said so no lockup came. -/
theorem pcl_staked_with_last (hhonest : HonestPool o c dep) (h : BeforeExits c w)
    {as bs : List (Action F)}
    (hleaving : Along (exec o) (fun v a => Leaving dep v a ∧ ¬ Strands c.poolType v a) w
      (as ++ bs)) :
    ((run (exec o) w (as ++ bs)).storage.Drained c.poolType →
      Occupied (run (exec o) w (as ++ bs)) c.poolType →
        StakedWithLast (run (exec o) w (as ++ bs)) c.poolType) ∧
      (true ∈ (run (exec o) w as).stakeFlags c.poolType →
        NoneCome c.poolType (run (exec o) w as).ext (run (exec o) w (as ++ bs)).ext) := by
  have hstep : ∀ (v : World F) (a : Action F) (v' : World F),
      Linked v ∧ Draining c (c.rewardPool w) v → (Leaving dep v a ∧ ¬ Strands c.poolType v a) →
        exec o v a = .ok v' → Linked v' ∧ Draining c (c.rewardPool w) v' :=
    fun v a v' hv ha hexec =>
      ⟨hv.1.exec hexec, hv.2.exec hhonest h.funded hv.1 ha.1 ha.2 hexec⟩
  obtain ⟨hleaving₁, hleaving₂⟩ := (along_append (exec o)).mp hleaving
  have hmiddle := run_invariant_along _ hstep ⟨h.linked, h.draining⟩ hleaving₁
  have hend := run_invariant_along _ hstep ⟨h.linked, h.draining⟩ hleaving
  refine ⟨hend.2.stakedWithLast, fun hmem => ?_⟩
  have hgone := hmiddle.2.drained_of_mem hmem
  rw [run_append]
  refine (run_invariant_along (fun v => (Linked v ∧ Draining c (c.rewardPool w) v) ∧
    v.storage.Drained c.poolType ∧ NoneCome c.poolType (run (exec o) w as).ext v.ext) ?_
    ⟨hmiddle, hgone, fun _ _ => id⟩ hleaving₂).2.2
  rintro v a v' ⟨hv, hgone', hcome⟩ ha hexec
  obtain ⟨hgone'', hcome'⟩ := hv.2.noneCome hhonest hv.1 hgone' ha.1 hexec
  exact ⟨hstep v a v' hv ha hexec, hgone'', fun k hk hstored => hcome k hk (hcome' k hk hstored)⟩

/-! ### Two orders of exits -/

/-- Alice and Bob lock ATOM liquidity, which is staked, and the windows close. -/
def atomLock : List (Action BothChains) :=
  [.xyk ⟨"owner", []⟩ (.setTokenInfo "atom_lp" "usdc_lp" "generator"),
    .xyk ⟨"owner", [⟨Lockdrop.untrnDenom, 600⟩]⟩ .increaseNTRNIncentives,
    .advance 150 10,
    .xyk ⟨"auction", []⟩ (.increaseLockupFor "alice" .atom 200 1),
    .xyk ⟨"auction", []⟩ (.increaseLockupFor "bob" .atom 100 1),
    .xyk ⟨"atom_lp", []⟩ (.receive ⟨"auction", 300, some (.initializePool .atom 10)⟩),
    .advance 101 10]

/-- The two lockdrops after `atomLock`. -/
def atomLocked : World BothChains := run (exec bothOutside) bothStart atomLock

/-- The LP tokens of the ATOM pool at the generator. -/
def atomDeposit (f : BothChains) : Nat := Lockdrop.sampleDeposit f.1

/-- The ATOM pool of the XYK lockdrop. -/
def atomPool : Lockdrop.PoolSetup (LockdropPcl.World BothChains) :=
  .ofWorld atomLocked .atom "generator" "atom_lp" fun e => atomDeposit e.ext

theorem atomPool_honest : HonestPool bothOutside atomPool atomDeposit where
  deposit_eq _ := rfl
  deposit _ := rfl
  withdraw f f' amount h := by
    obtain ⟨xyk, hxyk, h⟩ := bind_eq_ok.mp h
    obtain rfl := Except.ok.inj h
    exact Lockdrop.sampleExternals_honest.withdraw _ _ _ hxyk
  neutral f f' m hm h := by
    obtain ⟨xyk, hxyk, h⟩ := bind_eq_ok.mp h
    obtain rfl := Except.ok.inj h
    exact Lockdrop.sampleExternals_honest.neutral _ _ _ hm hxyk
  pcl f f' m h := by
    obtain ⟨pcl, -, h⟩ := bind_eq_ok.mp h
    obtain rfl := Except.ok.inj h
    rfl

theorem atomLocked_beforeExits : BeforeExits atomPool atomLocked where
  linked := run_invariant Linked (fun _ _ _ hv hexec => hv.exec hexec)
    bothStart_deployed.started.linked
  staked := by
    refine Lockdrop.staked_ofWorld (by decide +kernel)
      ⟨_, rfl, by decide +kernel, by decide +kernel⟩ ?_ (by decide +kernel)
    intro p pool hp hpool
    cases p with
    | atom => exact absurd rfl hp
    | usdc =>
        obtain rfl : _ = pool := Option.some.inj hpool
        decide +kernel
  units _ _ _ hcore _ := Lockdrop.coreOf_forall (P := fun _ core => 0 < core.lpUnitsLocked)
    (by decide +kernel) hcore
  deposit := by decide +kernel
  unsent := by decide +kernel
  absent k _ := by
    have hempty : atomLocked.ext.storage.lockupInfo.entries = [] := by decide +kernel
    rw [LockdropPcl.Storage.coreOf, Option.map_eq_none_iff, Option.eq_none_iff_forall_not_mem]
    intro lockup hk
    have hmem := Map.mem_entries_iff.mpr hk
    rw [hempty] at hmem
    cases hmem

/-- Carol migrates Bob's lockup. -/
def bobComes : List (Action BothChains) :=
  [.migrate, .xyk ⟨"carol", []⟩ (.migrateLiquidityToPCLPools (some "bob"))]

/-- Alice unlocks hers. -/
def aliceUnlocks : Action BothChains :=
  .xyk ⟨"alice", []⟩ (.claimRewardsAndOptionallyUnlock .atom 1 true)

/-- All lockups of the ATOM pool left. -/
theorem atom_drained {v : World BothChains}
    (h : ∀ e ∈ v.storage.lockupInfo.entries, e.1.poolType = .atom →
      e.2.core.astroportLpTransferred ≠ none) : v.storage.Drained .atom :=
  fun _ _ hk hcore => Lockdrop.coreOf_forall
    (P := fun k core => k.poolType = .atom → core.astroportLpTransferred ≠ none) h hcore hk

theorem atom_occupied {v : World BothChains} {user : Addr}
    (h : (v.ext.storage.coreOf ⟨.atom, user, 1⟩).map
      LockdropPcl.LockupCore.astroportLpTransferred = some none) : Occupied v .atom := by
  obtain ⟨core, hcore, hopen⟩ := Option.map_eq_some_iff.mp h
  exact ⟨_, core, rfl, hcore, hopen⟩

theorem pcl_staked_with_last_sample :
    StakedWithLast (run (exec bothOutside) atomLocked
        ((bobComes ++ [aliceFollows]) ++
          [.pcl ⟨"bob", []⟩ (.claimRewardsAndOptionallyUnlock .atom 1 true)])) .atom ∧
      NoneCome .atom (run (exec bothOutside) atomLocked (bobComes ++ [aliceFollows])).ext
        (run (exec bothOutside) atomLocked ((bobComes ++ [aliceFollows]) ++
          [.pcl ⟨"bob", []⟩ (.claimRewardsAndOptionallyUnlock .atom 1 true)])).ext := by
  have hleaving : Along (exec bothOutside)
      (fun v a => Leaving atomDeposit v a ∧ ¬ Strands .atom v a) atomLocked
      ((bobComes ++ [aliceFollows]) ++
        [.pcl ⟨"bob", []⟩ (.claimRewardsAndOptionallyUnlock .atom 1 true)]) := by
    -- nobody unlocks in the XYK lockdrop
    refine ⟨⟨trivial, ?_⟩, ⟨rfl, ?_⟩, ⟨rfl, ?_⟩, ⟨trivial, ?_⟩, trivial⟩ <;>
    · rintro ⟨⟨_, _, _, ha, -⟩, -⟩
      cases ha
  obtain ⟨hstaked, hcome⟩ := pcl_staked_with_last atomPool_honest atomLocked_beforeExits hleaving
  exact ⟨hstaked (atom_drained (by decide +kernel)) (@atom_occupied _ "alice" (by decide +kernel)),
    hcome (by decide +kernel)⟩

/-- When Alice unlocks after Bob's lockup came, nobody stakes his LP tokens. -/
theorem unstaked_after_unlock :
    HonestPool bothOutside atomPool atomDeposit ∧ BeforeExits atomPool atomLocked ∧
      Along (exec bothOutside) (Leaving atomDeposit) atomLocked (bobComes ++ [aliceUnlocks]) ∧
      ∃ v, run (exec bothOutside) atomLocked (bobComes ++ [aliceUnlocks]) = v ∧
        v.storage.Drained .atom ∧ Occupied v .atom ∧ v.stakeFlags .atom = [false] ∧
        ¬ v.ext.storage.IsStaked .atom := by
  refine ⟨atomPool_honest, atomLocked_beforeExits, ⟨trivial, rfl, rfl, trivial⟩, _, rfl,
    atom_drained (by decide +kernel), @atom_occupied _ "bob" (by decide +kernel),
    by decide +kernel, ?_⟩
  rintro ⟨pool, hpool, hstaked⟩
  have hunstaked : ((run (exec bothOutside) atomLocked
      (bobComes ++ [aliceUnlocks])).ext.storage.assetPools.mayLoad .atom).map
        LockdropPcl.PoolInfo.isStaked = some false := by
    decide +kernel
  rw [hpool, Option.map_some, hstaked] at hunstaked
  cases hunstaked

end NeutronTge.Lockdrops
