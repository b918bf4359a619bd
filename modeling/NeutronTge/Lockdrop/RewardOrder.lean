import NeutronTge.Lockdrop.Division

/-!
# NeutronTge.Lockdrop.RewardOrder

The one-time reward and the order of claims and pool initializations. A user is paid once,
by his first claim, and gets what `userIncentives` is at that moment. When his first claim
comes after both pools were initialized, this is the part of the final shares, in every
order; a claim that comes before pays less, or nothing, and sets `ntrn_transferred` for good.
-/

namespace NeutronTge.Lockdrop

open CosmWasm Astroport Shares

variable {E : Type} {x : Externals E} {q : Querier} {s s' t : Storage} {w w' : World E}

/-! ### What was paid -/

/-- What an event pays a user as his one-time reward. -/
def Event.lockdropPaid (u : Addr) : Event → Nat
  | .sent (.bankSend .lockdropReward toAddress coin) =>
      if toAddress = u then coin.amount else 0
  | _ => 0

/-- The one-time reward a user has received. -/
def World.lockdropPaid (w : World E) (u : Addr) : Nat := w.count (Event.lockdropPaid u)

theorem lockdropPaid_baseRewardMsg (u : Addr) (p : PoolType) (user : Addr) (token : String)
    (pending : Nat) :
    countSent (Event.lockdropPaid u) (baseRewardMsg p user token pending) = 0 := by
  unfold baseRewardMsg
  split_ifs <;> rfl

theorem lockdropPaid_transfers (u : Addr) (proxy : List Asset) (user : Addr) :
    countSent (Event.lockdropPaid u) (proxy.map fun asset => .transfer (asset.intoMsg user)) =
      0 := by
  refine countSent_eq_zero fun m hm => ?_
  obtain ⟨asset, -, rfl⟩ := List.mem_map.mp hm
  rfl

theorem PaysRewards.lockdropPaid {key : LockupKey} {lockup lockup' : LockupInfoV2}
    {pool : PoolInfo} {generator : Addr} {share : Nat} {withdraw : Bool}
    {msgs : List CosmosMsg} (u : Addr)
    (h : PaysRewards key lockup pool generator share withdraw lockup' msgs) :
    countSent (Event.lockdropPaid u) msgs = 0 := by
  cases h with
  | unstaked => rfl
  | staked =>
      rw [countSent_append, countSent_append, lockdropPaid_baseRewardMsg,
        lockdropPaid_transfers]
      split_ifs <;> rfl

theorem StoresOrCloses.lockdropPaid {height : Nat} {key : LockupKey} {pool : PoolInfo}
    {lockup : LockupInfoV2} {amount : Nat} {withdraw : Bool} {msgs : List CosmosMsg} (u : Addr)
    (h : StoresOrCloses s height key pool lockup amount withdraw t msgs) :
    countSent (Event.lockdropPaid u) msgs = 0 := by
  cases h <;> rfl

/-- The stored total is paid, to the user himself, unless the flag is set. -/
theorem PaysNtrn.lockdropPaid {user : Addr} {userInfo : UserInfo} {msgs : List CosmosMsg}
    (u : Addr) (h : PaysNtrn s user userInfo s' msgs) :
    countSent (Event.lockdropPaid u) msgs =
      if userInfo.ntrnTransferred = false ∧ user = u then userInfo.totalNtrnRewards else 0 := by
  cases h with
  | already hflag => simp [hflag]
  | now airdrop hflag hairdrop =>
      have hburn : countSent (Event.lockdropPaid u) airdrop = 0 := by
        refine countSent_eq_zero fun m hm => ?_
        obtain ⟨amount, rfl⟩ := hairdrop m hm
        rfl
      rw [countSent_append, hburn]
      unfold lockdropRewardMsg
      split_ifs with hpos huser huser
      · simp [countSent, Event.lockdropPaid, huser.2]
      · have hne : user ≠ u := fun heq => huser ⟨hflag, heq⟩
        simp [countSent, Event.lockdropPaid, hne]
      · simp only [countSent_nil]
        omega
      · rfl

/-! ### The other users -/

/-- The records of a user are the same. -/
structure Untouched (u : Addr) (s s' : Storage) : Prop where
  userInfo : s'.userInfo.mayLoad u = s.userInfo.mayLoad u
  lockups : ∀ k : LockupKey, k.user = u → s'.lockupInfo.mayLoad k = s.lockupInfo.mayLoad k

namespace Untouched

variable {u : Addr}

theorem refl (u : Addr) (s : Storage) : Untouched u s s := ⟨rfl, fun _ _ => rfl⟩

theorem trans (h : Untouched u s t) (h' : Untouched u t s') : Untouched u s s' :=
  ⟨h'.userInfo.trans h.userInfo, fun k hk => (h'.lockups k hk).trans (h.lockups k hk)⟩

theorem of_eq (huser : s'.userInfo = s.userInfo) (hlockups : s'.lockupInfo = s.lockupInfo) :
    Untouched u s s' :=
  ⟨by rw [huser], fun _ _ => by rw [hlockups]⟩

/-- A lockup of another user is stored. -/
theorem saveLockup {key : LockupKey} {st : StoredLockup} (hne : u ≠ key.user)
    (huser : s'.userInfo = s.userInfo) (hlockups : s'.lockupInfo = s.lockupInfo.save key st) :
    Untouched u s s' := by
  refine ⟨by rw [huser], fun k hk => ?_⟩
  rw [hlockups, Map.mayLoad_save_ne]
  rintro rfl
  exact hne hk.symm

/-- Another user is stored. -/
theorem saveUser {v : Addr} {userInfo : UserInfo} (hne : u ≠ v)
    (huser : s'.userInfo = s.userInfo.save v userInfo)
    (hlockups : s'.lockupInfo = s.lockupInfo) : Untouched u s s' :=
  ⟨by rw [huser, Map.mayLoad_save_ne hne], fun _ _ => by rw [hlockups]⟩

theorem user (h : Untouched u s s') : s'.user u = s.user u := by
  unfold Storage.user
  rw [h.userInfo]

end Untouched

theorem Rewarded.untouched {key : LockupKey} {reward : Nat} {u : Addr}
    (h : Rewarded s key reward s') (hne : u ≠ key.user) : Untouched u s s' := by
  cases h with
  | stored => exact .refl u s
  | computed => exact .saveLockup hne rfl rfl

theorem FindsTotal.untouched {v u : Addr} {userInfo : UserInfo} {total : Nat}
    (h : FindsTotal q s v userInfo total t) (hne : u ≠ v) : Untouched u s t := by
  cases h with
  | stored => exact .refl u s
  | computed _ _ _ hupdate =>
      unfold updateUserLockupPositionsAndCalcRewards at hupdate
      refine addAmounts_relation (R := Untouched u) (.refl u) (fun _ _ _ => Untouched.trans) ?_
        hupdate
      intro t key reward t' hkey hreward
      refine (updateLockupReward_ok hreward).untouched ?_
      rwa [user_of_mem_userLockupKeys hkey]

theorem StoresOrCloses.untouched {height : Nat} {key : LockupKey} {pool : PoolInfo}
    {lockup : LockupInfoV2} {amount : Nat} {withdraw : Bool} {msgs : List CosmosMsg} {u : Addr}
    (h : StoresOrCloses s height key pool lockup amount withdraw t msgs) (hne : u ≠ key.user) :
    Untouched u s t := by
  cases h with
  | stored => exact .saveLockup hne rfl rfl
  | closed _ hcloses => exact .saveLockup hne hcloses.userInfo hcloses.lockupInfo

theorem PaysNtrn.untouched {v u : Addr} {userInfo : UserInfo} {msgs : List CosmosMsg}
    (h : PaysNtrn s v userInfo s' msgs) (hne : u ≠ v) : Untouched u s s' := by
  cases h with
  | already => exact .refl u s
  | now => exact .saveUser hne rfl rfl

/-! ### A claim -/

/-- Nothing of a user's one-time reward was computed or paid. -/
structure Unpaid (s : Storage) (u : Addr) : Prop where
  total : (s.user u).totalNtrnRewards = 0
  transferred : (s.user u).ntrnTransferred = false
  lockups : ∀ k st, k.user = u → s.lockupInfo.mayLoad k = some st → st.ntrnRewards = 0

theorem Unpaid.untouched {u : Addr} (h : Unpaid s u) (huser : Untouched u s s') : Unpaid s' u where
  total := by rw [huser.user, h.total]
  transferred := by rw [huser.user, h.transferred]
  lockups k st hk hst := h.lockups k st hk (by rwa [← huser.lockups k hk])

theorem Unpaid.upToDate {u : Addr} (h : Unpaid s u) : UpToDate s u :=
  fun k st hk hst => Or.inl (h.lockups k st hk hst)

/-- A user is not concerned. -/
structure Passes (u : Addr) (w w' : World E) : Prop extends
    Untouched u w.storage w'.storage where
  paid : w'.lockdropPaid u = w.lockdropPaid u

/-- A user claims: if he was not paid before, he gets the parts of all his lockups, and the
flag is set. -/
structure Claimed (v : Addr) (w w' : World E) : Prop where
  transferred : (w'.storage.user v).ntrnTransferred = true
  again : (w.storage.user v).ntrnTransferred = true → w'.lockdropPaid v = w.lockdropPaid v
  first : Unpaid w.storage v →
    w'.lockdropPaid v = w.lockdropPaid v + w.storage.userIncentives v

theorem StoresOrCloses.sameDivision {height : Nat} {key : LockupKey} {pool : PoolInfo}
    {lockup : LockupInfoV2} {amount : Nat} {withdraw : Bool} {msgs : List CosmosMsg}
    {core : LockupCore}
    (h : StoresOrCloses s height key pool lockup amount withdraw t msgs)
    (hpool : s.assetPools.mayLoad key.poolType = some pool) (hcore : s.coreOf key = some core)
    (hunits : lockup.lpUnitsLocked = core.lpUnitsLocked) : SameDivision s t := by
  cases h with
  | stored =>
      exact ⟨rfl, rfl, fun _ => rfl, SameDivision.saveLockup hcore hunits rfl⟩
  | closed _ hcloses => exact hcloses.sameDivision hpool hcore hunits

theorem Collects.sameDivision {p : PoolType} (h : Collects x p w w') :
    SameDivision w.storage w'.storage := by
  cases h with
  | nothing => exact .refl _
  | booked _ _ _ _ _ _ _ _ _ _ hbooks => exact hbooks.sameDivision

theorem Collects.lockdropPaid {p : PoolType} (h : Collects x p w w') (u : Addr) :
    w'.lockdropPaid u = w.lockdropPaid u := by
  cases h with
  | nothing => rfl
  | booked => exact (count_append rfl).trans (by simp [Event.lockdropPaid, World.lockdropPaid])

theorem Pays.sameDivision {key : LockupKey} {withdraw : Bool} {msgs : List CosmosMsg}
    {pool : PoolInfo} {lockup lockup' : LockupInfoV2} {generator : Addr} {share : Nat}
    {rewardMsgs exitMsgs ntrnMsgs : List CosmosMsg}
    (h : Pays x w w' key withdraw msgs pool lockup lockup' generator share t rewardMsgs exitMsgs
      ntrnMsgs) : SameDivision w.storage w'.storage := by
  have hout := h.paysOut
  have hindex : (w.storage.user key.user).lockupPositionsIndex =
      (t.user key.user).lockupPositionsIndex := by rw [user_congr hout.exits.userInfo]
  exact (hout.exits.sameDivision hout.pool_eq (coreOf_of_load hout.lockup_eq)
    hout.rewards.lockup.1).trans (hout.ntrn.sameBooks hindex).sameDivision

theorem Pays.untouched {key : LockupKey} {withdraw : Bool} {msgs : List CosmosMsg}
    {pool : PoolInfo} {lockup lockup' : LockupInfoV2} {generator : Addr} {share : Nat}
    {rewardMsgs exitMsgs ntrnMsgs : List CosmosMsg} {u : Addr}
    (h : Pays x w w' key withdraw msgs pool lockup lockup' generator share t rewardMsgs exitMsgs
      ntrnMsgs) (hne : u ≠ key.user) : Untouched u w.storage w'.storage :=
  (h.paysOut.exits.untouched hne).trans (h.paysOut.ntrn.untouched hne)

theorem Pays.lockdropPaid {key : LockupKey} {withdraw : Bool} {msgs : List CosmosMsg}
    {pool : PoolInfo} {lockup lockup' : LockupInfoV2} {generator : Addr} {share : Nat}
    {rewardMsgs exitMsgs ntrnMsgs : List CosmosMsg}
    (h : Pays x w w' key withdraw msgs pool lockup lockup' generator share t rewardMsgs exitMsgs
      ntrnMsgs) (u : Addr) :
    w'.lockdropPaid u = w.lockdropPaid u +
      if (w.storage.user key.user).ntrnTransferred = false ∧ key.user = u then
        (w.storage.user key.user).totalNtrnRewards else 0 := by
  have hout := h.paysOut
  unfold World.lockdropPaid
  rw [count_sent h.trace, hout.messages, countSent_append, countSent_append,
    hout.rewards.lockdropPaid, hout.exits.lockdropPaid, hout.ntrn.lockdropPaid, Nat.zero_add]

/-- The total of a claim of an unpaid user, and the storage his claim is paid from. -/
theorem StartsClaim.unpaid {env : Env} {key : LockupKey} {withdraw : Bool}
    {msgs : List CosmosMsg} {userInfo : UserInfo} {total : Nat} {st : StoredLockup}
    {collect : List CosmosMsg}
    (h : StartsClaim q s s' env key withdraw msgs userInfo total t st collect)
    (hunpaid : Unpaid s key.user) : total = s.userIncentives key.user := by
  have htotal := hunpaid.total
  rw [user_eq_of_load h.user_eq] at htotal
  have hfinds := h.finds
  cases hfinds with
  | stored hne => exact absurd htotal hne
  | computed _ _ _ hupdate =>
      exact updateUserLockupPositionsAndCalcRewards_total hupdate hunpaid.upToDate

theorem StartsClaim.user {env : Env} {key : LockupKey} {withdraw : Bool}
    {msgs : List CosmosMsg} {userInfo : UserInfo} {total : Nat} {st : StoredLockup}
    {collect : List CosmosMsg}
    (h : StartsClaim q s s' env key withdraw msgs userInfo total t st collect) :
    s'.user key.user = { s.user key.user with totalNtrnRewards := total } := by
  rw [user_eq_of_load h.user_eq, h.storage]
  exact user_eq_of_load (Map.mayLoad_save _ _ _)

theorem StartsClaim.untouched {env : Env} {key : LockupKey} {withdraw : Bool}
    {msgs : List CosmosMsg} {userInfo : UserInfo} {total : Nat} {st : StoredLockup}
    {collect : List CosmosMsg} {u : Addr}
    (h : StartsClaim q s s' env key withdraw msgs userInfo total t st collect)
    (hne : u ≠ key.user) : Untouched u s s' := by
  refine (h.finds.untouched hne).trans ?_
  rw [h.storage]
  exact .saveUser hne rfl rfl

theorem World.lockdropPaid_respond {r : Response} (hevent : r.ntrnRewardReceived = none)
    (u : Addr) : (w.respond r).lockdropPaid u = w.lockdropPaid u := by
  simp only [World.lockdropPaid, World.count, World.respond, Response.events, hevent,
    List.append_nil]

/-- A claim: its sender is paid, nobody else is concerned, and the parts stay. -/
theorem claims_ok {info : MessageInfo} {poolType : PoolType} {duration : Nat} {withdraw : Bool}
    {r : Response} {userInfo : UserInfo} {total : Nat} {st : StoredLockup}
    {collect : List CosmosMsg} (hevent : r.ntrnRewardReceived = none)
    (hclaim : StartsClaim (x.querier w.ext) w.storage r.storage w.env
      ⟨poolType, info.sender, duration⟩ withdraw r.messages userInfo total t st collect)
    (h : r.messages.foldlM (dispatch x callDepth) (w.respond r) = .ok w') :
    SameDivision w.storage w'.storage ∧ Claimed info.sender w w' ∧
      ∀ u, u ≠ info.sender → Passes u w w' := by
  obtain ⟨w₁, msgs, pool, lockup, lockup', generator, share, t', rewardMsgs, exitMsgs, ntrnMsgs,
    hcollects, hpays⟩ := execute_claim_ok hclaim h
  obtain ⟨-, hlockups, husers, -, -⟩ := hcollects.frame
  have hdivision := hclaim.sameBooks.sameDivision.trans
    (hcollects.sameDivision.trans hpays.sameDivision)
  have hsender : w₁.storage.user info.sender =
      { w.storage.user info.sender with totalNtrnRewards := total } := by
    rw [user_congr husers]
    exact hclaim.user
  have hpaid : ∀ u, w'.lockdropPaid u = w.lockdropPaid u +
      if (w.storage.user info.sender).ntrnTransferred = false ∧ info.sender = u then total
      else 0 := by
    intro u
    rw [hpays.lockdropPaid, hcollects.lockdropPaid, World.lockdropPaid_respond hevent]
    dsimp only
    rw [hsender]
  refine ⟨hdivision, ⟨?_, ?_, ?_⟩, fun u hne => ⟨?_, ?_⟩⟩
  · refine hpays.paysOut.ntrn.transferred ?_
    rw [user_congr hpays.paysOut.exits.userInfo]
  · intro hflag
    rw [hpaid, hflag]
    rfl
  · intro hunpaid
    rw [hpaid, if_pos ⟨hunpaid.transferred, rfl⟩, hclaim.unpaid hunpaid]
  · exact (hclaim.untouched hne).trans
      ((Untouched.of_eq husers hlockups).trans (hpays.untouched hne))
  · rw [hpaid, if_neg fun hc => hne hc.2.symm, Nat.add_zero]

/-! ### Initialized pools -/

/-- The shares after some pools were initialized: these pools have the given shares, the
others keep theirs, the total grew by the given shares, weights and units are the same. -/
structure Shared (s s' : Storage) (inits : List (PoolType × Nat)) : Prop where
  config : s'.config = s.config
  total : s'.state.totalIncentivesShare =
    s.state.totalIncentivesShare + (inits.map Prod.snd).sum
  weights : ∀ p, (s'.assetPools.mayLoad p).map PoolInfo.weightedAmount =
    (s.assetPools.mayLoad p).map PoolInfo.weightedAmount
  given : ∀ p share, (p, share) ∈ inits →
    (s'.assetPools.mayLoad p).map PoolInfo.incentivesShare = some share
  kept : ∀ p, p ∉ inits.map Prod.fst →
    (s'.assetPools.mayLoad p).map PoolInfo.incentivesShare =
      (s.assetPools.mayLoad p).map PoolInfo.incentivesShare
  units : ∀ k, (s'.coreOf k).map LockupCore.lpUnitsLocked =
    (s.coreOf k).map LockupCore.lpUnitsLocked

namespace Shared

variable {inits inits' : List (PoolType × Nat)}

theorem of_sameDivision (h : SameDivision s s') : Shared s s' [] where
  config := h.config
  total := by rw [h.state]; rfl
  weights p := by
    have hp := congrArg (Option.map Prod.fst) (h.pools p)
    simpa only [Option.map_map, Function.comp_def] using hp
  given p share hmem := absurd hmem List.not_mem_nil
  kept p _ := by
    have hp := congrArg (Option.map Prod.snd) (h.pools p)
    simpa only [Option.map_map, Function.comp_def] using hp
  units := h.units

theorem trans (h : Shared s t inits) (h' : Shared t s' inits')
    (hnodup : ((inits ++ inits').map Prod.fst).Nodup) : Shared s s' (inits ++ inits') where
  config := h'.config.trans h.config
  total := by
    rw [h'.total, h.total, List.map_append, List.sum_append, Nat.add_assoc]
  weights p := (h'.weights p).trans (h.weights p)
  given p share hmem := by
    rw [List.map_append, List.nodup_append] at hnodup
    rcases List.mem_append.mp hmem with hfirst | hsecond
    · have hnot : p ∉ inits'.map Prod.fst := fun hp =>
        hnodup.2.2 p (List.mem_map_of_mem hfirst) p hp rfl
      rw [h'.kept p hnot, h.given p share hfirst]
    · exact h'.given p share hsecond
  kept p hp := by
    rw [List.map_append, List.mem_append, not_or] at hp
    rw [h'.kept p hp.2, h.kept p hp.1]
  units k := (h'.units k).trans (h.units k)

/-- The same initializations in another order lead to the same parts. -/
theorem sameDivision (h : Shared s t inits) (h' : Shared s s' inits')
    (hperm : inits.Perm inits') : SameDivision t s' where
  config := h'.config.trans h.config.symm
  state := by
    have htotal : s'.state.totalIncentivesShare = t.state.totalIncentivesShare := by
      rw [h'.total, h.total, (hperm.map Prod.snd).sum_eq]
    cases hs : s'.state
    cases ht : t.state
    simpa [hs, ht] using htotal
  pools p := by
    have hweight := (h'.weights p).trans (h.weights p).symm
    have hshare : (s'.assetPools.mayLoad p).map PoolInfo.incentivesShare =
        (t.assetPools.mayLoad p).map PoolInfo.incentivesShare := by
      by_cases hp : p ∈ inits.map Prod.fst
      · obtain ⟨⟨_, share⟩, hmem, rfl⟩ := List.mem_map.mp hp
        rw [h.given _ share hmem, h'.given _ share (hperm.mem_iff.mp hmem)]
      · rw [h.kept p hp, h'.kept p fun hp' => hp ((hperm.map Prod.fst).mem_iff.mpr hp')]
    cases ht : t.assetPools.mayLoad p <;> cases hs : s'.assetPools.mayLoad p <;>
      simp_all
  units k := (h'.units k).trans (h.units k).symm

end Shared

theorem Initializes.shared {env : Env} {p : PoolType} {share amount : Nat} {pool : PoolInfo}
    {msgs : List CosmosMsg} (h : Initializes s s' env p share amount pool msgs) :
    Shared s s' [(p, share)] := by
  obtain rfl := h.storage
  refine ⟨rfl, rfl, fun p' => ?_, fun p' share' hmem => ?_, fun p' hp' => ?_, fun _ => rfl⟩
  · by_cases hp : p' = p
    · rw [hp, SnapshotMap.mayLoad_save, h.pool_eq]
      rfl
    · rw [SnapshotMap.mayLoad_save_ne hp]
  · obtain ⟨rfl, rfl⟩ := Prod.mk.inj (List.mem_singleton.mp hmem)
    rw [SnapshotMap.mayLoad_save]
    rfl
  · have hp : p' ≠ p := by simpa using hp'
    rw [SnapshotMap.mayLoad_save_ne hp]

/-! ### Runs of initializations and claims -/

/-- A message and who sends it. -/
abbrev Operation := MessageInfo × ExecuteMsg

/-- The pool that an operation initializes and the share it gets. -/
def Operation.poolShare : Operation → Option (PoolType × Nat)
  | (_, .receive ⟨_, _, some (.initializePool poolType share)⟩) => some (poolType, share)
  | _ => none

/-- The user who claims. -/
def Operation.claimant : Operation → Option Addr
  | (info, .claimRewardsAndOptionallyUnlock _ _ _) => some info.sender
  | _ => none

theorem Operation.of_reconfigures (info : MessageInfo) {msg : ExecuteMsg}
    (h : msg.reconfigures = true) :
    Operation.poolShare (info, msg) = none ∧ Operation.claimant (info, msg) = none := by
  cases msg <;> first | exact ⟨rfl, rfl⟩ | cases h

/-- The operation of an action, when it is a message. -/
def Action.operation : Action E → Option Operation
  | .execute info msg => some (info, msg)
  | _ => none

/-- The messages of a run, without what happens around the lockdrop. -/
def operations (as : List (Action E)) : List Operation := as.filterMap Action.operation

/-- The shares that a run gives out. -/
def poolShares (as : List (Action E)) : List (PoolType × Nat) :=
  (operations as).filterMap Operation.poolShare

/-- What an action does when it is an `InitializePool`, a claim, or no message at all. -/
inductive Happens (w w' : World E) : Option Operation → Prop
  | around (hdivision : SameDivision w.storage w'.storage) (husers : ∀ u, Passes u w w') :
      Happens w w' none
  | initialized (info : MessageInfo) (sender : Addr) (amount : Nat) (p : PoolType) (share : Nat)
      (hshared : Shared w.storage w'.storage [(p, share)]) (husers : ∀ u, Passes u w w') :
      Happens w w' (some (info, .receive ⟨sender, amount, some (.initializePool p share)⟩))
  | claimed (info : MessageInfo) (p : PoolType) (duration : Nat) (withdraw : Bool)
      (hdivision : SameDivision w.storage w'.storage) (hclaimed : Claimed info.sender w w')
      (hothers : ∀ u, u ≠ info.sender → Passes u w w') :
      Happens w w' (some (info, .claimRewardsAndOptionallyUnlock p duration withdraw))

theorem Initializes.lockdropPaid {env : Env} {p : PoolType} {share amount : Nat} {pool : PoolInfo}
    {msgs : List CosmosMsg} (u : Addr) (h : Initializes s s' env p share amount pool msgs) :
    countSent (Event.lockdropPaid u) msgs = 0 := by
  obtain ⟨generator, height, -, rfl⟩ := h.messages
  rfl

theorem passes_of_storage {u : Addr} (huser : w'.storage.userInfo = w.storage.userInfo)
    (hlockups : w'.storage.lockupInfo = w.storage.lockupInfo) (htrace : w'.trace = w.trace) :
    Passes u w w' where
  toUntouched := .of_eq huser hlockups
  paid := by rw [World.lockdropPaid, World.count, htrace]; rfl

theorem exec_happens {a : Action E}
    (hallowed : ∀ op, a.operation = some op → op.poolShare.isSome ∨ op.claimant.isSome)
    (hexec : World.exec x w a = .ok w') : Happens w w' a.operation := by
  cases a with
  | advance seconds blocks =>
      obtain rfl := Except.ok.inj hexec
      exact .around (.refl _) fun u => passes_of_storage rfl rfl rfl
  | drift ext =>
      obtain rfl := Except.ok.inj hexec
      exact .around (.refl _) fun u => passes_of_storage rfl rfl rfl
  | migrate pclLockdropContract =>
      obtain rfl := Except.ok.inj hexec
      exact .around ⟨rfl, rfl, fun _ => rfl, fun _ => rfl⟩
        fun u => passes_of_storage rfl rfl rfl
  | execute info msg =>
      obtain ⟨r, hr, hrun, hsender⟩ := execute_ok hexec
      obtain ⟨hevent, heffect⟩ := execute_effect hsender hr
      have hallowed := hallowed (info, msg) rfl
      cases heffect with
      | initPool p share sender amount pool hauction hinit =>
          obtain ⟨ext, -, rfl⟩ := externals_ok hinit.external hrun
          refine .initialized info sender amount p share hinit.shared fun u => ⟨?_, ?_⟩
          · exact .of_eq (by rw [World.respond, hinit.storage])
              (by rw [World.respond, hinit.storage])
          · refine (count_sent rfl).trans ?_
            rw [hinit.lockdropPaid u, Nat.add_zero]
            exact World.lockdropPaid_respond hevent u
      | claim p duration withdraw userInfo total t st collect hclaim =>
          obtain ⟨hdivision, hclaimed, hothers⟩ := claims_ok hevent hclaim hrun
          exact .claimed info p duration withdraw hdivision hclaimed hothers
      | reconfigure msg hmsg =>
          obtain ⟨hshare, hclaimant⟩ := Operation.of_reconfigures info hmsg
          rw [hshare, hclaimant] at hallowed
          rcases hallowed with hsome | hsome <;> cases hsome
      | increase | withdraw | setTokenInfo | migrate =>
          rcases hallowed with hsome | hsome <;> cases hsome

namespace Happens

variable {op : Option Operation}

theorem shared (h : Happens w w' op) :
    Shared w.storage w'.storage (op.bind Operation.poolShare).toList := by
  cases h with
  | around hdivision => exact .of_sameDivision hdivision
  | initialized _ _ _ _ _ hshared => exact hshared
  | claimed _ _ _ _ hdivision => exact .of_sameDivision hdivision

theorem claimed_of_eq {u : Addr} (h : Happens w w' op)
    (hclaim : op.bind Operation.claimant = some u) : Claimed u w w' := by
  cases h with
  | around => cases hclaim
  | initialized => cases hclaim
  | claimed _ _ _ _ _ hclaimed =>
      obtain rfl := Option.some.inj hclaim
      exact hclaimed

theorem passes_of_ne {u : Addr} (h : Happens w w' op)
    (hclaim : op.bind Operation.claimant ≠ some u) : Passes u w w' := by
  cases h with
  | around _ husers => exact husers u
  | initialized _ _ _ _ _ _ husers => exact husers u
  | claimed _ _ _ _ _ _ hothers => exact hothers u fun heq => hclaim (congrArg some heq.symm)

end Happens

/-- The messages of a run are `InitializePool` and claims. -/
def OnlyClaims (as : List (Action E)) : Prop :=
  ∀ op ∈ operations as, op.poolShare.isSome ∨ op.claimant.isSome

/-- The user claims in the run. -/
def ClaimsIn (u : Addr) (as : List (Action E)) : Prop :=
  ∃ op ∈ operations as, op.claimant = some u

/-- No pool is initialized after a claim of the user. -/
def ClaimsLast (u : Addr) (as : List (Action E)) : Prop :=
  (operations as).Pairwise fun op op' => op.claimant = some u → op'.poolShare = none

section Runs

variable {a : Action E} {as bs : List (Action E)} {u : Addr}

theorem operations_cons (a : Action E) (as : List (Action E)) :
    operations (a :: as) = a.operation.toList ++ operations as := by
  unfold operations
  cases h : a.operation <;> simp [h]

theorem operations_append (as bs : List (Action E)) :
    operations (as ++ bs) = operations as ++ operations bs := List.filterMap_append

theorem poolShares_cons (a : Action E) (as : List (Action E)) :
    poolShares (a :: as) = (a.operation.bind Operation.poolShare).toList ++ poolShares as := by
  unfold poolShares
  rw [operations_cons, List.filterMap_append]
  congr 1
  cases a.operation with
  | none => rfl
  | some op => cases h : op.poolShare <;> simp [h]

theorem OnlyClaims.cons (h : OnlyClaims (a :: as)) :
    (∀ op, a.operation = some op → op.poolShare.isSome ∨ op.claimant.isSome) ∧
      OnlyClaims as := by
  unfold OnlyClaims at h ⊢
  rw [operations_cons] at h
  refine ⟨fun op hop => h op ?_, fun op hop => h op (List.mem_append_right _ hop)⟩
  rw [hop]
  exact List.mem_append_left _ List.mem_cons_self

theorem not_claimsIn_nil : ¬ ClaimsIn u ([] : List (Action E)) := by
  rintro ⟨op, hop, -⟩
  cases hop

theorem claimsIn_cons :
    ClaimsIn u (a :: as) ↔ a.operation.bind Operation.claimant = some u ∨ ClaimsIn u as := by
  unfold ClaimsIn
  rw [operations_cons]
  cases a.operation with
  | none => simp
  | some op => simp

/-- The first action happens and the rest of the run follows. -/
theorem run_cons_ok (honly : OnlyClaims (a :: as))
    (h : (a :: as).foldlM (World.exec x) w = .ok w') :
    ∃ v, World.exec x w a = .ok v ∧ Happens w v a.operation ∧ OnlyClaims as ∧
      as.foldlM (World.exec x) v = .ok w' := by
  obtain ⟨v, hexec, hrest⟩ := foldlM_cons_ok.mp h
  exact ⟨v, hexec, exec_happens honly.cons.1 hexec, honly.cons.2, hrest⟩

/-- A run gives out its shares. -/
theorem shared_of_run : ∀ {as : List (Action E)} {w : World E}, OnlyClaims as →
    ((poolShares as).map Prod.fst).Nodup → as.foldlM (World.exec x) w = .ok w' →
      Shared w.storage w'.storage (poolShares as) := by
  intro as
  induction as with
  | nil =>
      intro w _ _ h
      obtain rfl := Except.ok.inj h
      exact .of_sameDivision (.refl _)
  | cons a as ih =>
      intro w honly hnodup h
      obtain ⟨v, -, hhappens, honly', hrest⟩ := run_cons_ok honly h
      rw [poolShares_cons] at hnodup ⊢
      refine hhappens.shared.trans (ih honly' ?_ hrest) hnodup
      rw [List.map_append] at hnodup
      exact hnodup.of_append_right

/-- A user who was paid is not paid again. -/
theorem paid_once : ∀ {as : List (Action E)} {w : World E}, OnlyClaims as →
    (w.storage.user u).ntrnTransferred = true → as.foldlM (World.exec x) w = .ok w' →
      w'.lockdropPaid u = w.lockdropPaid u := by
  intro as
  induction as with
  | nil =>
      intro w _ _ h
      obtain rfl := Except.ok.inj h
      rfl
  | cons a as ih =>
      intro w honly hflag h
      obtain ⟨v, -, hhappens, honly', hrest⟩ := run_cons_ok honly h
      by_cases hclaim : a.operation.bind Operation.claimant = some u
      · have hclaimed := hhappens.claimed_of_eq hclaim
        rw [ih honly' hclaimed.transferred hrest, hclaimed.again hflag]
      · have hpasses := hhappens.passes_of_ne hclaim
        rw [ih honly' (by rw [hpasses.user, hflag]) hrest, hpasses.paid]

/-- What an unpaid user gets in a run is decided by his first claim: the parts of his
lockups as they are at that moment. -/
theorem paid_by_first_claim : ∀ {as : List (Action E)} {w : World E}, OnlyClaims as →
    Unpaid w.storage u → ClaimsIn u as → as.foldlM (World.exec x) w = .ok w' →
      ∃ before claim after v, as = before ++ claim :: after ∧
        claim.operation.bind Operation.claimant = some u ∧ ¬ ClaimsIn u before ∧
        before.foldlM (World.exec x) w = .ok v ∧
        w'.lockdropPaid u = w.lockdropPaid u + v.storage.userIncentives u := by
  intro as
  induction as with
  | nil => exact fun _ _ hclaims _ => absurd hclaims not_claimsIn_nil
  | cons a as ih =>
      intro w honly hunpaid hclaims h
      obtain ⟨v, hexec, hhappens, honly', hrest⟩ := run_cons_ok honly h
      by_cases hclaim : a.operation.bind Operation.claimant = some u
      · have hclaimed := hhappens.claimed_of_eq hclaim
        refine ⟨[], a, as, w, rfl, hclaim, not_claimsIn_nil, rfl, ?_⟩
        rw [paid_once honly' hclaimed.transferred hrest, hclaimed.first hunpaid]
      · have hpasses := hhappens.passes_of_ne hclaim
        obtain ⟨before, claim, after, v', rfl, hfirst, hnot, hbefore, hpaid⟩ :=
          ih honly' (hunpaid.untouched hpasses.toUntouched)
            ((claimsIn_cons.mp hclaims).resolve_left hclaim) hrest
        refine ⟨a :: before, claim, after, v', rfl, hfirst, ?_,
          foldlM_cons_ok.mpr ⟨v, hexec, hbefore⟩, by rw [hpaid, hpasses.paid]⟩
        rw [claimsIn_cons, not_or]
        exact ⟨hclaim, hnot⟩

theorem Operation.poolShare_of_claimant {op : Operation} (h : op.claimant = some u) :
    op.poolShare = none := by
  obtain ⟨info, msg⟩ := op
  cases msg <;> first | rfl | cases h

/-- No share is given out from a user's first claim on, when his claims come last. -/
theorem poolShares_after_claim {before : List (Action E)} (h : ClaimsLast u (before ++ a :: as))
    (hclaim : a.operation.bind Operation.claimant = some u) : poolShares (a :: as) = [] := by
  obtain ⟨op, hop, heq⟩ := Option.bind_eq_some_iff.mp hclaim
  unfold ClaimsLast at h
  rw [operations_append, operations_cons, hop, List.pairwise_append, Option.toList_some,
    List.singleton_append, List.pairwise_cons] at h
  have hafter := h.2.1.1
  unfold poolShares
  rw [operations_cons, hop, List.filterMap_eq_nil_iff]
  intro op' hop'
  rcases List.mem_cons.mp hop' with rfl | hop'
  · exact Operation.poolShare_of_claimant heq
  · exact hafter op' hop' heq

theorem OnlyClaims.of_append (h : OnlyClaims (as ++ bs)) : OnlyClaims bs := by
  intro op hop
  refine h op ?_
  rw [operations_append]
  exact List.mem_append_right _ hop

/-- An unpaid user whose claims come after the last `InitializePool` gets the parts of his
lockups with the final shares. -/
theorem paid_final_shares (honly : OnlyClaims as) (hunpaid : Unpaid w.storage u)
    (hclaims : ClaimsIn u as) (hlast : ClaimsLast u as)
    (h : as.foldlM (World.exec x) w = .ok w') :
    w'.lockdropPaid u = w.lockdropPaid u + w'.storage.userIncentives u := by
  obtain ⟨before, claim, after, v, rfl, hclaim, -, hbefore, hpaid⟩ :=
    paid_by_first_claim honly hunpaid hclaims h
  obtain ⟨v', hbefore', hafter⟩ := foldlM_append_ok.mp h
  obtain rfl : v = v' := Except.ok.inj (hbefore.symm.trans hbefore')
  have hnil := poolShares_after_claim hlast hclaim
  have hshared := shared_of_run honly.of_append (by rw [hnil]; exact List.nodup_nil) hafter
  rw [hnil] at hshared
  have hsame := (Shared.of_sameDivision (.refl v.storage)).sameDivision hshared (.refl _)
  rw [hpaid, hsame.userIncentives]

/-- Every user whose reward was not computed or paid before, and whose claims come after the
last `InitializePool`, gets the same in every order of the messages: the parts of his lockups
with the final shares. -/
theorem reward_independent_of_order {wa wb : World E} (honly : OnlyClaims as)
    (hperm : (operations as).Perm (operations bs))
    (honce : ((poolShares as).map Prod.fst).Nodup)
    (ha : as.foldlM (World.exec x) w = .ok wa) (hb : bs.foldlM (World.exec x) w = .ok wb)
    (hunpaid : Unpaid w.storage u) (hclaims : ClaimsIn u as) (hlast : ClaimsLast u as)
    (hlast' : ClaimsLast u bs) :
    wa.lockdropPaid u = w.lockdropPaid u + wa.storage.userIncentives u ∧
      wb.lockdropPaid u = w.lockdropPaid u + wb.storage.userIncentives u ∧
      wb.storage.userIncentives u = wa.storage.userIncentives u := by
  have honly' : OnlyClaims bs := fun op hop => honly op (hperm.mem_iff.mpr hop)
  have hclaims' : ClaimsIn u bs := by
    obtain ⟨op, hop, heq⟩ := hclaims
    exact ⟨op, hperm.mem_iff.mp hop, heq⟩
  have hshares : (poolShares as).Perm (poolShares bs) := hperm.filterMap _
  have honce' : ((poolShares bs).map Prod.fst).Nodup := (hshares.map Prod.fst).nodup_iff.mp honce
  have hsame := (shared_of_run honly honce ha).sameDivision (shared_of_run honly' honce' hb)
    hshares
  exact ⟨paid_final_shares honly hunpaid hclaims hlast ha,
    paid_final_shares honly' hunpaid hclaims' hlast' hb, hsame.userIncentives u⟩

/-- Before some pool has a share there is nothing to divide. -/
theorem userIncentives_eq_zero (h : s.state.totalIncentivesShare = 0) :
    s.userIncentives u = 0 := by
  refine (Map.sum_congr fun k st _ => ?_).trans (Map.sum_zero s.lockupInfo)
  split_ifs
  · unfold Storage.incentivesOf
    split
    · rename_i pool st' _ _
      unfold lockupIncentives calculateAstroIncentivesForLockup
      rw [h]
      cases calculateWeight st'.core.lpUnitsLocked k.duration s.config <;> rfl
    · rfl
  · rfl

/-- A user who claims before the first `InitializePool` never gets a reward: this claim pays
nothing, and later ones find the flag set. -/
theorem early_claim_forfeits : ∀ {before : List (Action E)} {w : World E},
    OnlyClaims (before ++ a :: as) → w.storage.state.totalIncentivesShare = 0 →
    poolShares before = [] → a.operation.bind Operation.claimant = some u →
    Unpaid w.storage u → (before ++ a :: as).foldlM (World.exec x) w = .ok w' →
      w'.lockdropPaid u = w.lockdropPaid u := by
  intro before
  induction before with
  | nil =>
      intro w honly hzero _ hclaim hunpaid h
      obtain ⟨v, -, hhappens, honly', hrest⟩ := run_cons_ok honly h
      have hclaimed := hhappens.claimed_of_eq hclaim
      rw [paid_once honly' hclaimed.transferred hrest, hclaimed.first hunpaid,
        userIncentives_eq_zero hzero, Nat.add_zero]
  | cons b before ih =>
      intro w honly hzero hearly hclaim hunpaid h
      obtain ⟨v, -, hhappens, honly', hrest⟩ := run_cons_ok honly h
      rw [poolShares_cons, List.append_eq_nil_iff] at hearly
      by_cases hfirst : b.operation.bind Operation.claimant = some u
      · have hclaimed := hhappens.claimed_of_eq hfirst
        rw [paid_once honly' hclaimed.transferred hrest, hclaimed.first hunpaid,
          userIncentives_eq_zero hzero, Nat.add_zero]
      · have hpasses := hhappens.passes_of_ne hfirst
        have htotal := hhappens.shared.total
        rw [hearly.1, hzero] at htotal
        rw [ih honly' htotal hearly.2 hclaim (hunpaid.untouched hpasses.toUntouched) hrest,
          hpasses.paid]

end Runs

/-! ### An early claim -/

/-- Alice has locked 10 units, 100 NTRN are to be divided and the windows are closed. -/
def claimSetup : List (Action SampleExt) :=
  [.execute ⟨"owner", []⟩ (.setTokenInfo "atom_lp" "usdc_lp" "generator"),
    .execute ⟨"owner", [⟨untrnDenom, 100⟩]⟩ .increaseNTRNIncentives,
    .advance 150 10,
    .execute ⟨"auction", []⟩ (.increaseLockupFor "alice" .atom 10 1),
    .advance 110 10,
    .drift ⟨∅, ∅, 100⟩]

/-- The lockdrop after `claimSetup`. -/
def claimStart : World SampleExt := run (World.exec sampleExternals) sampleStart claimSetup

/-- The pool of an LP token is initialized with share 1. -/
def sampleInit (lpToken : Addr) (p : PoolType) : Action SampleExt :=
  .execute ⟨lpToken, []⟩ (.receive ⟨"auction", 10, some (.initializePool p 1)⟩)

/-- Alice claims the rewards of her lockup in the ATOM pool, and perhaps unlocks it. -/
def sampleClaim (withdraw : Bool) : Action SampleExt :=
  .execute ⟨"alice", []⟩ (.claimRewardsAndOptionallyUnlock .atom 1 withdraw)

/-- Both pools are initialised, then Alice claims and unlocks. -/
def claimsAfter : List (Action SampleExt) :=
  [sampleInit "atom_lp" .atom, sampleInit "usdc_lp" .usdc, sampleClaim false, sampleClaim true]

/-- The same with the pools initialised in the other order. -/
def claimsAfter' : List (Action SampleExt) :=
  [sampleInit "usdc_lp" .usdc, sampleInit "atom_lp" .atom, sampleClaim false, sampleClaim true]

/-- The first of the two claims comes before the pools are initialized. -/
def claimsAround : List (Action SampleExt) :=
  [sampleClaim false, sampleInit "atom_lp" .atom, sampleInit "usdc_lp" .usdc, sampleClaim true]

theorem reward_independent_of_order_sample :
    let wa := run (World.exec sampleExternals) claimStart claimsAfter
    let wb := run (World.exec sampleExternals) claimStart claimsAfter'
    wa.lockdropPaid "alice" =
        claimStart.lockdropPaid "alice" + wa.storage.userIncentives "alice" ∧
      wb.lockdropPaid "alice" =
        claimStart.lockdropPaid "alice" + wb.storage.userIncentives "alice" ∧
      wb.storage.userIncentives "alice" = wa.storage.userIncentives "alice" :=
  reward_independent_of_order (show OnlyClaims claimsAfter by unfold OnlyClaims; decide)
    (show (operations claimsAfter).Perm (operations claimsAfter') from .swap _ _ _) (by decide)
    (foldlM_eq_run _ (by decide))
    (foldlM_eq_run _ (by decide))
    ⟨by decide, by decide, fun k st _ hst => by
      have hzero : ∀ e ∈ claimStart.storage.lockupInfo.entries, e.2.ntrnRewards = 0 := by decide
      exact hzero ⟨k, st⟩ (Map.mem_entries_iff.mpr hst)⟩
    (by unfold ClaimsIn; decide) (by unfold ClaimsLast; decide) (by unfold ClaimsLast; decide)

/-- Alice claims twice. When both claims follow the initializations she gets 50; when one
precedes them she gets nothing, although all messages succeed in both orders and her last
claim comes after the last initialization. -/
theorem early_claim_changes_reward :
    instantiate ⟨0, 1, "lockdrop"⟩ ⟨"owner", []⟩ sampleInstantiateMsg = .ok sampleStart.storage ∧
      claimStart.storage.config.closing ≤ claimStart.env.time ∧
      (operations claimsAfter).Perm (operations claimsAround) ∧
      ∃ wa wb, claimsAfter.foldlM (World.exec sampleExternals) claimStart = .ok wa ∧
        claimsAround.foldlM (World.exec sampleExternals) claimStart = .ok wb ∧
        wa.storage.userIncentives "alice" = 50 ∧ wb.storage.userIncentives "alice" = 50 ∧
        wa.lockdropPaid "alice" = 50 ∧ wb.lockdropPaid "alice" = 0 := by
  refine ⟨rfl, by decide, ?_, _, _, foldlM_eq_run _ (by decide), foldlM_eq_run _ (by decide), ?_⟩
  · decide
  · decide

end NeutronTge.Lockdrop
