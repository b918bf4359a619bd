import NeutronTge.Lockdrop.Withdrawal
import NeutronTge.Shares.Percent

/-!
# NeutronTge.Lockdrop.Limits

The limits on withdrawals from a position once the lock window is over. The flag that allows
only one withdrawal is stored in the position itself, so it is only as good as the position is
permanent: `WithdrawFromLockup` deletes a position that has become empty, and
`IncreaseLockupFor` would create it again without the flag. Neither can happen by then. A
withdrawal takes at most one half of the units, and nothing is locked any more. `Changes` says
what each transaction does to the positions.
-/

namespace NeutronTge.Lockdrop

open CosmWasm Astroport Shares

/-! ### The withdrawal limit -/

/-- The atomics of `calculate_max_withdrawal_percent_allowed`. -/
def Config.withdrawalLimit (config : Config) (t : Nat) : Nat :=
  decliningLimit FixedPoint.fractional config.lockEnd config.withdrawalWindow t

theorem calculateMaxWithdrawalPercentAllowed_ok {config : Config} {t : Nat} {percent : Decimal}
    (h : calculateMaxWithdrawalPercentAllowed t config = .ok percent) :
    percent.atomics = config.withdrawalLimit t :=
  Shares.percentAt_ok h

/-- Once the lock window is over, the limit is at most one half. -/
theorem Config.withdrawalLimit_le_half {config : Config} {t : Nat} (h : config.lockEnd ≤ t) :
    2 * config.withdrawalLimit t ≤ FixedPoint.fractional := by
  have hhalf : config.withdrawalLimit t ≤ 50 * FixedPoint.fractional / 100 :=
    decliningLimit_le_half h
  omega

/-- What `WithdrawFromLockup` checks of the position it takes from. -/
structure Limited (config : Config) (t amount : Nat) (core : LockupCore) : Prop where
  unflagged : core.withdrawalFlag = false
  within : ∃ percent, calculateMaxWithdrawalPercentAllowed t config = .ok percent ∧
    amount ≤ core.lpUnitsLocked * percent.atomics / FixedPoint.fractional

/-- A withdrawal after the lock window leaves something. -/
theorem Limited.lt {config : Config} {t amount : Nat} {core : LockupCore}
    (h : Limited config t amount core) (hlate : config.lockEnd ≤ t) (hpos : 0 < amount) :
    amount < core.lpUnitsLocked := by
  obtain ⟨percent, hpercent, hwithin⟩ := h.within
  have hhalf := config.withdrawalLimit_le_half hlate
  rw [← calculateMaxWithdrawalPercentAllowed_ok hpercent] at hhalf
  have hdouble : 2 * amount ≤ core.lpUnitsLocked := by
    have hscaled := (Nat.le_div_iff_mul_le FixedPoint.fractional_pos).mp hwithin
    have hunits : core.lpUnitsLocked * (2 * percent.atomics) ≤
        core.lpUnitsLocked * FixedPoint.fractional := Nat.mul_le_mul_left _ hhalf
    refine Nat.le_of_mul_le_mul_right ?_ FixedPoint.fractional_pos
    calc 2 * amount * FixedPoint.fractional
        = 2 * (amount * FixedPoint.fractional) := Nat.mul_assoc _ _ _
      _ ≤ 2 * (core.lpUnitsLocked * percent.atomics) := Nat.mul_le_mul_left 2 hscaled
      _ = core.lpUnitsLocked * (2 * percent.atomics) := Nat.mul_left_comm _ _ _
      _ ≤ core.lpUnitsLocked * FixedPoint.fractional := hunits
  omega

theorem handleWithdrawFromLockup_limited {q : Querier} {s : Storage} {env : Env}
    {info : MessageInfo} {userAddress : Addr} {poolType : PoolType} {duration amount : Nat}
    {r : Response}
    (h : handleWithdrawFromLockup q s env info userAddress poolType duration amount = .ok r) :
    ∃ core, s.coreOf ⟨poolType, userAddress, duration⟩ = some core ∧
      Limited s.config env.time amount core := by
  unfold handleWithdrawFromLockup at h
  simp only [bind_eq_ok, rejectIf_eq_ok, exists_const] at h
  obtain ⟨-, -, -, -, -, -, -, loaded, hload, hflag, percent, hpercent, units, hunits, allowed,
    hallowed, hamount, -⟩ := h
  have hunflagged : loaded.withdrawalFlag = false := by simpa using hflag
  refine ⟨loaded.core, coreOf_of_load hload, hunflagged, percent, hpercent, ?_⟩
  obtain ⟨-, rfl⟩ := FixedPoint.ofUint_eq_ok.mp hunits
  obtain ⟨-, rfl⟩ := FixedPoint.checkedMul_eq_ok.mp hallowed
  refine (Nat.le_of_not_lt hamount).trans_eq ?_
  show loaded.lpUnitsLocked * FixedPoint.fractional * percent.atomics / FixedPoint.fractional /
    FixedPoint.fractional = _
  rw [Nat.mul_right_comm, Nat.mul_div_cancel _ FixedPoint.fractional_pos]
  rfl

/-! ### What a transaction does to the positions -/

section Positions

variable {E : Type} {x : Externals E} {w w' : World E} {key : LockupKey}

theorem coreOf_congr {s s' : Storage} (h : s'.lockupInfo = s.lockupInfo) (k : LockupKey) :
    s'.coreOf k = s.coreOf k := by
  unfold Storage.coreOf
  rw [h]

theorem PaysNtrn.coreOf {s s' : Storage} {user : Addr} {userInfo : UserInfo}
    {msgs : List CosmosMsg} (h : PaysNtrn s user userInfo s' msgs) (k : LockupKey) :
    s'.coreOf k = s.coreOf k := by
  cases h <;> rfl

/-- What the reward callback does to the lockups: it changes the debt of one of them, and
closes it if its owner unlocks. -/
theorem Pays.coreOf {withdraw : Bool} {msgs : List CosmosMsg} {pool : PoolInfo}
    {lockup lockup' : LockupInfoV2} {generator : Addr} {share : Nat} {t : Storage}
    {rewardMsgs exitMsgs ntrnMsgs : List CosmosMsg}
    (h : Pays x w w' key withdraw msgs pool lockup lockup' generator share t rewardMsgs exitMsgs
      ntrnMsgs) :
    ∃ debt, w'.storage.coreOf key = some { lockup.core with
        generatorNtrnDebt := debt
        astroportLpTransferred :=
          if withdraw then some share else lockup.astroportLpTransferred } ∧
      ∀ k, k ≠ key → w'.storage.coreOf k = w.storage.coreOf k := by
  obtain ⟨debt, hcore⟩ := h.paysOut.rewards.core
  refine ⟨debt, ?_⟩
  simp only [h.paysOut.ntrn.coreOf]
  have hexits := h.paysOut.exits
  generalize withdraw = b at hexits
  cases hexits with
  | stored =>
      have hstored := @coreOf_save w.storage
        { w.storage with lockupInfo := w.storage.lockupInfo.save key (.v2 lockup') } key lockup'
        rfl
      refine ⟨?_, fun k hk => ?_⟩
      · rw [hstored, if_pos rfl, hcore]
        rfl
      · rw [hstored, if_neg hk]
  | closed _ hcloses =>
      have hclosed := coreOf_save hcloses.lockupInfo
      refine ⟨?_, fun k hk => ?_⟩
      · rw [hclosed, if_pos rfl]
        have htransferred : ({ lockup' with astroportLpTransferred := some share } :
            LockupInfoV2).core = { lockup'.core with astroportLpTransferred := some share } := rfl
        rw [htransferred, hcore]
        rfl
      · rw [hclosed, if_neg hk]

/-- The part of a position that the auction's messages are about: its units and its flag. -/
def Storage.position (s : Storage) (key : LockupKey) : Option (Nat × Bool) :=
  (s.coreOf key).map fun core => (core.lpUnitsLocked, core.withdrawalFlag)

/-- Every position is as before. -/
def SamePositions (s s' : Storage) : Prop := ∀ key, s'.position key = s.position key

namespace SamePositions

variable {s t u : Storage}

theorem refl (s : Storage) : SamePositions s s := fun _ => rfl

theorem trans (h : SamePositions s t) (h' : SamePositions t u) : SamePositions s u :=
  fun key => (h' key).trans (h key)

theorem of_lockupInfo (h : t.lockupInfo = s.lockupInfo) : SamePositions s t := by
  intro key
  unfold Storage.position
  rw [coreOf_congr h]

/-- A lockup is stored again with other debts, or as one that has left. -/
theorem of_core {core core' : LockupCore} (hcore : s.coreOf key = some core)
    (hcore' : t.coreOf key = some core') (hunits : core'.lpUnitsLocked = core.lpUnitsLocked)
    (hflag : core'.withdrawalFlag = core.withdrawalFlag)
    (hothers : ∀ k, k ≠ key → t.coreOf k = s.coreOf k) : SamePositions s t := by
  intro k
  unfold Storage.position
  by_cases hk : k = key
  · rw [hk, hcore, hcore', Option.map_some, Option.map_some, hunits, hflag]
  · rw [hothers k hk]

end SamePositions

theorem SameBooks.positions {s s' : Storage} (h : SameBooks s s') : SamePositions s s' := by
  intro key
  unfold Storage.position Storage.coreOf
  rw [h.lockups]

theorem Pays.positions {withdraw : Bool} {msgs : List CosmosMsg} {pool : PoolInfo}
    {lockup lockup' : LockupInfoV2} {generator : Addr} {share : Nat} {t : Storage}
    {rewardMsgs exitMsgs ntrnMsgs : List CosmosMsg}
    (h : Pays x w w' key withdraw msgs pool lockup lockup' generator share t rewardMsgs exitMsgs
      ntrnMsgs) : SamePositions w.storage w'.storage := by
  obtain ⟨debt, hcore, hothers⟩ := h.coreOf
  exact .of_core (coreOf_of_load h.paysOut.lockup_eq) hcore rfl rfl hothers

theorem Closes.positions {s s' : Storage} {height : Nat} {pool : PoolInfo}
    {lockup : LockupInfoV2} {amount : Nat} (h : Closes s s' height key pool lockup amount)
    (hlockup : s.coreOf key = some lockup.core) : SamePositions s s' := by
  have hclosed := coreOf_save h.lockupInfo
  refine .of_core hlockup ((hclosed key).trans (if_pos rfl)) rfl rfl fun k hk => ?_
  rw [hclosed, if_neg hk]

theorem Migrates.positions (h : Migrates x key w w') : SamePositions w.storage w'.storage := by
  cases h with
  | skipped _ _ _ hsame =>
      rw [hsame]
      exact .refl _
  | migrated _ w₁ w₂ _ _ _ _ _ _ _ _ _ _ _ _ _ _ _ hcollects hpays hexits =>
      have hcollected : SamePositions w.storage w₁.storage := .of_lockupInfo hcollects.frame.2.1
      have hpaid : SamePositions w₁.storage w₂.storage :=
        (hpays.transfersAll.ntrn.sameBooks rfl).positions
      exact hcollected.trans
        (hpaid.trans (hexits.closes.positions (coreOf_of_load hexits.lockup_eq)))

theorem LockupKey.eq_of {key key' : LockupKey} (hpool : key.poolType = key'.poolType)
    (huser : key.user = key'.user) (hduration : key.duration = key'.duration) : key = key' := by
  cases key
  cases key'
  rw [LockupKey.mk.injEq]
  exact ⟨hpool, huser, hduration⟩

/-- What a transaction does to the positions. -/
inductive Changes (w w' : World E) (msg : ExecuteMsg) : Prop
  | increased (info : MessageInfo) (key : LockupKey) (amount : Nat) (pool : PoolInfo)
      (weight : Nat) (lockup : LockupInfoV2) (userInfo : UserInfo)
      (hmsg : msg = .increaseLockupFor key.user key.poolType amount key.duration)
      (h : Increases w.storage w'.storage w.env info key amount pool weight lockup userInfo) :
      Changes w w' msg
  | withdrawn (info : MessageInfo) (key : LockupKey) (amount : Nat) (pool : PoolInfo)
      (weight : Nat) (st : StoredLockup) (lockup : LockupInfoV2)
      (hmsg : msg = .withdrawFromLockup key.user key.poolType key.duration amount)
      (h : Withdraws w.storage w'.storage w.env info key amount pool weight st lockup)
      (hlimited : Limited w.storage.config w.env.time amount st.core) : Changes w w' msg
  | kept (hmsg : (∀ user poolType amount duration,
        msg ≠ .increaseLockupFor user poolType amount duration) ∧
      ∀ user poolType duration amount,
        msg ≠ .withdrawFromLockup user poolType duration amount)
      (h : SamePositions w.storage w'.storage) : Changes w w' msg

theorem World.execute_changes {info : MessageInfo} {msg : ExecuteMsg}
    (h : w.execute x info msg = .ok w') : Changes w w' msg := by
  obtain ⟨r, hr, hrun, hsender⟩ := execute_ok h
  obtain ⟨-, heffect⟩ := execute_effect hsender hr
  have hstorage : External r.messages → w'.storage = r.storage :=
    fun hext => externals_storage hext hrun
  cases heffect with
  | increase key amount pool weight lockup userInfo hmsgs hinc =>
      rw [← hstorage (.of_nil hmsgs)] at hinc
      exact Changes.increased info key amount pool weight lockup userInfo rfl hinc
  | withdraw key amount pool weight st lockup hmsgs hwith =>
      obtain ⟨core, hcore, hlimited⟩ := handleWithdrawFromLockup_limited hr
      -- the limit is about the lockup that was loaded
      have hst : core = st.core := by
        rw [Storage.coreOf, hwith.lockup_eq] at hcore
        exact (Option.some.inj hcore).symm
      rw [← hstorage (.of_nil hmsgs)] at hwith
      exact Changes.withdrawn info key amount pool weight st lockup rfl hwith (hst ▸ hlimited)
  | initPool poolType incentivesShare sender amount pool hauction hinit =>
      refine Changes.kept
        ⟨fun _ _ _ _ => ExecuteMsg.noConfusion, fun _ _ _ _ => ExecuteMsg.noConfusion⟩
        (.of_lockupInfo ?_)
      rw [hstorage hinit.external, hinit.storage]
  | setTokenInfo atomToken usdcToken generator hmsgs hset =>
      refine Changes.kept
        ⟨fun _ _ _ _ => ExecuteMsg.noConfusion, fun _ _ _ _ => ExecuteMsg.noConfusion⟩
        (.of_lockupInfo ?_)
      rw [hstorage (.of_nil hmsgs), hset]
  | reconfigure msg hmsg hmsgs hsame =>
      refine Changes.kept ?_ (.of_lockupInfo ?_)
      · constructor <;> rintro _ _ _ _ rfl <;> cases hmsg
      · rw [hstorage (.of_nil hmsgs), hsame.lockupInfo]
  | claim poolType duration withdraw userInfo total t st collect hclaim =>
      obtain ⟨w₁, msgs, pool, lockup, lockup', generator, share, t', rewardMsgs, exitMsgs,
        ntrnMsgs, hcollects, hpays⟩ := execute_claim_ok hclaim hrun
      refine Changes.kept
        ⟨fun _ _ _ _ => ExecuteMsg.noConfusion, fun _ _ _ _ => ExecuteMsg.noConfusion⟩ ?_
      have hstarts : SamePositions w.storage r.storage := hclaim.sameBooks.positions
      have hcollected : SamePositions r.storage w₁.storage :=
        .of_lockupInfo hcollects.frame.2.1
      exact hstarts.trans (hcollected.trans hpays.positions)
  | migrate raw hsame hmsgs =>
      refine Changes.kept
        ⟨fun _ _ _ _ => ExecuteMsg.noConfusion, fun _ _ _ _ => ExecuteMsg.noConfusion⟩ ?_
      have hstarts : SamePositions w.storage (w.respond r).storage := hsame.positions
      refine hstarts.trans ?_
      refine foldlM_relation (R := fun v v' : World E => SamePositions v.storage v'.storage)
        (fun v => .refl v.storage) (fun _ _ _ => SamePositions.trans) ?_ hrun
      intro v v' m hm hstep
      obtain ⟨key, rfl⟩ := hmsgs m hm
      exact (migrates_ok hstep).positions

end Positions

/-! ### Runs -/

section Runs

variable {E : Type} {x : Externals E} {w w' : World E} {key : LockupKey}

/-- The lock window is over, and a position is what it was: it is neither deleted nor created,
and once it is flagged it keeps its units and its flag. -/
structure Settled (key : LockupKey) (w w' : World E) : Prop where
  late : w'.storage.config.lockEnd ≤ w'.env.time
  stored : (w'.storage.position key).isSome = (w.storage.position key).isSome
  flagged : ∀ units, w.storage.position key = some (units, true) →
    w'.storage.position key = some (units, true)

namespace Settled

theorem refl (hlate : w.storage.config.lockEnd ≤ w.env.time) : Settled key w w :=
  ⟨hlate, rfl, fun _ => id⟩

theorem trans {v : World E} (h : Settled key w v) (h' : Settled key v w') : Settled key w w' where
  late := h'.late
  stored := h'.stored.trans h.stored
  flagged units hunits := h'.flagged units (h.flagged units hunits)

theorem of_same (hlate : w'.storage.config.lockEnd ≤ w'.env.time)
    (h : SamePositions w.storage w'.storage) : Settled key w w' where
  late := hlate
  stored := by rw [h]
  flagged units hunits := (h key).trans hunits

end Settled

/-- After the lock window a withdrawal leaves the position there, with its flag set. -/
theorem Withdraws.position_late {s s' : Storage} {env : Env} {info : MessageInfo} {amount : Nat}
    {pool : PoolInfo} {weight : Nat} {st : StoredLockup} {lockup : LockupInfoV2}
    (h : Withdraws s s' env info key amount pool weight st lockup)
    (hlimited : Limited s.config env.time amount st.core) (hlate : s.config.lockEnd ≤ env.time)
    (k : LockupKey) :
    s'.position k =
      if k = key then some (st.core.lpUnitsLocked - amount, true) else s.position k := by
  have hunits : lockup.lpUnitsLocked = st.core.lpUnitsLocked - amount :=
    congrArg LockupCore.lpUnitsLocked h.remaining
  have hflag : lockup.withdrawalFlag = true :=
    (congrArg LockupCore.withdrawalFlag h.remaining).trans (decide_eq_true hlate)
  have hrest := hlimited.lt hlate h.amount_pos
  have hposition := h.position
  generalize s'.userInfo = users at hposition
  generalize hlockups : s'.lockupInfo = lockups at hposition
  cases hposition with
  | deleted hzero => omega
  | kept =>
      unfold Storage.position
      rw [coreOf_save hlockups]
      split_ifs
      · rw [Option.map_some, ← hunits, ← hflag]
        rfl
      · rfl

theorem position_of_lockup {s : Storage} {st : StoredLockup}
    (h : s.lockupInfo.mayLoad key = some st) :
    s.position key = some (st.core.lpUnitsLocked, st.core.withdrawalFlag) := by
  rw [Storage.position, Storage.coreOf, h, Option.map_some, Option.map_some]

theorem World.exec_settled {a : Action E} (hlate : w.storage.config.lockEnd ≤ w.env.time)
    (h : w.exec x a = .ok w') : Settled key w w' := by
  have honward := World.exec_onward h
  have hlate' : w'.storage.config.lockEnd ≤ w'.env.time := by
    rw [honward.terms.lockEnd]
    exact hlate.trans honward.time
  cases a with
  | advance seconds blocks =>
      obtain rfl := Except.ok.inj h
      exact .of_same hlate' (.refl _)
  | drift ext =>
      obtain rfl := Except.ok.inj h
      exact .of_same hlate' (.refl _)
  | migrate pclLockdropContract =>
      obtain rfl := Except.ok.inj h
      exact .of_same hlate' (.of_lockupInfo rfl)
  | execute info msg =>
      cases World.execute_changes h with
      | increased _ _ _ _ _ _ _ _ hincreases =>
          -- nothing is locked after the lock window
          exact absurd hincreases.early (Nat.not_lt_of_le hlate)
      | withdrawn _ key' amount _ _ st _ _ hwithdraws hlimited =>
          have hposition := hwithdraws.position_late hlimited hlate
          have hst := position_of_lockup hwithdraws.lockup_eq
          by_cases hkey : key = key'
          · subst hkey
            refine ⟨hlate', ?_, ?_⟩
            · rw [hposition, if_pos rfl, hst]
              rfl
            · -- a flagged position is not withdrawn from
              intro units hunits
              rw [hst, hlimited.unflagged] at hunits
              cases hunits
          · refine ⟨hlate', ?_, ?_⟩ <;> rw [hposition, if_neg hkey]
            exact fun _ => id
      | kept _ hsame => exact .of_same hlate' hsame

theorem run_settled (hlate : w.storage.config.lockEnd ≤ w.env.time) (as : List (Action E)) :
    Settled key w (run (World.exec x) w as) :=
  @run_invariant _ _ _ (World.exec x) (Settled key w)
    (fun _ _ _ ht h => ht.trans (World.exec_settled ht.late h)) as w (.refl hlate)

theorem increases_of_exec {info : MessageInfo} {amount : Nat}
    (h : w.exec x (.execute info (.increaseLockupFor key.user key.poolType amount key.duration)) =
      .ok w') :
    ∃ pool weight lockup userInfo info', Increases w.storage w'.storage w.env info' key amount
      pool weight lockup userInfo := by
  cases World.execute_changes h with
  | increased info' key' _ pool weight lockup userInfo hmsg hincreases =>
      obtain ⟨huser, hpool, rfl, hduration⟩ := ExecuteMsg.increaseLockupFor.inj hmsg
      obtain rfl := LockupKey.eq_of hpool huser hduration
      exact ⟨pool, weight, lockup, userInfo, info', hincreases⟩
  | withdrawn _ _ _ _ _ _ _ hmsg => cases hmsg
  | kept hmsg => exact absurd rfl (hmsg.1 _ _ _ _)

theorem withdraws_of_exec {info : MessageInfo} {amount : Nat}
    (h : w.exec x (.execute info (.withdrawFromLockup key.user key.poolType key.duration amount)) =
      .ok w') :
    ∃ pool weight st lockup info', Withdraws w.storage w'.storage w.env info' key amount pool
      weight st lockup ∧ Limited w.storage.config w.env.time amount st.core := by
  cases World.execute_changes h with
  | increased _ _ _ _ _ _ _ hmsg => cases hmsg
  | withdrawn info' key' _ pool weight st lockup hmsg hwithdraws hlimited =>
      obtain ⟨huser, hpool, hduration, rfl⟩ := ExecuteMsg.withdrawFromLockup.inj hmsg
      obtain rfl := LockupKey.eq_of hpool huser hduration
      exact ⟨pool, weight, st, lockup, info', hwithdraws, hlimited⟩
  | kept hmsg => exact absurd rfl (hmsg.2 _ _ _ _)

/-- What the lockdrop allows of withdrawals once the lock window is over. -/
structure LimitsLockups (x : Externals E) (w : World E) : Prop where
  /-- The percentage is at most one half. -/
  half : ∀ {t : Nat} {percent : Decimal}, w.storage.config.lockEnd ≤ t →
    calculateMaxWithdrawalPercentAllowed t w.storage.config = .ok percent →
    2 * percent.atomics ≤ FixedPoint.fractional
  /-- The percentage does not grow. -/
  antitone : ∀ {t t' : Nat} {percent percent' : Decimal}, t ≤ t' →
    calculateMaxWithdrawalPercentAllowed t w.storage.config = .ok percent →
    calculateMaxWithdrawalPercentAllowed t' w.storage.config = .ok percent' →
    percent'.atomics ≤ percent.atomics
  /-- A withdrawal keeps within the limit for its position. After the lock window the amount
  leaves the units of the position, which is flagged, and no other position changes. -/
  within : ∀ {key : LockupKey} {info : MessageInfo} {amount : Nat} {w' : World E},
    w.exec x (.execute info
      (.withdrawFromLockup key.user key.poolType key.duration amount)) = .ok w' →
    ∃ st percent, w.storage.lockupInfo.mayLoad key = some st ∧
      calculateMaxWithdrawalPercentAllowed w.env.time w.storage.config = .ok percent ∧
      amount ≤ st.core.lpUnitsLocked * percent.atomics / FixedPoint.fractional ∧
      (w.storage.config.lockEnd ≤ w.env.time → ∀ k, w'.storage.position k =
        if k = key then some (st.core.lpUnitsLocked - amount, true) else w.storage.position k)
  /-- It is the last one from the position. -/
  once : ∀ {key : LockupKey} {info info' : MessageInfo} {amount amount' : Nat}
    {w' w'' : World E} (as : List (Action E)), w.storage.config.lockEnd ≤ w.env.time →
    w.exec x (.execute info
      (.withdrawFromLockup key.user key.poolType key.duration amount)) = .ok w' →
    (run (World.exec x) w' as).exec x (.execute info'
      (.withdrawFromLockup key.user key.poolType key.duration amount')) ≠ .ok w''
  /-- No position is deleted or created. -/
  stays : ∀ (key : LockupKey) (as : List (Action E)),
    w.storage.config.lockEnd ≤ w.env.time →
    ((run (World.exec x) w as).storage.lockupInfo.has key) = w.storage.lockupInfo.has key
  /-- After the withdrawal window there is no withdrawal. -/
  closed : ∀ {key : LockupKey} {info : MessageInfo} {amount : Nat} {w' : World E},
    w.storage.config.closing ≤ w.env.time →
    w.exec x (.execute info
      (.withdrawFromLockup key.user key.poolType key.duration amount)) ≠ .ok w'

theorem position_isSome (s : Storage) (key : LockupKey) :
    (s.position key).isSome = s.lockupInfo.has key := by
  unfold Storage.position Storage.coreOf Map.has
  rw [Option.isSome_map, Option.isSome_map]

/-- The limits on withdrawals hold in every state of every run of the lockdrop, whatever else
is sent to it. -/
theorem lockup_limits (w₀ : World E) (as : List (Action E)) :
    LimitsLockups x (run (World.exec x) w₀ as) := by
  generalize run (World.exec x) w₀ as = w
  constructor
  · intro t percent ht hpercent
    rw [calculateMaxWithdrawalPercentAllowed_ok hpercent]
    exact Config.withdrawalLimit_le_half ht
  · intro t t' percent percent' ht hpercent hpercent'
    rw [calculateMaxWithdrawalPercentAllowed_ok hpercent,
      calculateMaxWithdrawalPercentAllowed_ok hpercent']
    exact decliningLimit_antitone ht
  · intro key info amount w' h
    obtain ⟨_, _, st, _, _, hwithdraws, hlimited⟩ := withdraws_of_exec h
    obtain ⟨percent, hpercent, hwithin⟩ := hlimited.within
    exact ⟨st, percent, hwithdraws.lockup_eq, hpercent, hwithin,
      fun hlate => hwithdraws.position_late hlimited hlate⟩
  · intro key info info' amount amount' w' w'' as' hlate h h'
    obtain ⟨_, _, st, _, _, hfirst, hlimited⟩ := withdraws_of_exec h
    have hsettled : Settled key _ w' := World.exec_settled hlate h
    have hlate' := hsettled.late
    have hflagged : w'.storage.position key = some (st.core.lpUnitsLocked - amount, true) := by
      rw [hfirst.position_late hlimited hlate, if_pos rfl]
    -- the flag is still there when the second withdrawal looks at it
    have hstill := (run_settled (x := x) hlate' as').flagged _ hflagged
    obtain ⟨_, _, _, _, _, hagain, hunflagged⟩ := withdraws_of_exec h'
    rw [position_of_lockup hagain.lockup_eq, hunflagged.unflagged] at hstill
    simp at hstill
  · intro key as' hlate
    rw [← position_isSome, ← position_isSome]
    exact (run_settled hlate as').stored
  · intro key info amount w' hover h
    obtain ⟨_, _, _, _, _, hwithdraws, -⟩ := withdraws_of_exec h
    exact absurd hwithdraws.early (Nat.not_lt_of_le hover)

/-- In the first half of the withdrawal window one unit of three can be withdrawn, and two
cannot. -/
example :
    let w : World SampleExt := run (World.exec sampleExternals) halfWeightStart
      (bobLocks 1 2 ++ [.advance 70 1])
    (w.exec sampleExternals (.execute ⟨"auction", []⟩
        (.withdrawFromLockup "bob" .usdc 1 1))).isOk = true ∧
      (w.exec sampleExternals (.execute ⟨"auction", []⟩
        (.withdrawFromLockup "bob" .usdc 1 2))).isOk = false := by
  decide +kernel

end Runs

end NeutronTge.Lockdrop
