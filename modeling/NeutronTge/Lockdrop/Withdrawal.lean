import NeutronTge.Lockdrop.Consistency
import NeutronTge.Lockdrop.Incentives

/-!
# NeutronTge.Lockdrop.Withdrawal

While the lock window is open the auction can take back everything it locked. Nothing that
`WithdrawFromLockup` checks then stands in the way: the lockup is as the auction stored it
(`Locked`), the pool and the user's total count its units (`Ledger`), and the pool's running
weight is not smaller than the sum of the weights (`Weighted`). The last one is what a
position that was locked in pieces can break, as `split_deposit_stuck` shows.
-/

namespace NeutronTge.Lockdrop

open CosmWasm Astroport

/-! ### The checks of a withdrawal -/

/-- The time at which the lock window is over. -/
def Config.lockEnd (config : Config) : Nat := config.initTimestamp + config.lockWindow

theorem Config.lockEnd_le_closing (config : Config) : config.lockEnd ≤ config.closing :=
  Nat.le_add_right _ _

theorem Config.SameTerms.lockEnd {c c' : Config} (h : c.SameTerms c') :
    c'.lockEnd = c.lockEnd := by
  unfold Config.lockEnd
  rw [h.initTimestamp, h.lockWindow]

/-- `calculate_weight` finds the duration, and one plus its coefficient fits. -/
def Config.Weighs (config : Config) (duration : Nat) : Prop :=
  ∃ info, (config.lockupRewardsInfo.find? fun i => i.duration = duration) = some info ∧
    FixedPoint.fractional + info.coefficient.atomics < 2 ^ 256

theorem Config.SameTerms.weighs {c c' : Config} (h : c.SameTerms c') {duration : Nat}
    (hw : c.Weighs duration) : c'.Weighs duration := by
  unfold Config.Weighs
  rw [h.lockupRewardsInfo]
  exact hw

theorem weighs_of_ok {units duration weight : Nat} {config : Config}
    (h : calculateWeight units duration config = .ok weight) : config.Weighs duration := by
  simp only [calculateWeight, bind_eq_ok, okOr_eq_ok, FixedPoint.add_eq_ok] at h
  obtain ⟨info, hinfo, _, ⟨hfits, -⟩, -⟩ := h
  exact ⟨info, hinfo, hfits⟩

theorem Config.Weighs.calculateWeight {config : Config} {units duration : Nat}
    (h : config.Weighs duration) (hsmall : config.weight units duration < 2 ^ 128) :
    calculateWeight units duration config = .ok (config.weight units duration) := by
  obtain ⟨info, hinfo, hfits⟩ := h
  have hweight : config.weight units duration =
      units * (FixedPoint.fractional + info.coefficient.atomics) / FixedPoint.fractional := by
    simp only [Config.weight, hinfo]
  simp only [Lockdrop.calculateWeight, bind_eq_ok, okOr_eq_ok, FixedPoint.add_eq_ok,
    FixedPoint.checkedMulUint_eq_ok]
  rw [hweight] at hsmall ⊢
  exact ⟨info, hinfo, _, ⟨hfits, rfl⟩, hsmall, rfl⟩

theorem Config.weight_mono (config : Config) {a b : Nat} (duration : Nat) (h : a ≤ b) :
    config.weight a duration ≤ config.weight b duration := by
  unfold Config.weight
  split
  · exact Nat.div_le_div_right (Nat.mul_le_mul_right _ h)
  · exact Nat.le_refl _

theorem lockWindowEnd_of_closing {config : Config} (h : config.closing < 2 ^ 64) :
    lockWindowEnd config = .ok config.lockEnd := by
  have hle := config.lockEnd_le_closing
  exact Uint.add_eq_ok.mpr ⟨hle.trans_lt h, rfl⟩

theorem windowsEnd_of_closing {config : Config} (h : config.closing < 2 ^ 64) :
    windowsEnd config = .ok config.closing := by
  unfold windowsEnd
  rw [lockWindowEnd_of_closing h]
  exact Uint.add_eq_ok.mpr ⟨h, rfl⟩

/-- While the lock window is open everything may be withdrawn. -/
theorem maxWithdrawalPercent_of_early {config : Config} {time : Nat}
    (hclosing : config.closing < 2 ^ 64) (hearly : time < config.lockEnd) :
    calculateMaxWithdrawalPercentAllowed time config = .ok FixedPoint.one := by
  unfold calculateMaxWithdrawalPercentAllowed
  rw [lockWindowEnd_of_closing hclosing]
  show (if time < config.lockEnd then FixedPoint.fromRatio 128 100 100 else _) = _
  rw [if_pos hearly]
  decide

/-! ### Lockups of the lock window -/

/-- A stored lockup as the auction's messages leave it while the lock window is open. -/
structure Locked (s : Storage) (key : LockupKey) (st : StoredLockup) : Prop where
  current : ∃ lockup, st = .v2 lockup
  unflagged : st.core.withdrawalFlag = false
  weighs : s.config.Weighs key.duration
  closing_lt : s.config.closing < 2 ^ 64

/-- Every stored lockup is `Locked`. -/
def AllLocked (s : Storage) : Prop :=
  ∀ key st, s.lockupInfo.mayLoad key = some st → Locked s key st

section State

variable {q : Querier} {env : Env} {info : MessageInfo} {s s' : Storage}

theorem Locked.of_terms {key : LockupKey} {st : StoredLockup} (h : Locked s key st)
    (hterms : s.config.SameTerms s'.config) : Locked s' key st where
  current := h.current
  unflagged := h.unflagged
  weighs := hterms.weighs h.weighs
  closing_lt := by
    rw [hterms.closing]
    exact h.closing_lt

theorem AllLocked.of_terms (h : AllLocked s) (hlockups : s'.lockupInfo = s.lockupInfo)
    (hterms : s.config.SameTerms s'.config) : AllLocked s' := by
  intro key st hst
  rw [hlockups] at hst
  exact (h key st hst).of_terms hterms

theorem AllLocked.save {key : LockupKey} {lockup : LockupInfoV2} (h : AllLocked s)
    (hlockups : s'.lockupInfo = s.lockupInfo.save key (.v2 lockup))
    (hconfig : s'.config = s.config) (hlocked : Locked s key (.v2 lockup)) : AllLocked s' := by
  intro k st hst
  rw [hlockups, Map.mayLoad_save_eq] at hst
  have hterms : s.config.SameTerms s'.config := .of_eq hconfig
  split_ifs at hst with hk
  · obtain rfl := Option.some.inj hst
    subst hk
    exact hlocked.of_terms hterms
  · exact (h k st hst).of_terms hterms

/-- A new position computes its unlock time, so the end of the windows fits. -/
theorem closing_lt_of_increase {user : Addr} {poolType : PoolType} {duration amount : Nat}
    {r : Response} (h : handleIncreaseLockup q s env info user poolType duration amount = .ok r)
    (hnone : s.lockupInfo.mayLoad ⟨poolType, user, duration⟩ = none) :
    s.config.closing < 2 ^ 64 := by
  have hfound : compatibleMayLoad q s ⟨poolType, user, duration⟩ = .ok none := by
    simp [compatibleMayLoad, Map.has, hnone]
  unfold handleIncreaseLockup increasePosition at h
  simp only [hfound, bind_eq_ok, rejectIf_eq_ok, exists_const, Except.ok.injEq, exists_eq_left',
    Uint.add_eq_ok] at h
  obtain ⟨-, -, -, -, -, -, -, -, -, -, -, -, -, -, _, ⟨-, _, -, lockEnd, hlock, _, ⟨-, rfl⟩, _,
    ⟨hfits, -⟩, -⟩, -⟩ := h
  rw [lockWindowEnd_ok hlock] at hfits
  unfold Config.closing
  omega

theorem Increases.locked {key : LockupKey} {amount : Nat} {pool : PoolInfo} {weight : Nat}
    {lockup : LockupInfoV2} {userInfo : UserInfo}
    (h : Increases s s' env info key amount pool weight lockup userInfo)
    (hclosing : s.lockupInfo.mayLoad key = none → s.config.closing < 2 ^ 64)
    (hs : AllLocked s) : AllLocked s' := by
  refine hs.save h.lockupInfo h.config ?_
  have hweighs := weighs_of_ok h.weight_eq
  have hposition := h.position
  cases hposition with
  | grown st _ hst hcore =>
      have hlocked := hs key st hst
      refine ⟨⟨lockup, rfl⟩, ?_, hweighs, hlocked.closing_lt⟩
      rw [StoredLockup.core_v2, hcore]
      exact hlocked.unflagged
  | opened _ hnone hcore =>
      refine ⟨⟨lockup, rfl⟩, ?_, hweighs, hclosing hnone⟩
      rw [StoredLockup.core_v2, hcore]

theorem Withdraws.locked {key : LockupKey} {amount : Nat} {pool : PoolInfo} {weight : Nat}
    {st : StoredLockup} {lockup : LockupInfoV2}
    (h : Withdraws s s' env info key amount pool weight st lockup)
    (hearly : env.time < s.config.lockEnd) (hs : AllLocked s) : AllLocked s' := by
  have hlocked := hs key st h.lockup_eq
  have hflag : lockup.core.withdrawalFlag = false := by
    rw [h.remaining]
    exact decide_eq_false (Nat.not_le_of_lt hearly)
  have hposition := h.position
  generalize s'.userInfo = users at hposition
  generalize hlockups : s'.lockupInfo = lockups at hposition
  cases hposition with
  | deleted =>
      intro k st' hst'
      rw [hlockups, Map.mayLoad_remove_eq] at hst'
      split_ifs at hst'
      exact (hs k st' hst').of_terms (.of_eq h.config)
  | kept =>
      exact hs.save hlockups h.config
        ⟨⟨lockup, rfl⟩, hflag, hlocked.weighs, hlocked.closing_lt⟩

/-! ### A withdrawal that succeeds -/

/-- What `storeRemaining` needs: a user with a position. -/
theorem storeRemaining_of_index {key : LockupKey} (lockup : LockupInfoV2)
    (h : 1 ≤ (s.user key.user).lockupPositionsIndex) :
    ∃ t, storeRemaining s key lockup = .ok t := by
  unfold storeRemaining
  split
  · simp only [bind_eq_ok, Uint.sub_eq_ok]
    exact ⟨_, _, ⟨h, rfl⟩, rfl⟩
  · exact ⟨_, rfl⟩

theorem decreasedTotal_of_le {total : Option Nat} {amount : Nat} (h : amount ≤ total.getD 0) :
    ∃ rest, decreasedTotal total amount = .ok rest := by
  cases total with
  | none => exact ⟨0, rfl⟩
  | some la => exact ⟨la - amount, Uint.checkedSub_eq_ok.mpr ⟨h, rfl⟩⟩

/-- A stored lockup counts as a position of its user. -/
theorem Ledger.index_pos (h : Ledger s) {key : LockupKey} {st : StoredLockup}
    (hst : s.lockupInfo.mayLoad key = some st) :
    1 ≤ (s.user key.user).lockupPositionsIndex := by
  rw [h.positions]
  have hle := Map.le_sum hst fun k _ => if k.user = key.user then 1 else 0
  rwa [if_pos rfl] at hle

/-- The books count the units of an open lockup. -/
theorem Ledger.units_le (h : Ledger s) {key : LockupKey} {st : StoredLockup}
    (hst : s.lockupInfo.mayLoad key = some st) (hopen : ¬ s.Left key) :
    st.core.lpUnitsLocked ≤ s.amountIn key.poolType ∧
      st.core.lpUnitsLocked ≤ s.userTotal key.poolType key.user := by
  have hnone : st.core.astroportLpTransferred = none := by
    by_contra hne
    exact hopen ⟨st, hst, hne⟩
  have hunits : s.unitsOf key = st.core.lpUnitsLocked := by
    rw [unitsOf_of_mayLoad hst, LockupCore.openUnits_of_open hnone]
  rw [← hunits]
  exact ⟨h.unitsOf_le_amount key, h.unitsOf_le_total key⟩

/-- The pool's running weight covers the weight of every lockup of the pool. -/
theorem Weighted.weight_le (h : Weighted s) {key : LockupKey} {st : StoredLockup}
    (hst : s.lockupInfo.mayLoad key = some st) :
    s.config.weight st.core.lpUnitsLocked key.duration ≤ s.weightedIn key.poolType := by
  have hle := Map.le_sum hst fun k st =>
    if k.poolType = key.poolType then s.config.weight st.core.lpUnitsLocked k.duration else 0
  rw [if_pos rfl] at hle
  exact hle.trans (h.weights key.poolType)

theorem withdraw_ok {key : LockupKey} {st : StoredLockup} {amount : Nat} {funds : List Coin}
    (hledger : Ledger s) (hweighted : Weighted s) (hlocked : Locked s key st)
    (hopen : ¬ s.Left key) (hearly : env.time < s.config.lockEnd)
    (hst : s.lockupInfo.mayLoad key = some st) (hpos : 0 < amount)
    (hle : amount ≤ st.core.lpUnitsLocked)
    (hdecimal : st.core.lpUnitsLocked * FixedPoint.fractional < 2 ^ 128)
    (hsmall : s.config.weight amount key.duration < 2 ^ 128) :
    ∃ r, handleWithdrawFromLockup q s env ⟨s.config.auctionContract, funds⟩ key.user
      key.poolType key.duration amount = .ok r := by
  obtain ⟨lockup, rfl⟩ := hlocked.current
  obtain ⟨hinPool, hinTotal⟩ := hledger.units_le hst hopen
  have hflag : lockup.withdrawalFlag = false := hlocked.unflagged
  change amount ≤ lockup.lpUnitsLocked at hle
  change lockup.lpUnitsLocked * _ < _ at hdecimal
  change lockup.lpUnitsLocked ≤ _ at hinPool
  change lockup.lpUnitsLocked ≤ _ at hinTotal
  obtain ⟨pool, hpool⟩ : ∃ pool, s.assetPools.mayLoad key.poolType = some pool := by
    cases hfound : s.assetPools.mayLoad key.poolType with
    | some pool => exact ⟨pool, rfl⟩
    | none =>
        change _ ≤ (s.assetPools.mayLoad key.poolType).elim 0 _ at hinPool
        rw [hfound, Option.elim_none] at hinPool
        omega
  rw [amountIn_of_mayLoad hpool] at hinPool
  have hload : compatibleLoad q s key = .ok lockup := by
    simp only [compatibleLoad, bind_eq_ok, Map.load_eq_ok]
    exact ⟨_, hst, rfl⟩
  have hweight : s.config.weight amount key.duration ≤ pool.weightedAmount := by
    have hwhole := hweighted.weight_le hst
    rw [Storage.weightedIn, hpool, Option.elim_some] at hwhole
    exact (s.config.weight_mono key.duration hle).trans hwhole
  -- everything may be withdrawn, as a decimal
  have hunits : FixedPoint.ofUint lockup.lpUnitsLocked =
      .ok ⟨lockup.lpUnitsLocked * FixedPoint.fractional⟩ :=
    FixedPoint.ofUint_eq_ok.mpr ⟨hdecimal, rfl⟩
  have hallowed : FixedPoint.checkedMul
      (⟨lockup.lpUnitsLocked * FixedPoint.fractional⟩ : Decimal) FixedPoint.one =
      .ok ⟨lockup.lpUnitsLocked * FixedPoint.fractional⟩ := by
    rw [FixedPoint.checkedMul_eq_ok]
    simp only [FixedPoint.one, Nat.mul_div_cancel _ FixedPoint.fractional_pos, and_true]
    exact hdecimal
  have hfloor : FixedPoint.toUintFloor
      (⟨lockup.lpUnitsLocked * FixedPoint.fractional⟩ : Decimal) = lockup.lpUnitsLocked :=
    Nat.mul_div_cancel _ FixedPoint.fractional_pos
  -- what is left of the position is stored, and the total goes down
  obtain ⟨t, hstore⟩ := storeRemaining_of_index
    { lockup with
      lpUnitsLocked := lockup.lpUnitsLocked - amount
      withdrawalFlag := lockup.withdrawalFlag || decide (s.config.lockEnd ≤ env.time) }
    (hledger.index_pos hst)
  obtain ⟨-, -, -, -, htotals, -⟩ := storeRemaining_ok hstore
  have hcovered :
      amount ≤ (t.totalUserLockupAmount.mayLoad (key.poolType, key.user)).getD 0 := by
    rw [htotals]
    exact hle.trans hinTotal
  obtain ⟨total, htotal⟩ := decreasedTotal_of_le hcovered
  have hclosing := hlocked.closing_lt
  have hopenWindow : ¬ s.config.closing ≤ env.time :=
    Nat.not_le_of_lt (hearly.trans_le s.config.lockEnd_le_closing)
  unfold handleWithdrawFromLockup
  simp only [bind_eq_ok, rejectIf_eq_ok, exists_const, SnapshotMap.load, Map.load_eq_ok,
    Uint.checkedSub_eq_ok]
  refine ⟨_, fun hne => hne rfl, _, windowsEnd_of_closing hclosing, hopenWindow, hpos.ne', pool,
    hpool, lockup, hload, by simp [hflag], _, maxWithdrawalPercent_of_early hclosing hearly, _,
    hunits, _, hallowed, ?_, _, lockWindowEnd_of_closing hclosing, _, ⟨hle, rfl⟩, _,
    hlocked.weighs.calculateWeight hsmall, _, ⟨hweight, rfl⟩, _, ⟨hle.trans hinPool, rfl⟩, t,
    hstore, total, htotal, rfl⟩
  rw [hfloor]
  exact Nat.not_lt_of_le hle

end State

/-! ### Runs -/

variable {E : Type} {x : Externals E}

/-- A transaction of a run in which the books agree and the weights add up: liquidity is
only migrated after the windows closed, the token info is only set while nothing is locked,
and an increase of an existing position adds up. -/
def Whole (w : World E) : Action E → Prop
  | .execute _ (.increaseLockupFor user poolType amount duration) =>
      AddsUp w.storage ⟨poolType, user, duration⟩ amount
  | a => Orderly w a

theorem Whole.orderly {w : World E} {a : Action E} (h : Whole w a) : Orderly w a := by
  cases a with
  | execute info msg =>
      cases msg with
      | increaseLockupFor => trivial
      | _ => exact h
  | _ => trivial

/-- What holds between two transactions of such a run. -/
structure Locking (w : World E) : Prop where
  books : Invariant w
  early : w.env.time < w.storage.config.lockEnd → Weighted w.storage ∧ AllLocked w.storage

/-- While the lock window is open nobody claims or migrates. -/
theorem Whole.additive {w w' : World E} {info : MessageInfo} {msg : ExecuteMsg}
    (h : Whole w (.execute info msg)) (hexec : w.execute x info msg = .ok w')
    (hearly : w.env.time < w.storage.config.lockEnd) : Additive w (.execute info msg) := by
  have hwindows := hearly.trans_le w.storage.config.lockEnd_le_closing
  obtain ⟨r, hr, -, hsender⟩ := execute_ok hexec
  obtain ⟨-, heffect⟩ := execute_effect hsender hr
  cases heffect with
  | increase => exact h
  | withdraw => trivial
  | initPool => trivial
  | setTokenInfo => exact h
  | reconfigure msg hmsg =>
      cases msg with
      | increaseNTRNIncentives => rfl
      | updateConfig => rfl
      | proposeNewOwner => rfl
      | dropOwnershipProposal => rfl
      | claimOwnership => rfl
      | _ => cases hmsg
  | claim _ _ _ _ _ _ _ _ hclaim => exact absurd hclaim.late (Nat.not_le_of_lt hwindows)
  | migrate =>
      have hlate : w.storage.config.closing ≤ w.env.time := h
      exact absurd hlate (Nat.not_le_of_lt hwindows)

theorem AllLocked.execute {w w' : World E} {info : MessageInfo} {msg : ExecuteMsg}
    (h : AllLocked w.storage) (hwhole : Whole w (.execute info msg))
    (hearly : w.env.time < w.storage.config.lockEnd)
    (hexec : w.execute x info msg = .ok w') : AllLocked w'.storage := by
  have hwindows := hearly.trans_le w.storage.config.lockEnd_le_closing
  obtain ⟨r, hr, hrun, hsender⟩ := execute_ok hexec
  obtain ⟨-, heffect⟩ := execute_effect hsender hr
  have hmessages : External r.messages → AllLocked r.storage → AllLocked w'.storage := by
    intro hext hlocked
    obtain ⟨ext, -, rfl⟩ := externals_ok hext hrun
    exact hlocked
  cases heffect with
  | increase key amount pool weight lockup userInfo hmsgs hinc =>
      exact hmessages (.of_nil hmsgs)
        (hinc.locked (fun hnone => closing_lt_of_increase hr hnone) h)
  | withdraw key amount pool weight st lockup hmsgs hwith =>
      exact hmessages (.of_nil hmsgs) (hwith.locked hearly h)
  | initPool poolType incentivesShare sender amount pool hauction hinit =>
      refine hmessages hinit.external ?_
      rw [hinit.storage]
      exact h.of_terms rfl (.refl _)
  | setTokenInfo atomToken usdcToken generator hmsgs hstorage =>
      refine hmessages (.of_nil hmsgs) ?_
      rw [hstorage]
      exact h.of_terms rfl ⟨rfl, rfl, rfl, rfl, rfl⟩
  | reconfigure msg hmsg hmsgs hsame =>
      exact hmessages (.of_nil hmsgs) (h.of_terms hsame.lockupInfo hsame.terms)
  | claim _ _ _ _ _ _ _ _ hclaim => exact absurd hclaim.late (Nat.not_le_of_lt hwindows)
  | migrate =>
      have hlate : w.storage.config.closing ≤ w.env.time := hwhole
      exact absurd hlate (Nat.not_le_of_lt hwindows)

theorem Locking.exec {w w' : World E} {a : Action E} (h : Locking w) (hwhole : Whole w a)
    (hexec : World.exec x w a = .ok w') : Locking w' where
  books := h.books.exec hwhole.orderly hexec
  early hearly := by
    -- the window was open before, too
    have honward := World.exec_onward hexec
    have hbefore : w.env.time < w.storage.config.lockEnd := by
      rw [← honward.terms.lockEnd]
      exact honward.time.trans_lt hearly
    obtain ⟨hweighted, hlocked⟩ := h.early hbefore
    cases a with
    | advance seconds blocks =>
        obtain rfl := Except.ok.inj hexec
        exact ⟨hweighted, hlocked⟩
    | drift ext =>
        obtain rfl := Except.ok.inj hexec
        exact ⟨hweighted, hlocked⟩
    | migrate pclLockdropContract =>
        have hadditive : Additive w (.migrate pclLockdropContract) := trivial
        refine ⟨hweighted.exec hadditive hexec, ?_⟩
        obtain rfl := Except.ok.inj hexec
        exact hlocked.of_terms rfl (.refl _)
    | execute info msg =>
        exact ⟨hweighted.exec (hwhole.additive hexec hbefore) hexec,
          hlocked.execute hwhole hbefore hexec⟩

theorem Locking.init {env : Env} {info : MessageInfo} {msg : InstantiateMsg} {w : World E}
    (h : instantiate env info msg = .ok w.storage) : Locking w where
  books := Invariant.init h
  early _ := by
    refine ⟨Weighted.init h, ?_⟩
    intro key st hst
    rw [instantiate_ok h] at hst
    cases hst

/-- While the lock window is open the auction can withdraw any part of any lockup, in every
state of a run in which every increase of an existing position adds up. -/
theorem withdrawal_possible {env : Env} {info : MessageInfo} {msg : InstantiateMsg}
    {w : World E} {as : List (Action E)} {key : LockupKey} {st : StoredLockup} {amount : Nat}
    (q : Querier) (funds : List Coin) (hinit : instantiate env info msg = .ok w.storage)
    (h : Along (World.exec x) Whole w as)
    (hearly : (run (World.exec x) w as).env.time <
      (run (World.exec x) w as).storage.config.lockEnd)
    (hst : (run (World.exec x) w as).storage.lockupInfo.mayLoad key = some st)
    (hpos : 0 < amount) (hle : amount ≤ st.core.lpUnitsLocked)
    (hdecimal : st.core.lpUnitsLocked * FixedPoint.fractional < 2 ^ 128)
    (hweight : (run (World.exec x) w as).storage.config.weight amount key.duration < 2 ^ 128) :
    ∃ r, execute q (run (World.exec x) w as).storage (run (World.exec x) w as).env
      ⟨(run (World.exec x) w as).storage.config.auctionContract, funds⟩
      (.withdrawFromLockup key.user key.poolType key.duration amount) = .ok r := by
  have hlocking : Locking (run (World.exec x) w as) :=
    run_invariant_along Locking (fun _ _ _ => Locking.exec) (Locking.init hinit) h
  generalize run (World.exec x) w as = v at *
  obtain ⟨hweighted, hlocked⟩ := hlocking.early hearly
  have hopen : ¬ v.storage.Left key := by
    intro hleft
    have hlate := hlocking.books.left key hleft
    have hle := v.storage.config.lockEnd_le_closing
    omega
  exact withdraw_ok hlocking.books.consistent.ledger hweighted (hlocked key st hst) hopen hearly
    hst hpos hle hdecimal hweight

/-- The lockdrop while the lock window is open, with two deposits of Bob in one position. -/
def bobLocks (first second : Nat) : List (Action SampleExt) :=
  [.execute ⟨"owner", []⟩ (.setTokenInfo "atom_lp" "usdc_lp" "generator"),
    .advance 150 10,
    .execute ⟨"auction", []⟩ (.increaseLockupFor "bob" .usdc first 1),
    .execute ⟨"auction", []⟩ (.increaseLockupFor "bob" .usdc second 1)]

/-- A position that grew by an even amount can be withdrawn as a whole. -/
theorem withdrawal_possible_sample :
    ∃ r, execute (sampleExternals.querier ⟨∅, ∅, 0⟩)
      (run (World.exec sampleExternals) halfWeightStart (bobLocks 1 2)).storage
      (run (World.exec sampleExternals) halfWeightStart (bobLocks 1 2)).env
      ⟨(run (World.exec sampleExternals) halfWeightStart
        (bobLocks 1 2)).storage.config.auctionContract, []⟩
      (.withdrawFromLockup "bob" .usdc 1 3) = .ok r := by
  have hwhole : Along (World.exec sampleExternals) Whole halfWeightStart (bobLocks 1 2) := by
    refine ⟨rfl, trivial, ?_, ?_, trivial⟩
    · intro st hst
      cases hst
    · intro st hst
      obtain rfl : _ = st := Option.some.inj hst
      decide
  exact @withdrawal_possible SampleExt sampleExternals ⟨0, 1, "lockdrop"⟩ ⟨"owner", []⟩
    halfWeightMsg halfWeightStart (bobLocks 1 2) ⟨.usdc, "bob", 1⟩
    (.v2 ⟨3, none, false, 0, 0, [], 251⟩) 3 _ [] rfl hwhole (by decide) rfl (by decide)
    (by decide) (by decide) (by decide)

/-- Bob locked one unit twice and cannot take both back at once: each counts with weight
one in the pool, together they weigh three. -/
theorem split_deposit_stuck :
    instantiate ⟨0, 1, "lockdrop"⟩ ⟨"owner", []⟩ halfWeightMsg = .ok halfWeightStart.storage ∧
      ∃ w, run (World.exec sampleExternals) halfWeightStart (bobLocks 1 1) = w ∧
        w.env.time < w.storage.config.lockEnd ∧
        w.storage.lockupInfo.mayLoad ⟨.usdc, "bob", 1⟩ =
          some (.v2 ⟨2, none, false, 0, 0, [], 251⟩) ∧
        (execute (sampleExternals.querier w.ext) w.storage w.env ⟨"auction", []⟩
          (.withdrawFromLockup "bob" .usdc 1 2)).map (fun _ => ()) =
            .error (.overflow .sub) := by
  refine ⟨rfl, _, rfl, ?_⟩
  decide

end NeutronTge.Lockdrop
