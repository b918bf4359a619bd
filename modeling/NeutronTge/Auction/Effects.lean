import NeutronTge.Auction.Chain

/-!
# NeutronTge.Auction.Effects

What each handler of the auction does when it succeeds, with the checks it made. Later
modules cite these lemmas and never unfold a handler.
-/

namespace NeutronTge.Auction

open CosmWasm Astroport
open Lockdrop (PoolType)

variable {q : Querier} {s s' : Storage} {env : Env} {info : MessageInfo}

/-! ### Windows -/

/-- The end of the deposit window. -/
def Config.depositsEnd (config : Config) : Nat := config.initTimestamp + config.depositWindow

/-- The end of the withdrawal window. -/
def Config.closing (config : Config) : Nat := config.depositsEnd + config.withdrawalWindow

/-- The end of the window in which LP tokens are locked. -/
def Config.lockEnd (config : Config) : Nat := config.closing + config.lpTokensLockWindow

theorem Config.depositsEnd_le_closing (config : Config) : config.depositsEnd ≤ config.closing :=
  Nat.le_add_right _ _

theorem Config.closing_le_lockEnd (config : Config) : config.closing ≤ config.lockEnd :=
  Nat.le_add_right _ _

theorem depositWindowEnd_ok {config : Config} {t : Nat} (h : depositWindowEnd config = .ok t) :
    t = config.depositsEnd :=
  (Uint.add_eq_ok.mp h).2

theorem windowsEnd_ok {config : Config} {t : Nat} (h : windowsEnd config = .ok t) :
    t = config.closing := by
  simp only [windowsEnd, bind_eq_ok, Uint.add_eq_ok] at h
  obtain ⟨depositEnd, hdeposit, -, rfl⟩ := h
  rw [depositWindowEnd_ok hdeposit]
  rfl

theorem isDepositOpen_ok {config : Config} {t : Nat} (h : isDepositOpen t config = .ok true) :
    config.initTimestamp ≤ t ∧ t < config.depositsEnd := by
  unfold isDepositOpen at h
  split_ifs at h with hearly
  · cases h
  · simp only [bind_eq_ok, Except.ok.injEq, decide_eq_true_eq] at h
    obtain ⟨windowEnd, hend, hlt⟩ := h
    rw [depositWindowEnd_ok hend] at hlt
    exact ⟨Nat.le_of_not_lt hearly, hlt⟩

theorem areWindowsClosed_ok {config : Config} {t : Nat} {b : Bool}
    (h : areWindowsClosed t config = .ok b) : b = decide (config.closing ≤ t) := by
  simp only [areWindowsClosed, bind_eq_ok, Except.ok.injEq] at h
  obtain ⟨windowEnd, hend, rfl⟩ := h
  rw [windowsEnd_ok hend]

theorem isLockWindowClosed_ok {config : Config} {t : Nat} {b : Bool}
    (h : isLockWindowClosed t config = .ok b) : b = decide (config.lockEnd ≤ t) := by
  simp only [isLockWindowClosed, bind_eq_ok, Uint.add_eq_ok, Except.ok.injEq] at h
  obtain ⟨windowEnd, hend, _, ⟨-, rfl⟩, rfl⟩ := h
  rw [windowsEnd_ok hend]
  rfl

theorem getDenoms_ok {config : Config} {usdcDenom atomDenom : String}
    (h : getDenoms config = .ok (usdcDenom, atomDenom)) :
    config.usdcDenom = some usdcDenom ∧ config.atomDenom = some atomDenom := by
  simp only [getDenoms, bind_eq_ok, okOr_eq_ok, Except.ok.injEq, Prod.mk.injEq] at h
  obtain ⟨_, husdc, _, hatom, rfl, rfl⟩ := h
  exact ⟨husdc, hatom⟩

/-! ### Administration -/

/-- The terms of the auction, which no message changes. -/
structure Config.SameTerms (c c' : Config) : Prop where
  initTimestamp : c'.initTimestamp = c.initTimestamp
  depositWindow : c'.depositWindow = c.depositWindow
  withdrawalWindow : c'.withdrawalWindow = c.withdrawalWindow
  lpTokensLockWindow : c'.lpTokensLockWindow = c.lpTokensLockWindow
  ntrnDenom : c'.ntrnDenom = c.ntrnDenom
  minNtrnAmount : c'.minNtrnAmount = c.minNtrnAmount
  vestingLpDuration : c'.vestingLpDuration = c.vestingLpDuration

namespace Config.SameTerms

variable {a b c : Config}

theorem refl (c : Config) : c.SameTerms c := ⟨rfl, rfl, rfl, rfl, rfl, rfl, rfl⟩

theorem trans (h : a.SameTerms b) (h' : b.SameTerms c) : a.SameTerms c :=
  ⟨h'.initTimestamp.trans h.initTimestamp, h'.depositWindow.trans h.depositWindow,
    h'.withdrawalWindow.trans h.withdrawalWindow,
    h'.lpTokensLockWindow.trans h.lpTokensLockWindow, h'.ntrnDenom.trans h.ntrnDenom,
    h'.minNtrnAmount.trans h.minNtrnAmount, h'.vestingLpDuration.trans h.vestingLpDuration⟩

theorem depositsEnd (h : a.SameTerms b) : b.depositsEnd = a.depositsEnd := by
  simp only [Config.depositsEnd, h.initTimestamp, h.depositWindow]

theorem closing (h : a.SameTerms b) : b.closing = a.closing := by
  simp only [Config.closing, h.depositsEnd, h.withdrawalWindow]

theorem lockEnd (h : a.SameTerms b) : b.lockEnd = a.lockEnd := by
  simp only [Config.lockEnd, h.closing, h.lpTokensLockWindow]

end Config.SameTerms

/-- The messages of the owner and the token info manager. -/
def ExecuteMsg.configures : ExecuteMsg → Bool
  | .updateConfig _ => true
  | .setTokenInfo .. => true
  | _ => false

/-- The denoms that a message sets. -/
def ExecuteMsg.denoms : ExecuteMsg → Option String × Option String
  | .setTokenInfo usdcDenom atomDenom _ => (usdcDenom, atomDenom)
  | _ => (none, none)

/-- The lockdrop that a message names. -/
def ExecuteMsg.lockdropAddress : ExecuteMsg → Option Addr
  | .updateConfig newConfig => newConfig.lockdropContractAddress
  | _ => none

/-- A message that only changes the configuration. -/
structure Configures (s s' : Storage) (msg : ExecuteMsg) : Prop where
  terms : s.config.SameTerms s'.config
  state : s'.state = s.state
  users : s'.users = s.users
  usdcDenom : s'.config.usdcDenom = (msg.denoms.1 <|> s.config.usdcDenom)
  atomDenom : s'.config.atomDenom = (msg.denoms.2 <|> s.config.atomDenom)
  poolInfo : s.config.poolInfo ≠ none → s'.config.poolInfo ≠ none
  lockdrop : s'.config.lockdropContractAddress =
    (msg.lockdropAddress <|> s.config.lockdropContractAddress)

/-- What replaces a stored value is a value. -/
theorem orElse_ne_none {α : Type} {new old : Option α} (h : old ≠ none) :
    (new <|> old) ≠ none := by
  cases new with
  | none => exact h
  | some _ => exact nofun

/-! ### Deposits and withdrawals -/

/-- The record of a user, with the default for a missing one. -/
def Storage.user (s : Storage) (addr : Addr) : UserInfo := (s.users.mayLoad addr).getD .default

theorem user_save {addr : Addr} {user : UserInfo} (h : s'.users = s.users.save addr user)
    (u : Addr) : s'.user u = if u = addr then user else s.user u := by
  unfold Storage.user
  rw [h, Map.mayLoad_save_eq]
  split_ifs <;> rfl

theorem user_eq_of_load {addr : Addr} {user : UserInfo} (h : s.users.mayLoad addr = some user) :
    s.user addr = user := by
  rw [Storage.user, h, Option.getD_some]

/-- Everything a successful `Deposit` does. -/
structure Deposits (s s' : Storage) (env : Env) (info : MessageInfo)
    (usdcDenom atomDenom : String) (usdcAmount atomAmount : Nat) : Prop where
  usdcDenom_eq : s.config.usdcDenom = some usdcDenom
  atomDenom_eq : s.config.atomDenom = some atomDenom
  started : s.config.initTimestamp ≤ env.time
  early : env.time < s.config.depositsEnd
  amounts : depositAmounts usdcDenom atomDenom info.funds = .ok (usdcAmount, atomAmount)
  storage : s' = { s with
    state := { s.state with
      totalUsdcDeposited := s.state.totalUsdcDeposited + usdcAmount
      totalAtomDeposited := s.state.totalAtomDeposited + atomAmount }
    users := s.users.save info.sender { s.user info.sender with
      usdcDeposited := (s.user info.sender).usdcDeposited + usdcAmount
      atomDeposited := (s.user info.sender).atomDeposited + atomAmount } }

theorem executeDeposit_ok {r : Response} (h : executeDeposit s env info = .ok r) :
    r.messages = [] ∧ ∃ usdcDenom atomDenom usdcAmount atomAmount,
      Deposits s r.storage env info usdcDenom atomDenom usdcAmount atomAmount := by
  unfold executeDeposit at h
  simp only [bind_eq_ok, rejectIf_eq_ok, exists_const, Uint.add_eq_ok, Except.ok.injEq,
    Bool.not_eq_false] at h
  obtain ⟨⟨usdcDenom, atomDenom⟩, hdenoms, isOpen, hopen, rfl, ⟨usdcAmount, atomAmount⟩, hamounts,
    -, _, ⟨-, rfl⟩, _, ⟨-, rfl⟩, _, ⟨-, rfl⟩, _, ⟨-, rfl⟩, rfl⟩ := h
  obtain ⟨husdc, hatom⟩ := getDenoms_ok hdenoms
  obtain ⟨hstarted, hearly⟩ := isDepositOpen_ok hopen
  exact ⟨rfl, usdcDenom, atomDenom, usdcAmount, atomAmount, husdc, hatom, hstarted, hearly,
    hamounts, rfl⟩

/-- Everything a successful `Withdraw` does. -/
structure Withdraws (s s' : Storage) (env : Env) (info : MessageInfo) (msgs : List CosmosMsg)
    (usdcDenom atomDenom : String) (amountUsdc amountAtom : Nat) (user : UserInfo)
    (percent : Decimal) : Prop where
  usdcDenom_eq : s.config.usdcDenom = some usdcDenom
  atomDenom_eq : s.config.atomDenom = some atomDenom
  user_eq : s.users.mayLoad info.sender = some user
  first : user.withdrawn = false
  percent_eq : allowedWithdrawalPercent env.time s.config = .ok percent
  usdc_le : amountUsdc ≤ user.usdcDeposited * percent.atomics / FixedPoint.fractional
  atom_le : amountAtom ≤ user.atomDeposited * percent.atomics / FixedPoint.fractional
  positive : ¬ (amountUsdc = 0 ∧ amountAtom = 0)
  totalUsdc_le : amountUsdc ≤ s.state.totalUsdcDeposited
  totalAtom_le : amountAtom ≤ s.state.totalAtomDeposited
  userUsdc_le : amountUsdc ≤ user.usdcDeposited
  userAtom_le : amountAtom ≤ user.atomDeposited
  storage : s' = { s with
    state := { s.state with
      totalUsdcDeposited := s.state.totalUsdcDeposited - amountUsdc
      totalAtomDeposited := s.state.totalAtomDeposited - amountAtom }
    users := s.users.save info.sender { user with
      usdcDeposited := user.usdcDeposited - amountUsdc
      atomDeposited := user.atomDeposited - amountAtom
      withdrawn := decide (s.config.depositsEnd ≤ env.time) } }
  messages : msgs = withdrawMsg info.sender usdcDenom amountUsdc ++
    withdrawMsg info.sender atomDenom amountAtom

theorem executeWithdraw_ok {amountUsdc amountAtom : Nat} {r : Response}
    (h : executeWithdraw s env info amountUsdc amountAtom = .ok r) :
    ∃ usdcDenom atomDenom user percent, Withdraws s r.storage env info r.messages usdcDenom
      atomDenom amountUsdc amountAtom user percent := by
  unfold executeWithdraw at h
  simp only [bind_eq_ok, rejectIf_eq_ok, exists_const, Map.load_eq_ok, FixedPoint.mulUint_eq_ok,
    Uint.sub_eq_ok, Except.ok.injEq, not_or, Nat.not_lt, Bool.not_eq_true] at h
  obtain ⟨⟨usdcDenom, atomDenom⟩, hdenoms, user, huser, hfirst, percent, hpercent, _, ⟨-, rfl⟩, _,
    ⟨-, rfl⟩, ⟨husdcLe, hatomLe⟩, hpos, depositEnd, hend, _, ⟨htotalUsdc, rfl⟩, _,
    ⟨htotalAtom, rfl⟩, _, ⟨huserUsdc, rfl⟩, _, ⟨huserAtom, rfl⟩, rfl⟩ := h
  obtain ⟨husdc, hatom⟩ := getDenoms_ok hdenoms
  rw [depositWindowEnd_ok hend, hfirst, Bool.false_or]
  exact ⟨usdcDenom, atomDenom, user, percent, husdc, hatom, huser, hfirst, hpercent, husdcLe,
    hatomLe, hpos, htotalUsdc, htotalAtom, huserUsdc, huserAtom, rfl, rfl⟩

/-! ### The pool size -/

theorem getLpSize_ok {token1 token2 size : Nat} (h : getLpSize token1 token2 = .ok size) :
    minimumLiquidityAmount ≤ Nat.sqrt (token1 * token2) ∧
      size = Nat.sqrt (token1 * token2) - minimumLiquidityAmount := by
  simp only [getLpSize, mapError_eq_ok, Uint.checkedSub_eq_ok] at h
  exact h

/-- Two amounts that make an LP size are positive. -/
theorem getLpSize_pos {token1 token2 size : Nat} (h : getLpSize token1 token2 = .ok size) :
    0 < token1 ∧ 0 < token2 := by
  obtain ⟨hle, -⟩ := getLpSize_ok h
  have hpos : 0 < token1 * token2 := by
    refine Nat.pos_of_ne_zero fun hzero => ?_
    rw [hzero] at hle
    exact absurd hle (by decide)
  exact ⟨Nat.pos_of_mul_pos_right hpos, Nat.pos_of_mul_pos_left hpos⟩

/-- Everything a successful `SetPoolSize` does. -/
structure Sizes (q : Querier) (s s' : Storage) (env : Env) (atom usdc : PriceFeedRate)
    (ratio : Decimal) (ntrnAmount usdcNtrnSize atomNtrnSize usdcLpSize atomLpSize : Nat) :
    Prop where
  unminted : s.state.lpUsdcSharesMinted = none ∧ s.state.lpAtomSharesMinted = none
  late : s.config.closing ≤ env.time
  unset : s.state.usdcNtrnSize = 0 ∧ s.state.atomNtrnSize = 0
  balance_eq : q.bankBalance s.config.ntrnDenom = .ok ntrnAmount
  rates_eq : q.getRate s.config.priceFeedContract = .ok [atom, usdc]
  age_le : s.config.maxExchangeRateAge ≤ env.time
  fresh : env.time - s.config.maxExchangeRateAge ≤ atom.resolveTime
  enough : s.config.minNtrnAmount ≤ ntrnAmount
  ratio_eq : usdcRatio s.state.totalUsdcDeposited s.state.totalAtomDeposited atom.rate usdc.rate =
    .ok ratio
  usdcNtrnSize_eq : usdcNtrnSize = ntrnAmount * ratio.atomics / FixedPoint.fractional
  split : usdcNtrnSize + atomNtrnSize = ntrnAmount
  atomLpSize_eq : getLpSize atomNtrnSize s.state.totalAtomDeposited = .ok atomLpSize
  usdcLpSize_eq : getLpSize usdcNtrnSize s.state.totalUsdcDeposited = .ok usdcLpSize
  storage : s' = { s with
    state := { s.state with
      usdcNtrnSize := usdcNtrnSize
      atomNtrnSize := atomNtrnSize
      atomLpSize := atomLpSize
      usdcLpSize := usdcLpSize } }

theorem executeSetPoolSize_ok {r : Response} (h : executeSetPoolSize q s env = .ok r) :
    r.messages = [] ∧ ∃ atom usdc ratio ntrnAmount usdcNtrnSize atomNtrnSize usdcLpSize atomLpSize,
      Sizes q s r.storage env atom usdc ratio ntrnAmount usdcNtrnSize atomNtrnSize usdcLpSize
        atomLpSize := by
  unfold executeSetPoolSize at h
  simp only [bind_eq_ok, rejectIf_eq_ok, exists_const] at h
  obtain ⟨hminted, closed, hclosed, hlate, hunset, ntrnAmount, hbalance, rates, hrates, h⟩ := h
  split at h
  · rename_i atom usdc
    simp only [bind_eq_ok, rejectIf_eq_ok, exists_const, FixedPoint.mulUint_eq_ok, Uint.sub_eq_ok,
      Except.ok.injEq, Nat.not_lt] at h
    obtain ⟨_, ⟨hage, rfl⟩, hfresh, henough, ratio, hratio, usdcNtrnSize, ⟨-, husdcNtrn⟩,
      atomNtrnSize, ⟨hle, hatomNtrn⟩, atomLpSize, hatomLp, usdcLpSize, husdcLp, rfl⟩ := h
    refine ⟨rfl, atom, usdc, ratio, ntrnAmount, usdcNtrnSize, atomNtrnSize, usdcLpSize, atomLpSize,
      ?_⟩
    constructor
    · simpa using hminted
    · rw [areWindowsClosed_ok hclosed] at hlate
      simpa using hlate
    · simpa using hunset
    · exact hbalance
    · exact hrates
    · exact hage
    · exact hfresh
    · exact henough
    · exact hratio
    · exact husdcNtrn
    · omega
    · exact hatomLp
    · exact husdcLp
    · rfl
  · cases h

/-! ### The pools -/

/-- Everything a successful `InitPool` does before its callback. -/
structure StartsPools (q : Querier) (s s' : Storage) (env : Env) (msgs : List CosmosMsg)
    (usdcDenom atomDenom : String) (poolInfo : PoolInfo) (prev : PoolBalance) : Prop where
  usdcDenom_eq : s.config.usdcDenom = some usdcDenom
  atomDenom_eq : s.config.atomDenom = some atomDenom
  unminted : s.state.lpUsdcSharesMinted = none ∧ s.state.lpAtomSharesMinted = none
  sized : ¬ (s.state.usdcLpSize = 0 ∧ s.state.atomLpSize = 0)
  late : s.config.lockEnd ≤ env.time
  poolInfo_eq : s.config.poolInfo = some poolInfo
  prev_eq : getLpBalances q poolInfo = .ok prev
  storage : s' = s
  messages : msgs =
    [buildProvideLiquidityToLpPoolMsg poolInfo.ntrnUsdcPoolAddress s.state.usdcNtrnSize
        s.config.ntrnDenom s.state.totalUsdcDeposited usdcDenom,
      buildProvideLiquidityToLpPoolMsg poolInfo.ntrnAtomPoolAddress s.state.atomNtrnSize
        s.config.ntrnDenom s.state.totalAtomDeposited atomDenom,
      .callback (.finalizePoolInitialization prev)]

theorem executeInitPool_ok {r : Response} (h : executeInitPool q s env = .ok r) :
    ∃ usdcDenom atomDenom poolInfo prev, StartsPools q s r.storage env r.messages usdcDenom
      atomDenom poolInfo prev := by
  unfold executeInitPool at h
  simp only [bind_eq_ok, rejectIf_eq_ok, exists_const, okOr_eq_ok, Except.ok.injEq] at h
  obtain ⟨⟨usdcDenom, atomDenom⟩, hdenoms, hminted, hsized, closed, hclosed, hlate, poolInfo,
    hinfo, prev, hprev, rfl⟩ := h
  obtain ⟨husdc, hatom⟩ := getDenoms_ok hdenoms
  rw [isLockWindowClosed_ok hclosed] at hlate
  exact ⟨usdcDenom, atomDenom, poolInfo, prev, husdc, hatom, by simpa using hminted, hsized,
    by simpa using hlate, hinfo, hprev, rfl, rfl⟩

/-- Everything the callback of `InitPool` does. -/
structure Finalizes (q : Querier) (s s' : Storage) (env : Env) (msgs : List CosmosMsg)
    (prev : PoolBalance) (lockdrop : Addr) (poolInfo : PoolInfo) (cur : PoolBalance) : Prop where
  lockdrop_eq : s.config.lockdropContractAddress = some lockdrop
  poolInfo_eq : s.config.poolInfo = some poolInfo
  cur_eq : getLpBalances q poolInfo = .ok cur
  usdc_le : prev.usdc ≤ cur.usdc
  atom_le : prev.atom ≤ cur.atom
  storage : s' = { s with
    state := { s.state with
      lpAtomSharesMinted := some (cur.atom - prev.atom)
      lpUsdcSharesMinted := some (cur.usdc - prev.usdc)
      poolInitTimestamp := env.time } }
  messages : msgs =
    [.lpTransfer poolInfo.ntrnUsdcLpTokenAddress s.config.reserveContractAddress
        ((cur.usdc - prev.usdc) / 2),
      .lpTransfer poolInfo.ntrnAtomLpTokenAddress s.config.reserveContractAddress
        ((cur.atom - prev.atom) / 2)] ++
      lockedLpMsg lockdrop poolInfo.ntrnAtomLpTokenAddress .atom s.state.atomLpLocked
        s.state.atomNtrnSize ++
      lockedLpMsg lockdrop poolInfo.ntrnUsdcLpTokenAddress .usdc s.state.usdcLpLocked
        s.state.usdcNtrnSize

theorem executeFinalizeInitPool_ok {prev : PoolBalance} {r : Response}
    (h : executeFinalizeInitPool q s env prev = .ok r) :
    ∃ lockdrop poolInfo cur, Finalizes q s r.storage env r.messages prev lockdrop poolInfo
      cur := by
  unfold executeFinalizeInitPool at h
  simp only [bind_eq_ok, okOr_eq_ok, Uint.sub_eq_ok, Except.ok.injEq] at h
  obtain ⟨lockdrop, hlockdrop, poolInfo, hinfo, cur, hcur, _, ⟨husdc, rfl⟩, _, ⟨hatom, rfl⟩,
    rfl⟩ := h
  exact ⟨lockdrop, poolInfo, cur, hlockdrop, hinfo, hcur, husdc, hatom, rfl, rfl⟩

theorem Finalizes.external {msgs : List CosmosMsg} {prev cur : PoolBalance} {lockdrop : Addr}
    {poolInfo : PoolInfo} (h : Finalizes q s s' env msgs prev lockdrop poolInfo cur) :
    External msgs := by
  rw [h.messages]
  intro m hm c
  unfold lockedLpMsg at hm
  simp only [List.mem_append, List.mem_cons, List.not_mem_nil, or_false] at hm
  rcases hm with ((rfl | rfl) | hm) | hm
  · exact CosmosMsg.noConfusion
  · exact CosmosMsg.noConfusion
  · split_ifs at hm
    · cases hm
    · rw [List.mem_singleton.mp hm]
      exact CosmosMsg.noConfusion
  · split_ifs at hm
    · cases hm
    · rw [List.mem_singleton.mp hm]
      exact CosmosMsg.noConfusion

/-! ### LP tokens of the users -/

/-- A user's part of the LP tokens of a pool. -/
def lpPart (userDeposited totalDeposited totalLpTokens : Nat) : Nat :=
  totalLpTokens * (userDeposited * FixedPoint.fractional / totalDeposited) /
    FixedPoint.fractional

theorem userLpAmount_ok {userDeposited totalDeposited totalLpTokens amount : Nat}
    (h : userLpAmount userDeposited totalDeposited totalLpTokens = .ok amount) :
    amount = lpPart userDeposited totalDeposited totalLpTokens := by
  unfold userLpAmount at h
  unfold lpPart
  split_ifs at h with hzero
  · obtain rfl := Except.ok.inj h
    simp [hzero]
  · simp only [bind_eq_ok, FixedPoint.fromRatio_eq_ok, FixedPoint.mulUint_eq_ok] at h
    obtain ⟨ratio, ⟨-, -, hratio⟩, -, rfl⟩ := h
    rw [hratio]

/-- What a user can lock of a pool, and what vests if he does not. -/
def lpOf (p : PoolType) (user : UserInfo) (state : State) : Nat :=
  lpPart (user.deposited p) (state.totalDeposited p) (state.lpSize p) / 2

theorem getUserLpInfo_ok {user : UserInfo} {state : State} {lp : UserLpInfo}
    (h : getUserLpInfo user state = .ok lp) : ∀ p, lp.of p = lpOf p user state := by
  simp only [getUserLpInfo, bind_eq_ok, Except.ok.injEq] at h
  obtain ⟨atom, hatom, usdc, husdc, rfl⟩ := h
  intro p
  cases p with
  | usdc => simp only [UserLpInfo.of, lpOf, userLpAmount_ok husdc, UserInfo.deposited,
      State.totalDeposited, State.lpSize]
  | atom => simp only [UserLpInfo.of, lpOf, userLpAmount_ok hatom, UserInfo.deposited,
      State.totalDeposited, State.lpSize]

/-- What both handlers of LP tokens check first. -/
structure InLockWindow (s : Storage) (env : Env) (lockdrop : Addr) : Prop where
  sized : s.state.atomNtrnSize ≠ 0 ∧ s.state.usdcNtrnSize ≠ 0
  early : env.time < s.config.lockEnd
  lockdrop_eq : s.config.lockdropContractAddress = some lockdrop

theorem lockdropInLockWindow_ok {lockdrop : Addr}
    (h : lockdropInLockWindow s env = .ok lockdrop) : InLockWindow s env lockdrop := by
  simp only [lockdropInLockWindow, bind_eq_ok, rejectIf_eq_ok, exists_const, okOr_eq_ok] at h
  obtain ⟨hsized, closed, hclosed, hearly, hlockdrop⟩ := h
  rw [isLockWindowClosed_ok hclosed] at hearly
  refine ⟨by simpa using hsized, ?_, hlockdrop⟩
  simpa using hearly

/-- Everything a successful `LockLp` does. -/
structure Locks (s s' : Storage) (env : Env) (info : MessageInfo) (msgs : List CosmosMsg)
    (asset : PoolType) (amount duration : Nat) (user : UserInfo) (lockdrop : Addr) : Prop where
  user_eq : s.users.mayLoad info.sender = some user
  window : InLockWindow s env lockdrop
  deposited : user.deposited asset ≠ 0
  locked_le : user.lpLocked asset + amount ≤ lpOf asset user s.state
  storage : s' = { s with
    state := s.state.withLpLocked asset (s.state.lpLocked asset + amount)
    users := s.users.save info.sender
      (user.withLpLocked asset (user.lpLocked asset + amount)) }
  messages : msgs =
    [.executeLockdrop lockdrop (.increaseLockupFor info.sender asset amount duration)]

theorem executeLockLpTokens_ok {asset : PoolType} {amount duration : Nat} {r : Response}
    (h : executeLockLpTokens s env info asset amount duration = .ok r) :
    ∃ user lockdrop, Locks s r.storage env info r.messages asset amount duration user
      lockdrop := by
  unfold executeLockLpTokens at h
  simp only [bind_eq_ok, rejectIf_eq_ok, exists_const, Map.load_eq_ok, Uint.sub_eq_ok,
    Uint.checkedAdd_eq_ok, Except.ok.injEq, Nat.not_lt] at h
  obtain ⟨user, huser, lockdrop, hlockdrop, lp, hlp, hdeposited, _, ⟨hle, rfl⟩, hamount, _,
    ⟨-, rfl⟩, _, ⟨-, rfl⟩, rfl⟩ := h
  rw [getUserLpInfo_ok hlp] at hle hamount
  refine ⟨user, lockdrop, huser, lockdropInLockWindow_ok hlockdrop, hdeposited, ?_, rfl, rfl⟩
  omega

/-- Everything a successful `WithdrawLp` does. -/
structure Unlocks (s s' : Storage) (env : Env) (info : MessageInfo) (msgs : List CosmosMsg)
    (asset : PoolType) (amount duration : Nat) (user : UserInfo) (lockdrop : Addr) : Prop where
  user_eq : s.users.mayLoad info.sender = some user
  window : InLockWindow s env lockdrop
  user_le : amount ≤ user.lpLocked asset
  total_le : amount ≤ s.state.lpLocked asset
  storage : s' = { s with
    state := s.state.withLpLocked asset (s.state.lpLocked asset - amount)
    users := s.users.save info.sender
      (user.withLpLocked asset (user.lpLocked asset - amount)) }
  messages : msgs =
    [.executeLockdrop lockdrop (.withdrawFromLockup info.sender asset duration amount)]

theorem executeWithdrawLpTokens_ok {asset : PoolType} {amount duration : Nat} {r : Response}
    (h : executeWithdrawLpTokens s env info asset amount duration = .ok r) :
    ∃ user lockdrop, Unlocks s r.storage env info r.messages asset amount duration user
      lockdrop := by
  unfold executeWithdrawLpTokens at h
  simp only [bind_eq_ok, Map.load_eq_ok, Uint.checkedSub_eq_ok, Except.ok.injEq] at h
  obtain ⟨user, huser, lockdrop, hlockdrop, _, ⟨huserLe, rfl⟩, _, ⟨htotalLe, rfl⟩, rfl⟩ := h
  exact ⟨user, lockdrop, huser, lockdropInLockWindow_ok hlockdrop, huserLe, htotalLe, rfl, rfl⟩

/-! ### Vesting -/

/-- The index lists the stored users that are not vested. -/
theorem mem_unvestedUsers {users : Map Addr UserInfo} {e : Addr × UserInfo} :
    e ∈ unvestedUsers users ↔ users.mayLoad e.1 = some e.2 ∧ e.2.isVested = false := by
  obtain ⟨addr, user⟩ := e
  simp only [unvestedUsers, List.mem_filterMap, List.mem_insertionSort, Option.bind_eq_some_iff,
    Map.mem_keys_iff]
  constructor
  · rintro ⟨_, -, user', huser, hsome⟩
    split_ifs at hsome with hvested
    simp only [Option.some.injEq, Prod.mk.injEq] at hsome
    obtain ⟨rfl, rfl⟩ := hsome
    exact ⟨huser, by simpa using hvested⟩
  · rintro ⟨huser, hvested⟩
    replace hvested : user.isVested = false := hvested
    exact ⟨addr, ⟨user, huser⟩, user, huser, by rw [hvested]; rfl⟩

/-- It lists every user once. -/
theorem nodup_unvestedUsers (users : Map Addr UserInfo) :
    ((unvestedUsers users).map Prod.fst).Nodup := by
  have hsorted : (users.keys.insertionSort (· ≤ ·)).Nodup :=
    (List.perm_insertionSort _ _).nodup_iff.mpr users.nodupKeys
  unfold unvestedUsers
  generalize users.keys.insertionSort (· ≤ ·) = sorted at hsorted ⊢
  induction sorted with
  | nil => exact List.nodup_nil
  | cons addr addrs ih =>
      obtain ⟨hnot, hrest⟩ := List.nodup_cons.mp hsorted
      rw [List.filterMap_cons]
      split
      · exact ih hrest
      · rename_i e he
        refine List.nodup_cons.mpr ⟨fun hmem => hnot ?_, ih hrest⟩
        obtain ⟨user, -, hsome⟩ := Option.bind_eq_some_iff.mp he
        split_ifs at hsome
        obtain rfl := Option.some.inj hsome
        obtain ⟨e', he', hfst⟩ := List.mem_map.mp hmem
        obtain ⟨addr', haddr', hsome'⟩ := List.mem_filterMap.mp he'
        obtain ⟨user', -, hsome'⟩ := Option.bind_eq_some_iff.mp hsome'
        split_ifs at hsome'
        obtain rfl := Option.some.inj hsome'
        obtain rfl : addr' = addr := hfst
        exact haddr'

/-- What is left of a user's LP tokens of a pool, and vests. -/
def vestAmount (p : PoolType) (user : UserInfo) (state : State) : Nat :=
  lpOf p user state - user.lpLocked p

/-- The vesting account of a user, if something vests. -/
def vestingAccounts (env : Env) (config : Config) (addr : Addr) (amount : Nat) :
    List Vesting.VestingAccount :=
  if amount = 0 then []
  else [⟨addr, [⟨⟨env.time, 0⟩, some ⟨env.time + config.vestingLpDuration, amount⟩⟩]⟩]

theorem vestingAccount_ok {config : Config} {addr : Addr} {amount : Nat}
    {accounts : List Vesting.VestingAccount}
    (h : vestingAccount env config addr amount = .ok accounts) :
    accounts = vestingAccounts env config addr amount ∧
      (amount ≠ 0 → env.time + config.vestingLpDuration < 2 ^ 64) := by
  unfold vestingAccount at h
  unfold vestingAccounts
  split_ifs at h ⊢ with hzero
  · exact ⟨(Except.ok.inj h).symm, fun hne => absurd hzero hne⟩
  · simp only [bind_eq_ok, Uint.add_eq_ok, Except.ok.injEq] at h
    obtain ⟨_, ⟨hend, rfl⟩, rfl⟩ := h
    exact ⟨rfl, fun _ => hend⟩

/-- The users are marked as vested. -/
def markVested (users : Map Addr UserInfo) (entries : List (Addr × UserInfo)) :
    Map Addr UserInfo :=
  entries.foldl (fun m e => m.save e.1 { e.2 with isVested := true }) users

/-- Users of different addresses are marked, and the others stay as they are. -/
theorem markVested_mayLoad : ∀ {entries : List (Addr × UserInfo)} {users : Map Addr UserInfo},
    (entries.map Prod.fst).Nodup →
    (∀ e ∈ entries, (markVested users entries).mayLoad e.1 =
      some { e.2 with isVested := true }) ∧
    ∀ u, u ∉ entries.map Prod.fst → (markVested users entries).mayLoad u = users.mayLoad u := by
  intro entries
  induction entries with
  | nil => exact fun _ => ⟨nofun, fun _ _ => rfl⟩
  | cons e entries ih =>
      intro users hnodup
      obtain ⟨hnot, hrest⟩ := List.nodup_cons.mp hnodup
      obtain ⟨hmarked, hothers⟩ := @ih (users.save e.1 { e.2 with isVested := true }) hrest
      refine ⟨fun a ha => ?_, fun u hu => ?_⟩
      · rcases List.mem_cons.mp ha with rfl | ha
        · exact (hothers _ hnot).trans (Map.mayLoad_save _ _ _)
        · exact hmarked a ha
      · rw [List.map_cons, List.mem_cons, not_or] at hu
        obtain ⟨hne, hu⟩ := hu
        exact (hothers u hu).trans (Map.mayLoad_save_ne hne _ _)

/-- The accounts of a batch of users. -/
def batchAccounts (p : PoolType) (s : Storage) (env : Env) (entries : List (Addr × UserInfo)) :
    List Vesting.VestingAccount :=
  entries.flatMap fun e => vestingAccounts env s.config e.1 (vestAmount p e.2 s.state)

/-- What vests of a batch of users. -/
def batchAmount (p : PoolType) (s : Storage) (entries : List (Addr × UserInfo)) : Nat :=
  (entries.map fun e => vestAmount p e.2 s.state).sum

/-- The loop over a batch of users. -/
theorem migrateUsers_ok : ∀ {entries : List (Addr × UserInfo)} {pack pack' : MigrationPack},
    entries.foldlM (migrateUser s env) pack = .ok pack' →
    (∀ e ∈ entries, ∀ p, e.2.lpLocked p ≤ lpOf p e.2 s.state) ∧
      (∀ e ∈ entries, ∀ p, vestAmount p e.2 s.state ≠ 0 →
        env.time + s.config.vestingLpDuration < 2 ^ 64) ∧
      pack' = ⟨markVested pack.users entries,
        pack.atomUsers ++ batchAccounts .atom s env entries,
        pack.usdcUsers ++ batchAccounts .usdc s env entries,
        pack.atomLpAmount + batchAmount .atom s entries,
        pack.usdcLpAmount + batchAmount .usdc s entries⟩ := by
  intro entries
  induction entries with
  | nil =>
      intro pack pack' h
      obtain rfl := Except.ok.inj h
      simp [markVested, batchAccounts, batchAmount]
  | cons e entries ih =>
      intro pack pack' h
      obtain ⟨mid, hmid, hrest⟩ := foldlM_cons_ok.mp h
      -- induction on the batch, for any pack collected so far
      obtain ⟨hfits, hends, rfl⟩ := ih hrest
      unfold migrateUser at hmid
      simp only [bind_eq_ok, Uint.sub_eq_ok, Uint.add_eq_ok, Except.ok.injEq] at hmid
      obtain ⟨lp, hlp, _, ⟨hatom, rfl⟩, _, ⟨husdc, rfl⟩, _, hatomUser, _, ⟨-, rfl⟩, _, husdcUser,
        _, ⟨-, rfl⟩, rfl⟩ := hmid
      have hof := getUserLpInfo_ok hlp
      have hlocked : ∀ p, e.2.lpLocked p ≤ lpOf p e.2 s.state := by
        intro p
        rw [← hof]
        cases p with
        | usdc => exact husdc
        | atom => exact hatom
      have hatomAmount : lp.atomLpAmount - e.2.atomLpLocked = vestAmount .atom e.2 s.state := by
        rw [vestAmount, ← hof]
        rfl
      have husdcAmount : lp.usdcLpAmount - e.2.usdcLpLocked = vestAmount .usdc e.2 s.state := by
        rw [vestAmount, ← hof]
        rfl
      rw [hatomAmount] at hatomUser ⊢
      rw [husdcAmount] at husdcUser ⊢
      obtain ⟨hatomAccounts, hatomEnd⟩ := vestingAccount_ok hatomUser
      obtain ⟨husdcAccounts, husdcEnd⟩ := vestingAccount_ok husdcUser
      refine ⟨?_, ?_, ?_⟩
      · intro a ha
        rcases List.mem_cons.mp ha with rfl | ha
        · exact hlocked
        · exact hfits a ha
      · intro a ha p
        rcases List.mem_cons.mp ha with rfl | ha
        · cases p with
          | usdc => exact husdcEnd
          | atom => exact hatomEnd
        · exact hends a ha p
      · rw [hatomAccounts, husdcAccounts]
        simp [markVested, batchAccounts, batchAmount, Nat.add_assoc]

/-- Everything a successful `MigrateToVesting` does. -/
structure Vests (s s' : Storage) (env : Env) (msgs : List CosmosMsg)
    (entries : List (Addr × UserInfo)) (poolInfo : PoolInfo) : Prop where
  entries_eq : entries = (unvestedUsers s.users).take s.config.vestingMigrationPackSize
  poolInfo_eq : s.config.poolInfo = some poolInfo
  initialized : s.state.poolInitTimestamp ≠ 0
  nonempty : entries ≠ []
  fits : ∀ e ∈ entries, ∀ p, e.2.lpLocked p ≤ lpOf p e.2 s.state
  ends : ∀ e ∈ entries, ∀ p, vestAmount p e.2 s.state ≠ 0 →
    env.time + s.config.vestingLpDuration < 2 ^ 64
  storage : s' = { s with users := markVested s.users entries }
  messages : msgs =
    vestingMsg poolInfo.ntrnAtomLpTokenAddress s.config.vestingAtomContractAddress
        (batchAmount .atom s entries) (batchAccounts .atom s env entries) ++
      vestingMsg poolInfo.ntrnUsdcLpTokenAddress s.config.vestingUsdcContractAddress
        (batchAmount .usdc s entries) (batchAccounts .usdc s env entries)

/-- The batch is part of the index: its users are stored, not vested, and different. -/
theorem Vests.mem {msgs : List CosmosMsg} {entries : List (Addr × UserInfo)}
    {poolInfo : PoolInfo} (h : Vests s s' env msgs entries poolInfo) {e : Addr × UserInfo}
    (he : e ∈ entries) : s.users.mayLoad e.1 = some e.2 ∧ e.2.isVested = false := by
  rw [h.entries_eq] at he
  exact mem_unvestedUsers.mp (List.mem_of_mem_take he)

theorem Vests.nodup {msgs : List CosmosMsg} {entries : List (Addr × UserInfo)}
    {poolInfo : PoolInfo} (h : Vests s s' env msgs entries poolInfo) :
    (entries.map Prod.fst).Nodup := by
  rw [h.entries_eq, List.map_take]
  exact (nodup_unvestedUsers s.users).sublist (List.take_sublist _ _)

/-- What a migration does to the stored users. -/
theorem Vests.mayLoad {msgs : List CosmosMsg} {entries : List (Addr × UserInfo)}
    {poolInfo : PoolInfo} (h : Vests s s' env msgs entries poolInfo) (u : Addr) :
    (u ∈ entries.map Prod.fst ∧ ∃ user, s.users.mayLoad u = some user ∧ (u, user) ∈ entries ∧
      user.isVested = false ∧ s'.users.mayLoad u = some { user with isVested := true }) ∨
    u ∉ entries.map Prod.fst ∧ s'.users.mayLoad u = s.users.mayLoad u := by
  obtain ⟨hmarked, hothers⟩ := @markVested_mayLoad entries s.users h.nodup
  have husers : s'.users = markVested s.users entries := by rw [h.storage]
  rw [husers]
  by_cases hu : u ∈ entries.map Prod.fst
  · left
    obtain ⟨⟨addr, user⟩, he, rfl⟩ := List.mem_map.mp hu
    obtain ⟨hstored, hvested⟩ := h.mem he
    exact ⟨hu, user, hstored, he, hvested, hmarked _ he⟩
  · exact Or.inr ⟨hu, hothers u hu⟩

theorem executeMigrateToVesting_ok {r : Response}
    (h : executeMigrateToVesting s env = .ok r) :
    ∃ entries poolInfo, Vests s r.storage env r.messages entries poolInfo := by
  unfold executeMigrateToVesting at h
  simp only [bind_eq_ok, rejectIf_eq_ok, exists_const, okOr_eq_ok, Except.ok.injEq] at h
  obtain ⟨poolInfo, hinfo, hinit, hnonempty, pack, hpack, rfl⟩ := h
  obtain ⟨hfits, hends, rfl⟩ := migrateUsers_ok hpack
  refine ⟨_, poolInfo, rfl, hinfo, hinit, hnonempty, hfits, hends, rfl, ?_⟩
  simp

theorem vestingMsg_external {lpToken vesting : Addr} {amount : Nat}
    {accounts : List Vesting.VestingAccount} : External (vestingMsg lpToken vesting amount
      accounts) := by
  intro m hm c
  unfold vestingMsg at hm
  split_ifs at hm
  · cases hm
  · rw [List.mem_singleton.mp hm]
    exact CosmosMsg.noConfusion

/-! ### All messages -/

/-- What the handler of each message does. -/
inductive Effect (q : Querier) (s : Storage) (env : Env) (info : MessageInfo)
    (s' : Storage) (msgs : List CosmosMsg) : ExecuteMsg → Prop
  | configure (msg : ExecuteMsg) (hmsg : msg.configures = true) (hmsgs : msgs = [])
      (h : Configures s s' msg) : Effect q s env info s' msgs msg
  | deposit (usdcDenom atomDenom : String) (usdcAmount atomAmount : Nat)
      (hmsgs : msgs = [])
      (h : Deposits s s' env info usdcDenom atomDenom usdcAmount atomAmount) :
      Effect q s env info s' msgs .deposit
  | withdraw (usdcDenom atomDenom : String) (amountUsdc amountAtom : Nat) (user : UserInfo)
      (percent : Decimal)
      (h : Withdraws s s' env info msgs usdcDenom atomDenom amountUsdc amountAtom
        user percent) : Effect q s env info s' msgs (.withdraw amountUsdc amountAtom)
  | size (atom usdc : PriceFeedRate) (ratio : Decimal)
      (ntrnAmount usdcNtrnSize atomNtrnSize usdcLpSize atomLpSize : Nat)
      (hmsgs : msgs = [])
      (h : Sizes q s s' env atom usdc ratio ntrnAmount usdcNtrnSize atomNtrnSize usdcLpSize
        atomLpSize) : Effect q s env info s' msgs .setPoolSize
  | initPool (usdcDenom atomDenom : String) (poolInfo : PoolInfo) (prev : PoolBalance)
      (h : StartsPools q s s' env msgs usdcDenom atomDenom poolInfo prev) :
      Effect q s env info s' msgs .initPool
  | lock (asset : PoolType) (amount duration : Nat) (user : UserInfo) (lockdrop : Addr)
      (h : Locks s s' env info msgs asset amount duration user lockdrop) :
      Effect q s env info s' msgs (.lockLp asset amount duration)
  | unlock (asset : PoolType) (amount duration : Nat) (user : UserInfo) (lockdrop : Addr)
      (h : Unlocks s s' env info msgs asset amount duration user lockdrop) :
      Effect q s env info s' msgs (.withdrawLp asset amount duration)
  | vest (entries : List (Addr × UserInfo)) (poolInfo : PoolInfo)
      (h : Vests s s' env msgs entries poolInfo) :
      Effect q s env info s' msgs .migrateToVesting

/-- A message of somebody else than the contract. -/
theorem execute_effect {msg : ExecuteMsg} {r : Response} (hsender : info.sender ≠ env.contract)
    (h : execute q s env info msg = .ok r) : Effect q s env info r.storage r.messages msg := by
  cases msg with
  | updateConfig newConfig =>
      simp only [execute, executeUpdateConfig, bind_eq_ok, rejectIf_eq_ok, exists_const,
        Except.ok.injEq] at h
      obtain ⟨-, rfl⟩ := h
      exact .configure _ rfl rfl
        ⟨⟨rfl, rfl, rfl, rfl, rfl, rfl, rfl⟩, rfl, rfl, rfl, rfl, orElse_ne_none, rfl⟩
  | setTokenInfo usdcDenom atomDenom poolInfo =>
      simp only [execute, executeSetTokenInfo, bind_eq_ok, rejectIf_eq_ok, exists_const,
        Except.ok.injEq] at h
      obtain ⟨-, rfl⟩ := h
      exact .configure _ rfl rfl
        ⟨⟨rfl, rfl, rfl, rfl, rfl, rfl, rfl⟩, rfl, rfl, rfl, rfl, orElse_ne_none, rfl⟩
  | deposit =>
      obtain ⟨hmsgs, usdcDenom, atomDenom, usdcAmount, atomAmount, hdeposits⟩ := executeDeposit_ok h
      exact .deposit usdcDenom atomDenom usdcAmount atomAmount hmsgs hdeposits
  | withdraw amountUsdc amountAtom =>
      obtain ⟨usdcDenom, atomDenom, user, percent, hwithdraws⟩ := executeWithdraw_ok h
      exact .withdraw usdcDenom atomDenom amountUsdc amountAtom user percent hwithdraws
  | setPoolSize =>
      obtain ⟨hmsgs, atom, usdc, ratio, ntrnAmount, usdcNtrnSize, atomNtrnSize, usdcLpSize,
        atomLpSize, hsizes⟩ := executeSetPoolSize_ok h
      exact .size atom usdc ratio ntrnAmount usdcNtrnSize atomNtrnSize usdcLpSize atomLpSize hmsgs
        hsizes
  | initPool =>
      obtain ⟨usdcDenom, atomDenom, poolInfo, prev, hstarts⟩ := executeInitPool_ok h
      exact .initPool usdcDenom atomDenom poolInfo prev hstarts
  | lockLp asset amount duration =>
      obtain ⟨user, lockdrop, hlocks⟩ := executeLockLpTokens_ok h
      exact .lock asset amount duration user lockdrop hlocks
  | withdrawLp asset amount duration =>
      obtain ⟨user, lockdrop, hunlocks⟩ := executeWithdrawLpTokens_ok h
      exact .unlock asset amount duration user lockdrop hunlocks
  | migrateToVesting =>
      obtain ⟨entries, poolInfo, hvests⟩ := executeMigrateToVesting_ok h
      exact .vest entries poolInfo hvests
  | callback msg =>
      cases msg with
      | finalizePoolInitialization prev =>
          simp only [execute, executeCallback, bind_eq_ok, rejectIf_eq_ok, exists_const,
            not_not] at h
          exact absurd h.1 hsender

end NeutronTge.Auction
