import NeutronTge.Auction.Payouts
import NeutronTge.Lockdrop.Consistency
import NeutronTge.Lockdrop.Limits

/-!
# NeutronTge.Composed.LockedLp

The auction and the lockdrop count the same locked LP tokens. `LockLp` and `WithdrawLp` change
the auction's amounts and send the lockdrop the message that changes its own, in one
transaction, so both accept it or neither does. Nothing else moves the amounts on either side
until the lockdrop's windows close, and `InitPool` sends each pool the amount that its lockups
count.
-/

namespace NeutronTge.LockedLp

open CosmWasm Astroport
open Lockdrop (PoolType LockupKey)

/-- The contracts around the auction and the lockdrop, with one state. -/
structure Outside (F : Type) where
  /-- The address of the auction. -/
  auction : Addr
  tokenBalance : F → Addr → Except StdError Nat
  getRate : F → Addr → Except StdError (List Auction.PriceFeedRate)
  auctionExec : F → Auction.CosmosMsg → Except StdError F
  lockdrop : Lockdrop.Externals F

/-- The auction's world, with the lockdrop's world around it. -/
abbrev World (F : Type) := Auction.World (Lockdrop.World F)

variable {F : Type}

/-- What the lockdrop understands of the message that LP tokens are sent with. -/
def lockdropHook : Auction.SendHook → Option Lockdrop.Cw20HookMsg
  | .initializePool poolType incentivesShare => some (.initializePool poolType incentivesShare)
  | .registerVestingAccounts _ => none

section Exec

variable (o : Outside F)

/-- Execute a message of the auction: the other contracts notice it, and the lockdrop executes
what is sent to it. -/
def deliver (e : Lockdrop.World F) (msg : Auction.CosmosMsg) :
    Except StdError (Lockdrop.World F) := do
  let ext ← o.auctionExec e.ext msg
  match msg with
  | .executeLockdrop lockdrop lockdropMsg =>
      if lockdrop = e.env.contract then
        Lockdrop.World.execute o.lockdrop { e with ext := ext } ⟨o.auction, []⟩ lockdropMsg
      else .ok { e with ext := ext }
  | .lpSend lpToken contract amount hook =>
      if contract = e.env.contract then
        Lockdrop.World.execute o.lockdrop { e with ext := ext } ⟨lpToken, []⟩
          (.receive ⟨o.auction, amount, lockdropHook hook⟩)
      else .ok { e with ext := ext }
  | _ => .ok { e with ext := ext }

/-- The other contracts as the auction sees them. -/
def Outside.externals : Auction.Externals (Lockdrop.World F) where
  tokenBalance e := o.tokenBalance e.ext
  getRate e := o.getRate e.ext
  exec := deliver o

/-- What happens in a run of the auction with the lockdrop. -/
inductive Action (F : Type)
  /-- Time passes. -/
  | advance (seconds blocks : Nat)
  /-- The other contracts change by themselves. -/
  | drift (ext : F)
  /-- Somebody sends coins to the auction. -/
  | donate (coins : List Coin)
  | auction (info : MessageInfo) (msg : Auction.ExecuteMsg)
  | lockdrop (info : MessageInfo) (msg : Lockdrop.ExecuteMsg)

/-- The block after some time. -/
def later (env : Env) (seconds blocks : Nat) : Env :=
  { env with time := env.time + seconds, height := env.height + blocks }

/-- One action of a run. -/
def exec (w : World F) : Action F → Except StdError (World F)
  | .advance seconds blocks => .ok
      { w with
        env := later w.env seconds blocks
        ext := { w.ext with env := later w.ext.env seconds blocks } }
  | .drift ext => .ok { w with ext := { w.ext with ext := ext } }
  | .donate coins => .ok { w with bank := w.bank.receive coins }
  | .auction info msg => Auction.World.execute o.externals w info msg
  | .lockdrop info msg => do
      let ext ← Lockdrop.World.execute o.lockdrop w.ext info msg
      .ok { w with ext := ext }

end Exec

/-- Both contracts right after they were instantiated, for each other. -/
structure Started (o : Outside F) (w : World F) : Prop where
  auction : Auction.Started w
  lockdrop : ∃ env info msg, Lockdrop.instantiate env info msg = .ok w.ext.storage
  lockdropAddress : w.storage.config.lockdropContractAddress = none ∨
    w.storage.config.lockdropContractAddress = some w.ext.env.contract
  auctionAddress : w.ext.storage.config.auctionContract = o.auction

/-- The messages to the lockdrop that keep its auction and leave its lockups to the auction:
no claims and migrations, and token info only while nothing is locked. -/
def Admitted (o : Outside F) (s : Lockdrop.Storage) : Lockdrop.ExecuteMsg → Prop
  | .setTokenInfo _ _ _ => s.lockupInfo = ∅
  | .updateConfig newConfig =>
      newConfig.auctionContractAddress = none ∨ newConfig.auctionContractAddress = some o.auction
  | .claimRewardsAndOptionallyUnlock _ _ _ | .migrateLiquidityToPCLPools _ => False
  | _ => True

/-- The auction keeps its lockdrop, and others send the lockdrop what is admitted. -/
def Settled (o : Outside F) (w : World F) : Action F → Prop
  | .auction _ msg => msg.lockdropAddress = none ∨ msg.lockdropAddress = some w.ext.env.contract
  | .lockdrop info msg => info.sender ≠ o.auction ∧ Admitted o w.ext.storage msg
  | _ => True

variable {o : Outside F} {w w' : World F} {e e' : Lockdrop.World F}

/-! ### What the lockdrop does -/

/-- Nothing moved in the lockdrop's books. -/
structure Unmoved (s s' : Lockdrop.Storage) : Prop where
  ledger : Lockdrop.Ledger s → Lockdrop.Ledger s'
  left : ∀ key, s'.Left key → s.Left key
  total : ∀ p u, s'.userTotal p u = s.userTotal p u
  amount : ∀ p, s'.amountIn p = s.amountIn p
  auction : s'.config.auctionContract = s.config.auctionContract

namespace Unmoved

variable {s t u : Lockdrop.Storage}

theorem refl (s : Lockdrop.Storage) : Unmoved s s :=
  ⟨id, fun _ => id, fun _ _ => rfl, fun _ => rfl, rfl⟩

theorem trans (h : Unmoved s t) (h' : Unmoved t u) : Unmoved s u where
  ledger := h'.ledger ∘ h.ledger
  left key hleft := h.left key (h'.left key hleft)
  total p v := (h'.total p v).trans (h.total p v)
  amount p := (h'.amount p).trans (h.amount p)
  auction := h'.auction.trans h.auction

end Unmoved

section Lockdrop

variable {s s' : Lockdrop.Storage} {env : Env}

theorem unmoved_reconfigures (h : Lockdrop.Reconfigures s s')
    (hauction : s'.config.auctionContract = s.config.auctionContract) : Unmoved s s' where
  ledger := (@Lockdrop.Reconfigures.ledgerStep ⟨0, 0, ""⟩ s s' h).ledger
  left key hleft := by
    obtain ⟨st, hst, hne⟩ := hleft
    exact ⟨st, h.lockupInfo ▸ hst, hne⟩
  total p u := congrArg (fun m => (m.mayLoad (p, u)).getD 0) h.totals
  amount := Lockdrop.amountIn_congr h.assetPools
  auction := hauction

theorem unmoved_initializes {p : PoolType} {incentivesShare amount : Nat}
    {pool : Lockdrop.PoolInfo} {msgs : List Lockdrop.CosmosMsg}
    (h : Lockdrop.Initializes s s' env p incentivesShare amount pool msgs) : Unmoved s s' where
  ledger := h.ledgerStep.ledger
  left key hleft := by
    obtain ⟨st, hst, hne⟩ := hleft
    exact ⟨st, by rw [h.storage] at hst; exact hst, hne⟩
  total q u := by rw [h.storage]; rfl
  amount q := by
    rw [h.storage, Lockdrop.amountIn_save rfl]
    split_ifs with hq
    · rw [hq, Lockdrop.amountIn_of_mayLoad h.pool_eq]
    · rfl
  auction := by rw [h.storage]

/-- The pools are empty before and after they are set up, because nothing is locked. -/
theorem unmoved_setTokenInfo {atomToken usdcToken generator : Addr} (hs : Lockdrop.Ledger s)
    (hempty : s.lockupInfo = ∅) :
    Unmoved s { s with
      assetPools := (s.assetPools.save .atom (.initial atomToken) env.height).save .usdc
        (.initial usdcToken) env.height
      config := { s.config with generator := some generator } } := by
  have hstep := @Lockdrop.ledgerStep_setTokenInfo s env atomToken usdcToken generator hempty
  refine ⟨hstep.ledger, fun _ => id, fun _ _ => rfl, fun p => ?_, rfl⟩
  -- the sums over the lockups are the same, whatever the lockups are
  exact ((hstep.ledger hs).amount p).trans (hs.amount p).symm

theorem reconfigures_auction {q : Lockdrop.Querier} {info : MessageInfo}
    {msg : Lockdrop.ExecuteMsg} {r : Lockdrop.Response} (hmsg : msg.reconfigures = true)
    (hadmitted : Admitted o s msg) (hauction : s.config.auctionContract = o.auction)
    (h : Lockdrop.execute q s env info msg = .ok r) :
    r.storage.config.auctionContract = s.config.auctionContract := by
  cases msg with
  | updateConfig newConfig =>
      simp only [Lockdrop.execute, Lockdrop.handleUpdateConfig, bind_eq_ok, rejectIf_eq_ok,
        exists_const, Except.ok.injEq] at h
      obtain ⟨-, -, rfl⟩ := h
      show newConfig.auctionContractAddress.getD s.config.auctionContract = _
      rcases hadmitted with hnone | hsome
      · rw [hnone, Option.getD_none]
      · rw [hsome, Option.getD_some, hauction]
  | increaseNTRNIncentives =>
      simp only [Lockdrop.execute, Lockdrop.handleIncreasingNtrnIncentives, bind_eq_ok,
        rejectIf_eq_ok, exists_const, Except.ok.injEq] at h
      obtain ⟨_, -, -, _, -, _, -, rfl⟩ := h
      rfl
  | proposeNewOwner | dropOwnershipProposal | claimOwnership =>
      simp only [Lockdrop.execute, bind_eq_ok, Except.ok.injEq] at h
      obtain ⟨_, -, rfl⟩ := h
      rfl
  | _ => cases hmsg

/-- Nothing that others are admitted to send moves the books. -/
theorem lockdrop_unmoved {info : MessageInfo} {msg : Lockdrop.ExecuteMsg}
    (hs : Lockdrop.Ledger e.storage) (hauction : e.storage.config.auctionContract = o.auction)
    (hsender : info.sender ≠ o.auction) (hadmitted : Admitted o e.storage msg)
    (h : Lockdrop.World.execute o.lockdrop e info msg = .ok e') :
    e'.env = e.env ∧ Unmoved e.storage e'.storage := by
  obtain ⟨r, hr, hrun, hself⟩ := Lockdrop.execute_ok h
  obtain ⟨-, heffect⟩ := Lockdrop.execute_effect hself hr
  cases heffect with
  | increase _ _ _ _ _ _ _ hinc => exact absurd (hinc.sender.trans hauction) hsender
  | withdraw _ _ _ _ _ _ _ hwith => exact absurd (hwith.sender.trans hauction) hsender
  | initPool _ _ _ _ _ _ hinit =>
      obtain ⟨ext, -, rfl⟩ := Lockdrop.externals_ok hinit.external hrun
      exact ⟨rfl, unmoved_initializes hinit⟩
  | setTokenInfo _ _ _ hmsgs hset =>
      rw [hmsgs] at hrun
      obtain rfl := Except.ok.inj hrun
      refine ⟨rfl, ?_⟩
      show Unmoved e.storage r.storage
      rw [hset]
      exact unmoved_setTokenInfo hs hadmitted
  | reconfigure _ hmsg hmsgs hsame =>
      rw [hmsgs] at hrun
      obtain rfl := Except.ok.inj hrun
      exact ⟨rfl, unmoved_reconfigures hsame (reconfigures_auction hmsg hadmitted hauction hr)⟩
  | claim => exact hadmitted.elim
  | migrate => exact hadmitted.elim

/-- Receiving LP tokens moves nothing. -/
theorem receive_unmoved {info : MessageInfo} {msg : Lockdrop.Cw20ReceiveMsg}
    (h : Lockdrop.World.execute o.lockdrop e info (.receive msg) = .ok e') :
    e'.env = e.env ∧ Unmoved e.storage e'.storage := by
  obtain ⟨r, hr, hrun, hself⟩ := Lockdrop.execute_ok h
  obtain ⟨-, heffect⟩ := Lockdrop.execute_effect hself hr
  cases heffect with
  | initPool _ _ _ _ _ _ hinit =>
      obtain ⟨ext, -, rfl⟩ := Lockdrop.externals_ok hinit.external hrun
      exact ⟨rfl, unmoved_initializes hinit⟩
  | reconfigure _ hmsg => cases hmsg

end Lockdrop

/-! ### The messages of the auction -/

/-- The auction's messages that are not about lockups. -/
def Quiet (msgs : List Auction.CosmosMsg) : Prop :=
  ∀ m ∈ msgs, ∀ lockdrop msg, m ≠ .executeLockdrop lockdrop msg

theorem deliver_unmoved {msg : Auction.CosmosMsg}
    (hmsg : ∀ lockdrop lockdropMsg, msg ≠ .executeLockdrop lockdrop lockdropMsg)
    (h : deliver o e msg = .ok e') : e'.env = e.env ∧ Unmoved e.storage e'.storage := by
  unfold deliver at h
  rw [bind_eq_ok] at h
  obtain ⟨ext, -, h⟩ := h
  cases msg with
  | executeLockdrop lockdrop lockdropMsg => exact absurd rfl (hmsg _ _)
  | lpSend lpToken contract amount hook =>
      simp only at h
      split_ifs at h
      · exact @receive_unmoved F o { e with ext := ext } e' _ _ h
      · obtain rfl := Except.ok.inj h
        exact ⟨rfl, .refl _⟩
  | _ =>
      obtain rfl := Except.ok.inj h
      exact ⟨rfl, .refl _⟩

theorem quiet_unmoved {msgs : List Auction.CosmosMsg} (hmsgs : Quiet msgs)
    (h : msgs.foldlM (deliver o) e = .ok e') : e'.env = e.env ∧ Unmoved e.storage e'.storage := by
  refine foldlM_relation (R := fun a b : Lockdrop.World F => b.env = a.env ∧
    Unmoved a.storage b.storage) (fun t => ⟨rfl, .refl _⟩) ?_ ?_ h
  · rintro a b c ⟨henv, hab⟩ ⟨henv', hbc⟩
    exact ⟨henv'.trans henv, hab.trans hbc⟩
  · intro a b m hm hstep
    exact deliver_unmoved (hmsgs m hm) hstep

/-- A message about a lockup reaches the lockdrop. -/
theorem deliver_lockdrop {lockdrop : Addr} {msg : Lockdrop.ExecuteMsg}
    (hlockdrop : lockdrop = e.env.contract)
    (h : deliver o e (.executeLockdrop lockdrop msg) = .ok e') :
    e'.env = e.env ∧ ∃ ext, Lockdrop.World.exec o.lockdrop { e with ext := ext }
      (.execute ⟨o.auction, []⟩ msg) = .ok e' := by
  unfold deliver at h
  rw [bind_eq_ok] at h
  obtain ⟨ext, -, h⟩ := h
  simp only [if_pos hlockdrop] at h
  exact ⟨(Lockdrop.World.execute_within h).env, ext, h⟩

/-! ### The two sides agree -/

/-- The auction and the lockdrop count the same, and no lockup has left. -/
structure Agrees (o : Outside F) (w : World F) : Prop where
  lockdropAddress : w.storage.config.lockdropContractAddress = none ∨
    w.storage.config.lockdropContractAddress = some w.ext.env.contract
  auctionAddress : w.ext.storage.config.auctionContract = o.auction
  ledger : Lockdrop.Ledger w.ext.storage
  stays : ∀ key, ¬ w.ext.storage.Left key
  user : ∀ p u, (w.storage.user u).lpLocked p = w.ext.storage.userTotal p u
  pool : ∀ p, w.storage.state.lpLocked p = w.ext.storage.amountIn p

/-- Neither side moved. -/
theorem Agrees.of_same (h : Agrees o w)
    (haddress : w'.storage.config.lockdropContractAddress = none ∨
      w'.storage.config.lockdropContractAddress = some w'.ext.env.contract)
    (huser : ∀ p u, (w'.storage.user u).lpLocked p = (w.storage.user u).lpLocked p)
    (hstate : ∀ p, w'.storage.state.lpLocked p = w.storage.state.lpLocked p)
    (hunmoved : Unmoved w.ext.storage w'.ext.storage) : Agrees o w' where
  lockdropAddress := haddress
  auctionAddress := hunmoved.auction.trans h.auctionAddress
  ledger := hunmoved.ledger h.ledger
  stays key hleft := h.stays key (hunmoved.left key hleft)
  user p u := by rw [huser, h.user, hunmoved.total]
  pool p := by rw [hstate, h.pool, hunmoved.amount]

/-- The address is the same, and so are the two contracts. -/
theorem Agrees.sameAddress (h : Agrees o w)
    (hconfig : w'.storage.config.lockdropContractAddress =
      w.storage.config.lockdropContractAddress) (henv : w'.ext.env = w.ext.env) :
    w'.storage.config.lockdropContractAddress = none ∨
      w'.storage.config.lockdropContractAddress = some w'.ext.env.contract := by
  rw [hconfig, henv]
  exact h.lockdropAddress

theorem Agrees.lockdrop_eq (h : Agrees o w) {lockdrop : Addr}
    (hlockdrop : w.storage.config.lockdropContractAddress = some lockdrop) :
    lockdrop = w.ext.env.contract := by
  rcases h.lockdropAddress with hnone | hsome
  · rw [hnone] at hlockdrop
    cases hlockdrop
  · exact Option.some.inj (hlockdrop.symm.trans hsome)

/-- The users' locked amounts after one of them was written. -/
theorem lpLocked_written {s s' : Auction.Storage} {addr : Addr} {user : Auction.UserInfo}
    {asset : PoolType} {locked : Nat} (huser : s.users.mayLoad addr = some user)
    (husers : s'.users = s.users.save addr (user.withLpLocked asset locked)) (p : PoolType)
    (u : Addr) :
    (s'.user u).lpLocked p =
      if (p, u) = (asset, addr) then locked else (s.user u).lpLocked p := by
  rw [Auction.user_save husers]
  by_cases hu : u = addr
  · rw [if_pos hu, hu, Auction.user_eq_of_load huser, Auction.lpLocked_withLpLocked]
    simp
  · rw [if_neg hu, if_neg fun heq => hu (Prod.mk.inj heq).2]

/-- A lockup of one user changes on both sides. -/
theorem Agrees.of_written (h : Agrees o w) {addr : Addr} {user : Auction.UserInfo}
    {asset : PoolType} {total locked : Nat}
    (huser : w.storage.users.mayLoad addr = some user)
    (hstorage : w'.storage = { w.storage with
      state := w.storage.state.withLpLocked asset total
      users := w.storage.users.save addr (user.withLpLocked asset locked) })
    (henv : w'.ext.env = w.ext.env)
    (hauction : w'.ext.storage.config.auctionContract = w.ext.storage.config.auctionContract)
    (hstep : Lockdrop.LedgerStep w.ext.env w.ext.storage w'.ext.storage)
    (hearly : w.ext.env.time < w.ext.storage.config.closing)
    (htotals : w'.ext.storage.totalUserLockupAmount =
      w.ext.storage.totalUserLockupAmount.save (asset, addr) locked w.ext.env.height)
    {pool : Lockdrop.PoolInfo} (hpool : pool.amountInLockups = total)
    (hpools : w'.ext.storage.assetPools =
      w.ext.storage.assetPools.save asset pool w.ext.env.height) : Agrees o w' where
  lockdropAddress := h.sameAddress (by rw [hstorage]) henv
  auctionAddress := hauction.trans h.auctionAddress
  ledger := hstep.ledger h.ledger
  stays key hk := by
    rcases hstep.left key hk with hleft | hlate
    · exact h.stays key hleft
    · exact absurd hlate (Nat.not_le_of_lt hearly)
  user p u := by
    obtain ⟨htotal, hothers⟩ := Lockdrop.userTotal_save htotals
    rw [lpLocked_written huser (by rw [hstorage])]
    split_ifs with hpu
    · obtain ⟨rfl, rfl⟩ := Prod.mk.inj hpu
      exact htotal.symm
    · rw [hothers p u hpu, h.user]
  pool p := by
    rw [hstorage]
    show (w.storage.state.withLpLocked asset total).lpLocked p = _
    rw [Auction.state_lpLocked_withLpLocked, Lockdrop.amountIn_save hpools, hpool, h.pool]

section Lockups

variable {info info' : MessageInfo} {msgs : List Auction.CosmosMsg} {asset : PoolType}
  {amount duration : Nat} {user : Auction.UserInfo} {lockdrop : Addr} {pool : Lockdrop.PoolInfo}
  {weight : Nat}

/-- The amounts that both sides write are the same. -/
theorem Agrees.amounts (h : Agrees o w) {addr : Addr}
    (huser : w.storage.users.mayLoad addr = some user)
    (hpool : w.ext.storage.assetPools.mayLoad asset = some pool) :
    (w.ext.storage.totalUserLockupAmount.mayLoad (asset, addr)).getD 0 = user.lpLocked asset ∧
      pool.amountInLockups = w.storage.state.lpLocked asset := by
  have htotal := h.user asset addr
  have hamount := h.pool asset
  rw [Auction.user_eq_of_load huser] at htotal
  rw [Lockdrop.amountIn_of_mayLoad hpool] at hamount
  exact ⟨htotal.symm, hamount.symm⟩

theorem Agrees.locks (h : Agrees o w) {lockup : Lockdrop.LockupInfoV2}
    {userInfo : Lockdrop.UserInfo} {ext : F}
    (hlocks : Auction.Locks w.storage w'.storage w.env info msgs asset amount duration user
      lockdrop) (henv : w'.ext.env = w.ext.env)
    (hincreases : Lockdrop.Increases { w.ext with ext := ext }.storage w'.ext.storage
      { w.ext with ext := ext }.env info' ⟨asset, info.sender, duration⟩ amount pool weight lockup
      userInfo) : Agrees o w' := by
  obtain ⟨htotal, hamount⟩ := h.amounts hlocks.user_eq hincreases.pool_eq
  have hearly : w.ext.env.time < w.ext.storage.config.closing :=
    Nat.lt_of_lt_of_le hincreases.early (Nat.le_add_right _ _)
  refine h.of_written hlocks.user_eq hlocks.storage henv (by rw [hincreases.config])
    (hincreases.ledgerStep (h.stays _)) hearly ?_ ?_ hincreases.assetPools
  · rw [← htotal]
    exact hincreases.totals
  · rw [← hamount]

theorem Agrees.unlocks (h : Agrees o w) {st : Lockdrop.StoredLockup}
    {lockup : Lockdrop.LockupInfoV2} {ext : F}
    (hunlocks : Auction.Unlocks w.storage w'.storage w.env info msgs asset amount duration user
      lockdrop) (henv : w'.ext.env = w.ext.env)
    (hwithdraws : Lockdrop.Withdraws { w.ext with ext := ext }.storage w'.ext.storage
      { w.ext with ext := ext }.env info' ⟨asset, info.sender, duration⟩ amount pool weight st
      lockup) : Agrees o w' := by
  obtain ⟨htotal, hamount⟩ := h.amounts hunlocks.user_eq hwithdraws.pool_eq
  refine h.of_written hunlocks.user_eq hunlocks.storage henv (by rw [hwithdraws.config])
    (hwithdraws.ledgerStep (h.stays _)) hwithdraws.early ?_ ?_ hwithdraws.assetPools
  · rw [← htotal]
    exact hwithdraws.totals
  · rw [← hamount]

end Lockups

/-! ### Transactions of the auction -/

/-- What is locked in the auction is the same. -/
structure SameLocked (s s' : Auction.Storage) : Prop where
  user : ∀ p u, (s'.user u).lpLocked p = (s.user u).lpLocked p
  state : ∀ p, s'.state.lpLocked p = s.state.lpLocked p

theorem sameLocked_save {s s' : Auction.Storage} {addr : Addr} {user : Auction.UserInfo}
    (husers : s'.users = s.users.save addr user)
    (huser : ∀ p, user.lpLocked p = (s.user addr).lpLocked p)
    (hstate : ∀ p, s'.state.lpLocked p = s.state.lpLocked p) : SameLocked s s' where
  user p u := by
    rw [Auction.user_save husers]
    split_ifs with hu
    · rw [hu, huser]
    · rfl
  state := hstate

/-- What a transaction of the auction does: it tells the lockdrop of a lockup that it changed,
or it leaves alone what is locked. -/
inductive Shift (o : Outside F) (w w' : World F) (info : MessageInfo) : Auction.ExecuteMsg → Prop
  | locks (asset : PoolType) (amount duration : Nat) (user : Auction.UserInfo) (lockdrop : Addr)
      (msgs : List Auction.CosmosMsg)
      (h : Auction.Locks w.storage w'.storage w.env info msgs asset amount duration user lockdrop)
      (hdeliver : deliver o w.ext (.executeLockdrop lockdrop
        (.increaseLockupFor info.sender asset amount duration)) = .ok w'.ext) :
      Shift o w w' info (.lockLp asset amount duration)
  | unlocks (asset : PoolType) (amount duration : Nat) (user : Auction.UserInfo)
      (lockdrop : Addr) (msgs : List Auction.CosmosMsg)
      (h : Auction.Unlocks w.storage w'.storage w.env info msgs asset amount duration user
        lockdrop)
      (hdeliver : deliver o w.ext (.executeLockdrop lockdrop
        (.withdrawFromLockup info.sender asset duration amount)) = .ok w'.ext) :
      Shift o w w' info (.withdrawLp asset amount duration)
  | quiet (msg : Auction.ExecuteMsg) (hsame : SameLocked w.storage w'.storage)
      (haddress : w'.storage.config.lockdropContractAddress =
        (msg.lockdropAddress <|> w.storage.config.lockdropContractAddress))
      (henv : w'.ext.env = w.ext.env) (hunmoved : Unmoved w.ext.storage w'.ext.storage) :
      Shift o w w' info msg

theorem quiet_vestingMsg {lpToken vesting : Addr} {amount : Nat}
    {accounts : List Vesting.VestingAccount} :
    Quiet (Auction.vestingMsg lpToken vesting amount accounts) := by
  intro m hm lockdrop msg
  unfold Auction.vestingMsg at hm
  split_ifs at hm
  · cases hm
  · rw [List.mem_singleton.mp hm]
    exact Auction.CosmosMsg.noConfusion

theorem quiet_withdrawMsg {user : Addr} {denom : String} {amount : Nat} :
    Quiet (Auction.withdrawMsg user denom amount) := by
  intro m hm lockdrop msg
  unfold Auction.withdrawMsg at hm
  split_ifs at hm
  · rw [List.mem_singleton.mp hm]
    exact Auction.CosmosMsg.noConfusion
  · cases hm

theorem quiet_lockedLpMsg {lockdrop lpToken : Addr} {p : PoolType}
    {amount incentivesShare : Nat} :
    Quiet (Auction.lockedLpMsg lockdrop lpToken p amount incentivesShare) := by
  intro m hm contract msg
  unfold Auction.lockedLpMsg at hm
  split_ifs at hm
  · cases hm
  · rw [List.mem_singleton.mp hm]
    exact Auction.CosmosMsg.noConfusion

theorem Quiet.append {msgs msgs' : List Auction.CosmosMsg} (h : Quiet msgs) (h' : Quiet msgs') :
    Quiet (msgs ++ msgs') := by
  intro m hm
  rcases List.mem_append.mp hm with hm | hm
  · exact h m hm
  · exact h' m hm

theorem quiet_finalizes {q : Auction.Querier} {s s' : Auction.Storage} {env : Env}
    {msgs : List Auction.CosmosMsg} {prev cur : Auction.PoolBalance} {lockdrop : Addr}
    {poolInfo : Auction.PoolInfo}
    (h : Auction.Finalizes q s s' env msgs prev lockdrop poolInfo cur) : Quiet msgs := by
  rw [h.messages]
  exact (Quiet.append (by simp [Quiet]) quiet_lockedLpMsg).append quiet_lockedLpMsg

theorem auction_shift {info : MessageInfo} {msg : Auction.ExecuteMsg}
    (h : Auction.World.execute o.externals w info msg = .ok w') : Shift o w w' info msg := by
  rcases Auction.execute_cases h with ⟨msgs, hresponds, hne⟩ | ⟨rfl, w₁, usdcDenom, atomDenom,
    poolInfo, prev, cur, lockdrop, provide₁, provide₂, msgs, hinit⟩
  · have hrun : msgs.foldlM (deliver o) w.ext = .ok w'.ext := hresponds.exec
    have hquiet : Quiet msgs → w'.ext.env = w.ext.env ∧ Unmoved w.ext.storage w'.ext.storage :=
      fun hmsgs => quiet_unmoved hmsgs hrun
    have heffect := hresponds.effect
    cases heffect with
    | configure _ _ hmsgs hconf =>
        obtain ⟨henv, hunmoved⟩ := hquiet (by simp [Quiet, hmsgs])
        refine .quiet _ ⟨fun p u => ?_, fun p => by rw [hconf.state]⟩ hconf.lockdrop henv hunmoved
        rw [Auction.Storage.user, hconf.users]
        rfl
    | deposit _ _ _ _ hmsgs hdeposits =>
        obtain ⟨henv, hunmoved⟩ := hquiet (by simp [Quiet, hmsgs])
        refine .quiet _ (sameLocked_save (by rw [hdeposits.storage]) ?_ ?_)
          (by rw [hdeposits.storage]; rfl) henv hunmoved
        · intro p
          cases p <;> rfl
        · intro p
          rw [hdeposits.storage]
          cases p <;> rfl
    | withdraw _ _ _ _ user _ hwithdraws =>
        obtain ⟨henv, hunmoved⟩ := hquiet
          (hwithdraws.messages ▸ quiet_withdrawMsg.append quiet_withdrawMsg)
        refine .quiet _ (sameLocked_save (by rw [hwithdraws.storage]) ?_ ?_)
          (by rw [hwithdraws.storage]; rfl) henv hunmoved
        · intro p
          rw [Auction.user_eq_of_load hwithdraws.user_eq]
          cases p <;> rfl
        · intro p
          rw [hwithdraws.storage]
          cases p <;> rfl
    | size _ _ _ _ _ _ _ _ hmsgs hsizes =>
        obtain ⟨henv, hunmoved⟩ := hquiet (by simp [Quiet, hmsgs])
        refine .quiet _ ⟨fun p u => ?_, fun p => ?_⟩ (by rw [hsizes.storage]; rfl) henv hunmoved
        · rw [hsizes.storage]
          rfl
        · rw [hsizes.storage]
          cases p <;> rfl
    | initPool => exact absurd rfl hne
    | lock asset amount duration user lockdrop hlocks =>
        rw [hlocks.messages] at hrun
        exact .locks asset amount duration user lockdrop msgs hlocks (foldlM_singleton_ok.mp hrun)
    | unlock asset amount duration user lockdrop hunlocks =>
        rw [hunlocks.messages] at hrun
        exact .unlocks asset amount duration user lockdrop msgs hunlocks
          (foldlM_singleton_ok.mp hrun)
    | vest _ _ hvests =>
        obtain ⟨henv, hunmoved⟩ := hquiet
          (hvests.messages ▸ quiet_vestingMsg.append quiet_vestingMsg)
        refine .quiet _ ⟨hvests.sameLocked, fun p => ?_⟩ (by rw [hvests.storage]; rfl) henv hunmoved
        rw [hvests.storage]
  · -- the liquidity is provided first, then the callback divides it
    have hprovided : [provide₁, provide₂].foldlM (deliver o) w.ext = .ok w₁.ext := hinit.exec₁
    have hdivided : msgs.foldlM (deliver o) w₁.ext = .ok w'.ext := hinit.exec
    have hprovides : Quiet [provide₁, provide₂] := by
      have hmessages := hinit.starts.messages
      simp only [List.cons.injEq] at hmessages
      obtain ⟨rfl, rfl, -⟩ := hmessages
      simp [Quiet, Auction.buildProvideLiquidityToLpPoolMsg]
    obtain ⟨henv₁, hunmoved₁⟩ := quiet_unmoved hprovides hprovided
    obtain ⟨henv, hunmoved⟩ := quiet_unmoved (quiet_finalizes hinit.finalizes) hdivided
    refine .quiet _ ⟨fun p u => ?_, fun p => ?_⟩ (by rw [hinit.finalizes.storage]; rfl)
      (henv.trans henv₁) (hunmoved₁.trans hunmoved)
    · rw [hinit.finalizes.storage]
      rfl
    · rw [hinit.finalizes.storage]
      cases p <;> rfl

/-- The two sides agree after a transaction of the auction. -/
theorem Agrees.auction {info : MessageInfo} {msg : Auction.ExecuteMsg} (h : Agrees o w)
    (hmsg : msg.lockdropAddress = none ∨ msg.lockdropAddress = some w.ext.env.contract)
    (hexec : Auction.World.execute o.externals w info msg = .ok w') : Agrees o w' := by
  cases auction_shift hexec with
  | locks asset amount duration user lockdrop msgs hlocks hdeliver =>
      obtain ⟨henv, ext, hlockdrop⟩ := deliver_lockdrop
        (h.lockdrop_eq hlocks.window.lockdrop_eq) hdeliver
      obtain ⟨pool, weight, lockup, userInfo, info', hincreases⟩ :=
        @Lockdrop.increases_of_exec _ _ _ _ ⟨asset, info.sender, duration⟩ _ _ hlockdrop
      exact h.locks hlocks henv hincreases
  | unlocks asset amount duration user lockdrop msgs hunlocks hdeliver =>
      obtain ⟨henv, ext, hlockdrop⟩ := deliver_lockdrop
        (h.lockdrop_eq hunlocks.window.lockdrop_eq) hdeliver
      obtain ⟨pool, weight, st, lockup, info', hwithdraws, -⟩ :=
        @Lockdrop.withdraws_of_exec _ _ _ _ ⟨asset, info.sender, duration⟩ _ _ hlockdrop
      exact h.unlocks hunlocks henv hwithdraws
  | quiet _ hsame haddress henv hunmoved =>
      refine h.of_same ?_ hsame.user hsame.state hunmoved
      rw [haddress, henv]
      rcases hmsg with hnone | hsome
      · rw [hnone]
        exact h.lockdropAddress
      · rw [hsome]
        exact Or.inr rfl

/-- The two sides agree after every action of a settled run. -/
theorem Agrees.exec {a : Action F} (h : Agrees o w) (hsettled : Settled o w a)
    (hexec : LockedLp.exec o w a = .ok w') : Agrees o w' := by
  cases a with
  | advance _ _ | drift _ | donate _ =>
      obtain rfl := Except.ok.inj hexec
      exact h.of_same h.lockdropAddress (fun _ _ => rfl) (fun _ => rfl) (.refl _)
  | auction info msg => exact h.auction hsettled hexec
  | lockdrop info msg =>
      simp only [LockedLp.exec, bind_eq_ok, Except.ok.injEq] at hexec
      obtain ⟨ext, hlockdrop, rfl⟩ := hexec
      obtain ⟨henv, hunmoved⟩ := lockdrop_unmoved h.ledger h.auctionAddress hsettled.1 hsettled.2
        hlockdrop
      exact h.of_same (h.sameAddress rfl henv) (fun _ _ => rfl) (fun _ => rfl) hunmoved

/-- Nothing is locked at the start. -/
theorem Started.agrees (h : Started o w) : Agrees o w := by
  obtain ⟨env, info, msg, hinit⟩ := h.lockdrop
  have hledger := (@Lockdrop.Invariant.init F env info msg w.ext hinit).consistent.ledger
  have hfresh := Auction.Fresh.of_started h.auction
  have hstorage := Lockdrop.instantiate_ok hinit
  refine ⟨h.lockdropAddress, h.auctionAddress, hledger, ?_, fun p u => ?_, fun p => ?_⟩
  · rintro key ⟨st, hst, -⟩
    rw [hstorage] at hst
    cases hst
  · rw [hfresh.user, Auction.lpLocked_default, hstorage]
    rfl
  · rw [hfresh.state, hstorage]
    cases p <;> rfl

/-! ### The results -/

/-- What a user has locked of a pool, for any duration. -/
def lockedSum (s : Lockdrop.Storage) (p : PoolType) (u : Addr) : Nat :=
  s.lockupInfo.sum fun k st => if k.poolType = p ∧ k.user = u then st.core.lpUnitsLocked else 0

theorem lockedSum_eq {s : Lockdrop.Storage} (h : ∀ key, ¬ s.Left key) (p : PoolType) (u : Addr) :
    lockedSum s p u = s.userOpenSum p u := by
  have hsum : s.userOpenSum p u = s.lockupInfo.sum fun k st =>
    if k.poolType = p ∧ k.user = u then st.core.openUnits else 0 := rfl
  rw [hsum]
  refine Map.sum_congr fun k st hst => ?_
  have hopen : st.core.astroportLpTransferred = none := by
    by_contra hne
    exact h k ⟨st, hst, hne⟩
  rw [Lockdrop.LockupCore.openUnits_of_open hopen]

/-- The LP tokens of a pool that a message sends to the lockdrop to stake. -/
def staked (lockdrop : Addr) (p : PoolType) : Auction.CosmosMsg → Option Nat
  | .lpSend _ contract amount (.initializePool poolType _) =>
      if contract = lockdrop ∧ poolType = p then some amount else none
  | _ => none

/-- What the two contracts agree on. -/
structure AgreesOnLp (o : Outside F) (w : World F) : Prop where
  /-- What a user has locked, over all durations. -/
  user : ∀ p u, (w.storage.user u).lpLocked p = lockedSum w.ext.storage p u
  /-- What all have locked. -/
  pool : ∀ p, w.storage.state.lpLocked p = w.ext.storage.amountIn p
  /-- `InitPool` sends the lockdrop what is locked, once for each pool. -/
  sends : ∀ {info : MessageInfo} {w' : World F}, exec o w (.auction info .initPool) = .ok w' →
    ∃ msgs, w'.trace = w.trace ++ msgs ∧ ∀ p, w'.ext.storage.amountIn p = w.ext.storage.amountIn p ∧
      msgs.filterMap (staked w.ext.env.contract p) =
        if w.ext.storage.amountIn p = 0 then [] else [w.ext.storage.amountIn p]
  /-- After it, no message of the auction changes what the lockdrop counts. -/
  after : ∀ {info info' : MessageInfo} {msg : Auction.ExecuteMsg} {w' v : World F}
    (as : List (Action F)), exec o w (.auction info .initPool) = .ok w' →
    exec o (run (exec o) w' as) (.auction info' msg) = .ok v →
    ∀ p, v.ext.storage.amountIn p = (run (exec o) w' as).ext.storage.amountIn p

/-- The lock window of the auction is over. -/
def Late (w : World F) : Prop := w.storage.config.lockEnd ≤ w.env.time

theorem Late.exec {a : Action F} (h : Late w) (hexec : LockedLp.exec o w a = .ok w') : Late w' := by
  cases a with
  | advance seconds _ =>
      obtain rfl := Except.ok.inj hexec
      exact h.trans (Nat.le_add_right _ _)
  | drift _ | donate _ =>
      obtain rfl := Except.ok.inj hexec
      exact h
  | auction info msg =>
      obtain ⟨hterms, henv⟩ := Auction.World.execute_terms hexec
      show w'.storage.config.lockEnd ≤ w'.env.time
      rw [hterms.lockEnd, henv]
      exact h
  | lockdrop info msg =>
      simp only [LockedLp.exec, bind_eq_ok, Except.ok.injEq] at hexec
      obtain ⟨_, -, rfl⟩ := hexec
      exact h

theorem Late.run (h : Late w) (as : List (Action F)) : Late (run (LockedLp.exec o) w as) :=
  @run_invariant _ _ _ (LockedLp.exec o) Late (fun _ _ _ ht hexec => ht.exec hexec) as w h

/-- No lockup is changed when the lock window is over. -/
theorem Late.unmoved {info : MessageInfo} {msg : Auction.ExecuteMsg} (h : Late w)
    (hexec : LockedLp.exec o w (.auction info msg) = .ok w') :
    Unmoved w.ext.storage w'.ext.storage := by
  cases auction_shift hexec with
  | locks _ _ _ _ _ _ hlocks => exact absurd h (Nat.not_le_of_lt hlocks.window.early)
  | unlocks _ _ _ _ _ _ hunlocks => exact absurd h (Nat.not_le_of_lt hunlocks.window.early)
  | quiet _ _ _ _ hunmoved => exact hunmoved

/-- `InitPool` waits for the end of the lock window. -/
theorem initPool_late {info : MessageInfo}
    (hexec : LockedLp.exec o w (.auction info .initPool) = .ok w') : Late w' := by
  obtain ⟨hterms, henv⟩ := Auction.World.execute_terms hexec
  show w'.storage.config.lockEnd ≤ w'.env.time
  rw [hterms.lockEnd, henv]
  rcases Auction.execute_cases hexec with ⟨_, -, hne⟩ | ⟨-, _, _, _, _, _, _, _, _, _, _, hinit⟩
  · exact absurd rfl hne
  · exact hinit.starts.late

theorem staked_lockedLpMsg (lockdrop lpToken : Addr) (p q : PoolType)
    (amount incentivesShare : Nat) :
    (Auction.lockedLpMsg lockdrop lpToken q amount incentivesShare).filterMap
      (staked lockdrop p) = if amount = 0 ∨ q ≠ p then [] else [amount] := by
  unfold Auction.lockedLpMsg
  by_cases hzero : amount = 0
  · simp [hzero]
  · by_cases hq : q = p <;> simp [hzero, hq, staked]

/-- The messages of `InitPool` that go to the lockdrop. -/
theorem initPool_sends {info : MessageInfo} (h : Agrees o w)
    (hexec : LockedLp.exec o w (.auction info .initPool) = .ok w') :
    ∃ msgs, w'.trace = w.trace ++ msgs ∧ ∀ p,
      msgs.filterMap (staked w.ext.env.contract p) =
        if w.ext.storage.amountIn p = 0 then [] else [w.ext.storage.amountIn p] := by
  rcases Auction.execute_cases hexec with ⟨_, -, hne⟩ | ⟨-, w₁, usdcDenom, atomDenom, poolInfo,
    prev, cur, lockdrop, provide₁, provide₂, msgs, hinit⟩
  · exact absurd rfl hne
  · refine ⟨_, hinit.trace, fun p => ?_⟩
    have hmessages := hinit.starts.messages
    simp only [List.cons.injEq] at hmessages
    obtain ⟨rfl, rfl, -⟩ := hmessages
    obtain rfl := h.lockdrop_eq hinit.finalizes.lockdrop_eq
    rw [hinit.finalizes.messages, ← h.pool]
    simp only [List.filterMap_cons, List.filterMap_append, staked_lockedLpMsg]
    by_cases hzero : w.storage.state.lpLocked p = 0 <;> cases p <;>
      simp_all [staked, Auction.buildProvideLiquidityToLpPoolMsg, Auction.State.lpLocked]

/-- The auction and the lockdrop agree on the locked LP tokens in every state of every settled
run. -/
theorem locked_lp_agrees {w₀ : World F} {as : List (Action F)} (hstart : Started o w₀)
    (h : Along (exec o) (Settled o) w₀ as) : AgreesOnLp o (run (exec o) w₀ as) := by
  have hagrees : Agrees o (run (exec o) w₀ as) :=
    run_invariant_along (Agrees o) (fun _ _ _ => Agrees.exec) hstart.agrees h
  generalize run (exec o) w₀ as = w at hagrees
  constructor
  · intro p u
    rw [hagrees.user, lockedSum_eq hagrees.stays]
    exact hagrees.ledger.owner p u
  · exact hagrees.pool
  · intro info w' hinit
    obtain ⟨msgs, htrace, hsends⟩ := initPool_sends hagrees hinit
    have hmoved : Unmoved w.ext.storage w'.ext.storage := by
      cases auction_shift hinit with
      | quiet _ _ _ _ hunmoved => exact hunmoved
    exact ⟨msgs, htrace, fun p => ⟨hmoved.amount p, hsends p⟩⟩
  · intro info info' msg w' v as' hinit hafter p
    exact (((initPool_late hinit).run as').unmoved hafter).amount p

/-! ### A sample run -/

/-- The contracts around both samples. -/
def sampleOutside : Outside (Auction.SampleExt × Lockdrop.SampleExt) where
  auction := "auction"
  tokenBalance f := Auction.sampleExternals.tokenBalance f.1
  getRate f := Auction.sampleExternals.getRate f.1
  auctionExec f msg := do
    let ext ← f.1.exec msg
    .ok (ext, f.2)
  lockdrop :=
    { querier := fun f => f.2.querier
      exec := fun f msg => do
        let ext ← f.2.exec msg
        .ok (f.1, ext) }

/-- Both sample contracts right after they were instantiated. -/
def sampleStart : World (Auction.SampleExt × Lockdrop.SampleExt) where
  storage := (Auction.sampleInstantiateMsg 10).storage ⟨"owner", []⟩
  bank _ := 0
  ext :=
    { storage := Lockdrop.sampleInstantiateMsg.storage ⟨"owner", []⟩
      ext := (⟨0, 0⟩, ⟨∅, ∅, 0⟩)
      env := ⟨10, 1, "lockdrop"⟩
      trace := [] }
  env := ⟨10, 1, "auction"⟩
  trace := []

theorem sampleStart_started : Started sampleOutside sampleStart where
  auction := ⟨⟨⟨10, 1, "auction"⟩, ⟨"owner", []⟩, Auction.sampleInstantiateMsg 10, rfl, rfl⟩, rfl⟩
  lockdrop := ⟨⟨10, 1, "lockdrop"⟩, ⟨"owner", []⟩, Lockdrop.sampleInstantiateMsg, rfl⟩
  lockdropAddress := Or.inr rfl
  auctionAddress := rfl

/-- alice deposits and locks 200 LP tokens for one duration and 50 for another, of which she
withdraws 20. -/
def sampleLocks : List (Action (Auction.SampleExt × Lockdrop.SampleExt)) :=
  [.lockdrop ⟨"owner", []⟩ (.setTokenInfo "atom_lp" "usdc_lp" "generator"),
    .auction ⟨"manager", []⟩ (.setTokenInfo (some "usdc") (some "atom")
      (some Auction.samplePools)),
    .auction ⟨"alice", [⟨"atom", 2000⟩, ⟨"usdc", 2000⟩]⟩ .deposit,
    .donate [⟨"untrn", 4000⟩],
    .advance 20 1,
    .auction ⟨"bob", []⟩ .setPoolSize,
    .auction ⟨"alice", []⟩ (.lockLp .usdc 200 1),
    .auction ⟨"alice", []⟩ (.lockLp .usdc 50 2),
    .auction ⟨"alice", []⟩ (.withdrawLp .usdc 20 2)]

theorem locked_lp_agrees_sample :
    AgreesOnLp sampleOutside (run (exec sampleOutside) sampleStart sampleLocks) :=
  locked_lp_agrees sampleStart_started
    ⟨⟨by decide, rfl⟩, Or.inl rfl, Or.inl rfl, trivial, trivial, Or.inl rfl, Or.inl rfl, Or.inl rfl,
      Or.inl rfl, trivial⟩

/-- The lockdrop counts 230 tokens, and `InitPool` sends it as many. -/
example :
    let w := run (exec sampleOutside) sampleStart (sampleLocks ++ [.advance 10 1])
    w.ext.storage.amountIn .usdc = 230 ∧
      ((run (exec sampleOutside) w [.auction ⟨"bob", []⟩ .initPool]).trace.filterMap
        (staked "lockdrop" .usdc)) = [230] := by
  decide +kernel

end NeutronTge.LockedLp
