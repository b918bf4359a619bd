import NeutronTge.Lockdrop.Binding
import NeutronTge.Composed.Unlocking

/-!
# NeutronTge.Composed.EarlyExit

No lockup leaves early. Every message with which one of the two lockdrops moves LP tokens or
liquidity is accounted for: it stakes them, it hands a lockup over to the PCL lockdrop with
the same unlock time, or it pays the owner who unlocks after that time (`XykSends`,
`PclSends`). Every stored lockup unlocks its duration after the windows are over (`Timed`).
-/

namespace NeutronTge.Lockdrops

open CosmWasm Astroport
open Lockdrop (LockupKey LockupCore)

variable {F : Type} {o : Outside F} {w w' : World F}

/-! ### Where the LP tokens go -/

/-- A message of the XYK lockdrop that moves LP tokens or liquidity, in the transaction that
sends it: the LP tokens are the pool's, and a lockup that leaves sends what it is recorded to
have left with. -/
inductive XykSends (o : Outside F) (w w' : World F) : Action F → Lockdrop.CosmosMsg → Prop
  | staked (info : MessageInfo) (amount incentivesShare : Nat) (poolType : Lockdrop.PoolType)
      (sender lpToken generator : Addr) (hsender : sender = w.storage.config.auctionContract)
      (hgenerator : w.storage.config.generator = some generator)
      (hlp : w.storage.lpTokenOf poolType = some lpToken) :
      XykSends o w w' (.xyk info (.receive ⟨sender, amount, some (.initializePool poolType
        incentivesShare)⟩)) (.sendDeposit lpToken generator amount)
  | unlocked (info : MessageInfo) (key : LockupKey) (core : LockupCore) (lpToken : Addr)
      (share : Nat) (hsender : info.sender = key.user) (hcore : w.storage.coreOf key = some core)
      (hopen : core.astroportLpTransferred = none)
      (hlate : w.storage.config.closing + key.duration ≤ w.env.time)
      (hlp : w.storage.lpTokenOf key.poolType = some lpToken)
      (hshare : w'.storage.leftWith key = some share) :
      XykSends o w w' (.xyk info (.claimRewardsAndOptionallyUnlock key.poolType key.duration true))
        (.lpTransfer lpToken key.user share)
  | handedOver (info : MessageInfo) (raw : Option Addr) (key : LockupKey) (core : LockupCore)
      (lpToken : Addr) (share : Nat) (msg : Lockdrop.CosmosMsg)
      (hcore : w.storage.coreOf key = some core) (hopen : core.astroportLpTransferred = none)
      (hlp : w.storage.lpTokenOf key.poolType = some lpToken)
      (hshare : w'.storage.leftWith key = some share)
      (h : Hands o w.ext.env.contract key (w.storage.config.closing + key.duration) lpToken share
        msg) :
      XykSends o w w' (.xyk info (.migrateLiquidityToPCLPools raw)) msg

/-- What was sent so far in a transaction is accounted for at its end: a lockup that left keeps
what it left with. -/
theorem XykSends.later {v : World F} {a : Action F} {m : Lockdrop.CosmosMsg}
    (h : XykSends o w v a m)
    (hleft : ∀ k share, v.storage.leftWith k = some share → w'.storage.leftWith k = some share) :
    XykSends o w w' a m := by
  cases h with
  | staked info amount incentivesShare poolType sender lpToken generator hsender hgenerator hlp =>
      exact .staked info amount incentivesShare poolType sender lpToken generator hsender
        hgenerator hlp
  | unlocked info key core lpToken share hsender hcore hopen hlate hlp hshare =>
      exact .unlocked info key core lpToken share hsender hcore hopen hlate hlp
        (hleft key share hshare)
  | handedOver info raw key core lpToken share m hcore hopen hlp hshare h =>
      exact .handedOver info raw key core lpToken share m hcore hopen hlp
        (hleft key share hshare) h

/-- A message of the PCL lockdrop that moves LP tokens or liquidity: both belong to one of its
pools, and a lockup that leaves sends what it is recorded to have left with. -/
inductive PclSends (o : Outside F) (w w' : World F) : Action F → LockdropPcl.CosmosMsg → Prop
  | provided (info : MessageInfo) (msg : Lockdrop.ExecuteMsg) (f : F)
      (poolType : Lockdrop.PoolType) (lpToken pair : Addr) (assets : List Asset)
      (funds : List Coin) (hlp : w.ext.storage.lpTokenOf poolType = some lpToken)
      (hpair : (o.pcl.querier f).minter lpToken = .ok pair) :
      PclSends o w w' (.xyk info msg) (.provideLiquidity pair assets funds)
  | staked (info : MessageInfo) (msg : Lockdrop.ExecuteMsg) (poolType : Lockdrop.PoolType)
      (lpToken : Addr) (amount : Nat) (hlp : w.ext.storage.lpTokenOf poolType = some lpToken) :
      PclSends o w w' (.xyk info msg)
        (.sendDeposit lpToken w.ext.storage.config.incentives amount)
  | unlocked (info : MessageInfo) (key : LockupKey) (core : LockdropPcl.LockupCore)
      (lpToken : Addr) (share : Nat) (hsender : info.sender = key.user)
      (hcore : w.ext.storage.coreOf key = some core)
      (hopen : core.astroportLpTransferred = none)
      (hlate : w.storage.config.closing + key.duration ≤ w.env.time)
      (hlp : w.ext.storage.lpTokenOf key.poolType = some lpToken)
      (hshare : w'.ext.storage.leftWith key = some share) :
      PclSends o w w' (.pcl info (.claimRewardsAndOptionallyUnlock key.poolType key.duration true))
        (.lpTransfer lpToken key.user share)

/-- Every stored lockup unlocks its duration after the windows are over, in both
lockdrops. -/
structure Timed (w : World F) : Prop where
  linked : Linked w
  xyk : ∀ k core, w.storage.coreOf k = some core →
    core.unlockTimestamp = w.storage.config.closing + k.duration
  pcl : ∀ k core, w.ext.storage.coreOf k = some core →
    core.unlockTimestamp = w.storage.config.closing + k.duration

theorem Started.timed (h : Started o w) : Timed w := by
  obtain ⟨info, env', info', msg, msg', hxyk, hpcl, -⟩ := h.storages
  refine ⟨h.linked, ?_, ?_⟩
  · intro k core hcore
    rw [hxyk] at hcore
    cases hcore
  · intro k core hcore
    rw [hpcl] at hcore
    cases hcore

/-- What a transaction of the XYK lockdrop does to the lockups under a key keeps their
unlock times. -/
theorem Evolves.timed {info : MessageInfo} {msg : Lockdrop.ExecuteMsg} {k : LockupKey}
    (h : Evolves w w' info msg k) (ht : Timed w) :
    (∀ core, w'.storage.coreOf k = some core →
      core.unlockTimestamp = w.storage.config.closing + k.duration) ∧
    ∀ core, w'.ext.storage.coreOf k = some core →
      core.unlockTimestamp = w.storage.config.closing + k.duration := by
  have hsamePcl : w'.ext.storage.coreOf k = w.ext.storage.coreOf k →
      ∀ core, w'.ext.storage.coreOf k = some core →
        core.unlockTimestamp = w.storage.config.closing + k.duration :=
    fun hpcl core hcore => ht.pcl k core (hpcl ▸ hcore)
  -- the stored lockup of the XYK lockdrop is `core'`
  have hstored : ∀ {core' : LockupCore} {unlock : Nat}, w'.storage.coreOf k = some core' →
      core'.unlockTimestamp = unlock → unlock = w.storage.config.closing + k.duration →
      ∀ core, w'.storage.coreOf k = some core →
        core.unlockTimestamp = w.storage.config.closing + k.duration := by
    intro core' unlock hxyk hunlock heq core hcore
    obtain rfl := Option.some.inj (hxyk.symm.trans hcore)
    exact hunlock.trans heq
  cases h with
  | still hxyk hpcl =>
      exact ⟨fun core hcore => ht.xyk k core (hxyk ▸ hcore), hsamePcl hpcl⟩
  | opened core' _ _ hxyk hunlock hpcl => exact ⟨hstored hxyk hunlock rfl, hsamePcl hpcl⟩
  | kept core core' hcore hxyk hunlock _ _ hpcl =>
      exact ⟨hstored hxyk hunlock (ht.xyk k core hcore), hsamePcl hpcl⟩
  | withdrawn _ core _ _ _ hcore hrest hpcl =>
      refine ⟨fun core' hcore' => ?_, hsamePcl hpcl⟩
      exact (hrest core' hcore').1.trans (ht.xyk k core hcore)
  | unlocked core core' _ _ _ hcore _ _ hxyk hunlock _ hpcl =>
      exact ⟨hstored hxyk hunlock (ht.xyk k core hcore), hsamePcl hpcl⟩
  | handedOver core share core' _ hcore _ hxyk hpcl _ hunlock =>
      refine ⟨hstored hxyk rfl (ht.xyk k core hcore), fun core₁ hcore₁ => ?_⟩
      obtain rfl := Option.some.inj (hpcl.symm.trans hcore₁)
      exact hunlock.trans (ht.xyk k core hcore)

theorem Timed.exec {a : Action F} (ht : Timed w) (hexec : Lockdrops.exec o w a = .ok w') :
    Timed w' := by
  have hlinked := ht.linked.exec hexec
  cases a with
  | advance seconds blocks =>
      obtain rfl := Except.ok.inj hexec
      exact ⟨hlinked, ht.xyk, ht.pcl⟩
  | drift ext =>
      obtain rfl := Except.ok.inj hexec
      exact ⟨hlinked, ht.xyk, ht.pcl⟩
  | migrate =>
      obtain rfl := Except.ok.inj hexec
      exact ⟨hlinked, ht.xyk, ht.pcl⟩
  | xyk info msg =>
      have hclosing := (Lockdrop.World.execute_within hexec).terms.closing
      refine ⟨hlinked, fun k => ?_, fun k => ?_⟩ <;> rw [hclosing]
      · exact ((World.execute_evolves ht.linked.pcl hexec k).timed ht).1
      · exact ((World.execute_evolves ht.linked.pcl hexec k).timed ht).2
  | pcl info msg =>
      simp only [Lockdrops.exec, bind_eq_ok, rejectIf_eq_ok, exists_const,
        Except.ok.injEq] at hexec
      obtain ⟨hsender, e, hexecute, rfl⟩ := hexec
      refine ⟨hlinked, ht.xyk, fun k core' hcore' => ?_⟩
      rw [← ht.linked.xyk] at hsender
      have hevolves := LockdropPcl.World.execute_evolves hsender hexecute k
      replace hcore' : e.storage.coreOf k = some core' := hcore'
      cases hevolves with
      | still h => exact ht.pcl k core' (h ▸ hcore')
      | paid core core₁ hcore h _ _ _ hunlock =>
          obtain rfl := Option.some.inj (h.symm.trans hcore')
          exact hunlock.trans (ht.pcl k core hcore)
      | unlocked core core₁ _ _ _ hcore h _ _ hunlock =>
          obtain rfl := Option.some.inj (h.symm.trans hcore')
          exact hunlock.trans (ht.pcl k core hcore)

theorem World.execute_xykSends (ht : Timed w) {info : MessageInfo} {msg : Lockdrop.ExecuteMsg}
    (h : Lockdrop.World.execute o.externals w info msg = .ok w') :
    Appends (Lockdrop.Event.Moves (XykSends o w w' (.xyk info msg))) w.trace w'.trace := by
  obtain ⟨r, hr, hrun, hsender⟩ := Lockdrop.execute_ok h
  obtain ⟨hevent, heffect⟩ := Lockdrop.execute_effect hsender hr
  have hrespond : (w.respond r).trace = w.trace := by
    simp [Lockdrop.World.respond, Lockdrop.Response.events, hevent]
  have hquiet : r.messages = [] → w'.trace = w.trace := by
    intro hnil
    rw [hnil] at hrun
    obtain rfl := Except.ok.inj hrun
    exact hrespond
  cases heffect with
  | increase _ _ _ _ _ _ hmsgs => exact .of_eq (hquiet hmsgs)
  | withdraw _ _ _ _ _ _ hmsgs => exact .of_eq (hquiet hmsgs)
  | setTokenInfo _ _ _ hmsgs => exact .of_eq (hquiet hmsgs)
  | reconfigure _ _ hmsgs => exact .of_eq (hquiet hmsgs)
  | initPool poolType incentivesShare sender amount pool hauction hinit =>
      obtain ⟨ext, -, rfl⟩ := Lockdrop.externals_ok hinit.external hrun
      rw [← hrespond]
      refine Lockdrop.appends_sent (fun m hm => ?_) _
      obtain ⟨generator, height, hgenerator, hmsgs⟩ := hinit.messages
      rw [hmsgs] at hm
      simp only [List.mem_cons, List.not_mem_nil, or_false] at hm
      rcases hm with rfl | rfl
      · exact Bool.noConfusion
      · exact fun _ => .staked info amount incentivesShare poolType sender pool.lpToken generator
          hauction hgenerator (Lockdrop.lpTokenOf_of_mayLoad hinit.pool_eq)
  | claim poolType duration withdraw userInfo total t st collect hclaim =>
      obtain ⟨w₁, msgs, pool, lockup, lockup', generator, share, t', rewardMsgs, exitMsgs,
        ntrnMsgs, hcollects, hpays⟩ := Lockdrop.execute_claim_ok hclaim hrun
      have hst : w.storage.coreOf ⟨poolType, info.sender, duration⟩ = some st.core := by
        rw [Lockdrop.Storage.coreOf, ← hclaim.sameBooks.lockups, hclaim.lockup_eq, Option.map_some]
      rw [← hrespond]
      refine hcollects.moves.trans (hpays.moves fun hwithdraw => ?_)
      obtain rfl := hwithdraw
      have hunlock := ht.xyk _ _ hst
      refine .unlocked info ⟨poolType, info.sender, duration⟩ st.core pool.lpToken share rfl hst
        hclaim.lockup_open ?_ ?_ ?_
      · rw [← hunlock]
        exact hclaim.unlocked rfl
      · rw [← hclaim.sameBooks.poolsGrow.lpTokenOf]
        exact (hcollects.lpTokenOf poolType).symm.trans
          (Lockdrop.lpTokenOf_of_mayLoad hpays.paysOut.pool_eq)
      · obtain ⟨debt, hkey, -⟩ := hpays.coreOf
        exact Lockdrop.leftWith_of_core hkey
  | migrate raw hbooks hmsgs =>
      have hsame : ∀ k, (w.respond r).storage.coreOf k = w.storage.coreOf k := hbooks.lockups
      have hstart : KnowsPcl (w.respond r) :=
        ht.linked.pcl.of_eq hbooks.pclLockdropContract rfl
      -- a lockup that one of the callbacks hands over was open when the transaction began
      refine (foldlM_invariant (fun v => KnowsPcl v ∧ v.ext.env = w.ext.env ∧
        (∀ k, Migrated k (w.respond r) v) ∧
        (∀ p, v.storage.lpTokenOf p = w.storage.lpTokenOf p) ∧
        Appends (Lockdrop.Event.Moves (XykSends o w v (.xyk info
          (.migrateLiquidityToPCLPools raw)))) w.trace v.trace)
        ⟨hstart, rfl, fun k => .refl k _, hbooks.poolsGrow.lpTokenOf, .of_eq hrespond⟩ ?_
        hrun).2.2.2.2
      intro v v' m hm hv hstep
      obtain ⟨hknows, henv, hmigrated, hlp, hsends⟩ := hv
      have hlp' : ∀ p, v'.storage.lpTokenOf p = w.storage.lpTokenOf p := fun p =>
        ((Lockdrop.dispatchAll_poolsGrow (foldlM_singleton_ok.mpr hstep)).lpTokenOf p).trans (hlp p)
      obtain ⟨key, rfl⟩ := hmsgs m hm
      have hmigrate := Lockdrop.migrates_ok hstep
      rcases migrates_cases hknows hmigrate with rfl | ⟨core, share, e, funds, lockup, userInfo,
        stake, pair, ext, msgs, prev, balance, pool, weight, hover⟩
      · exact ⟨hknows, henv, hmigrated, hlp, hsends⟩
      · refine ⟨hknows.migrates hmigrate, (migrates_env hknows hmigrate).trans henv,
          fun k => (hmigrated k).trans (hover.migrated k), hlp', ?_⟩
        have hearlier := hsends.mono fun event hevent => hevent.mono fun m hm =>
          hm.later fun k share => (hover.migrated k).leftWith
        refine hearlier.trans ?_
        have hcore : w.storage.coreOf key = some core := by
          rw [← hsame]
          exact (hmigrated key).of_open hover.core_eq hover.core_open
        obtain ⟨lpToken, hlpToken, hsent⟩ := hover.sent
        rw [henv, ht.xyk key core hcore] at hsent
        refine hsent.mono fun event hevent => hevent.mono fun m hm => ?_
        exact .handedOver info raw key core lpToken share m hcore hover.core_open
          ((hlp key.poolType).symm.trans hlpToken) (Lockdrop.leftWith_of_core hover.closed) hm

/-- The PCL lockdrop gives the liquidity of a migrated lockup to its pool, and may stake the
LP tokens. -/
theorem World.execute_pclSends (ht : Timed w) {info : MessageInfo} {msg : Lockdrop.ExecuteMsg}
    (h : Lockdrop.World.execute o.externals w info msg = .ok w') :
    Appends (LockdropPcl.CosmosMsg.Moves (PclSends o w w' (.xyk info msg))) w.ext.trace
      w'.ext.trace := by
  -- what a part of the transaction finds as it was at the start, it leaves so
  have hrun := execute_pcl
    (R := fun e e' => e.storage.config.incentives = w.ext.storage.config.incentives →
      (∀ p, e.storage.lpTokenOf p = w.ext.storage.lpTokenOf p) →
      e'.storage.config.incentives = w.ext.storage.config.incentives ∧
        (∀ p, e'.storage.lpTokenOf p = w.ext.storage.lpTokenOf p) ∧
        Appends (LockdropPcl.CosmosMsg.Moves (PclSends o w w' (.xyk info msg))) e.trace e'.trace)
    ?_ ?_ ?_ ht.linked.pcl h
  · exact (hrun rfl fun _ => rfl).2.2
  · intro e₁ e₂ e₃ h₁ h₂ hconfig hlp
    obtain ⟨hconfig₂, hlp₂, hfirst⟩ := h₁ hconfig hlp
    obtain ⟨hconfig₃, hlp₃, hsecond⟩ := h₂ hconfig₂ hlp₂
    exact ⟨hconfig₃, hlp₃, hfirst.trans hsecond⟩
  · intro e e' hsame hconfig hlp
    rw [hsame.storage]
    exact ⟨hconfig, hlp, .of_eq hsame.trace⟩
  · intro e e' key funds userInfo lockup stake pair ext msgs prev balance pool weight _ hmigrates
      hconfig hlp
    have hpool : w.ext.storage.lpTokenOf key.poolType = some pool.lpToken := by
      rw [← hlp]
      exact LockdropPcl.lpTokenOf_of_mayLoad hmigrates.finishes.pool_eq
    refine ⟨?_, fun p => (hmigrates.lpTokenOf p).trans (hlp p), hmigrates.moves ?_ ?_⟩
    · rw [hmigrates.finishes.config]
      exact hconfig
    · exact .provided info msg e.ext key.poolType pool.lpToken pair _ funds hpool
        hmigrates.pair_eq
    · rw [hconfig]
      exact .staked info msg key.poolType pool.lpToken balance hpool

/-- Somebody else than the XYK lockdrop gets LP tokens of the PCL lockdrop only when he
unlocks his own lockup. -/
theorem execute_pclUnlocks (ht : Timed w) {info : MessageInfo} {msg : LockdropPcl.ExecuteMsg}
    {e : LockdropPcl.World F} (hsender : info.sender ≠ w.ext.storage.config.xykLockdropContract)
    (h : LockdropPcl.World.execute o.pcl w.ext info msg = .ok e) :
    Appends (LockdropPcl.CosmosMsg.Moves (PclSends o w { w with ext := e } (.pcl info msg)))
      w.ext.trace e.trace := by
  cases LockdropPcl.execute_effect h with
  | administer _ _ hsame => exact .of_eq hsame.trace
  | migrate _ _ _ _ _ _ _ _ _ _ _ hxyk => exact absurd hxyk hsender
  | claim poolType duration withdraw r w₁ opened collect msgs pool lockup lockup' share t
      rewardMsgs exitMsgs ntrnMsgs hstarts hcollects hpays =>
      have hopened : w.ext.storage.coreOf ⟨poolType, info.sender, duration⟩ =
          some opened.core := by
        rw [← hstarts.sameBooks.coreOf, LockdropPcl.Storage.coreOf, hstarts.lockup_eq,
          Option.map_some]
      refine Appends.trans hcollects.moves (hpays.moves fun hwithdraw => ?_)
      obtain rfl := hwithdraw
      have hunlock := ht.pcl _ _ hopened
      refine .unlocked info ⟨poolType, info.sender, duration⟩ opened.core pool.lpToken share rfl
        hopened hstarts.lockup_open ?_ ?_ ?_
      · rw [← hunlock, ← ht.linked.time]
        exact hstarts.unlocked rfl
      · have hpool := LockdropPcl.lpTokenOf_of_mayLoad hpays.paysOut.pool_eq
        rw [hcollects.lpTokenOf] at hpool
        rw [← hpool, LockdropPcl.Storage.lpTokenOf, ← hstarts.sameBooks.assetPools]
        rfl
      · exact LockdropPcl.leftWith_of_core hpays.paysOut.coreOf.1

/-! ### Runs -/

/-- What an action does to the lockups under a key, in both lockdrops. -/
inductive Fate (w w' : World F) (k : LockupKey) : Action F → Prop
  | xyk (info : MessageInfo) (msg : Lockdrop.ExecuteMsg) (h : Evolves w w' info msg k) :
      Fate w w' k (.xyk info msg)
  | pcl (info : MessageInfo) (msg : LockdropPcl.ExecuteMsg)
      (hxyk : w'.storage.coreOf k = w.storage.coreOf k)
      (h : LockdropPcl.Evolves w.ext w'.ext info msg k) : Fate w w' k (.pcl info msg)
  | still (a : Action F) (hxyk : w'.storage.coreOf k = w.storage.coreOf k)
      (hpcl : w'.ext.storage.coreOf k = w.ext.storage.coreOf k) : Fate w w' k a

/-- Nothing leaves early in an action: where the LP tokens go that it moves, what it does to
every lockup, and when every lockup unlocks. -/
structure StaysLocked (o : Outside F) (w w' : World F) (a : Action F) : Prop where
  xykSends : Appends (Lockdrop.Event.Moves (XykSends o w w' a)) w.trace w'.trace
  pclSends : Appends (LockdropPcl.CosmosMsg.Moves (PclSends o w w' a)) w.ext.trace w'.ext.trace
  fate : ∀ k, Fate w w' k a
  timed : Timed w'

theorem Timed.staysLocked (ht : Timed w) {a : Action F}
    (hexec : Lockdrops.exec o w a = .ok w') : StaysLocked o w w' a := by
  have htimed := ht.exec hexec
  cases a with
  | advance seconds blocks =>
      obtain rfl := Except.ok.inj hexec
      exact ⟨.refl _, .refl _, fun k => .still _ rfl rfl, htimed⟩
  | drift ext =>
      obtain rfl := Except.ok.inj hexec
      exact ⟨.refl _, .refl _, fun k => .still _ rfl rfl, htimed⟩
  | migrate =>
      obtain rfl := Except.ok.inj hexec
      exact ⟨.refl _, .refl _, fun k => .still _ rfl rfl, htimed⟩
  | xyk info msg =>
      exact ⟨World.execute_xykSends ht hexec, World.execute_pclSends ht hexec,
        fun k => .xyk info msg (World.execute_evolves ht.linked.pcl hexec k), htimed⟩
  | pcl info msg =>
      simp only [Lockdrops.exec, bind_eq_ok, rejectIf_eq_ok, exists_const,
        Except.ok.injEq] at hexec
      obtain ⟨hsender, e, hexecute, rfl⟩ := hexec
      rw [← ht.linked.xyk] at hsender
      exact ⟨.refl _, execute_pclUnlocks ht hsender hexecute, fun k => .pcl info msg rfl
        (LockdropPcl.World.execute_evolves hsender hexecute k), htimed⟩

/-- Lockups migrate after the lock window only. -/
def MigratesLate (w : World F) : Action F → Prop
  | .xyk _ (.migrateLiquidityToPCLPools _) => w.storage.config.lockEnd ≤ w.env.time
  | _ => True

/-- A lockup of the PCL lockdrop is no longer open in the XYK lockdrop. -/
structure HandedOver (w : World F) : Prop where
  timed : Timed w
  left : ∀ k, w.ext.storage.coreOf k ≠ none →
    w.storage.config.lockEnd ≤ w.env.time ∧
      ∀ core, w.storage.coreOf k = some core → core.astroportLpTransferred ≠ none

/-- The closed lockups of the PCL lockdrop stay closed. -/
def StaysClosed (w w' : World F) : Prop :=
  ∀ k core share, w.ext.storage.coreOf k = some core →
    core.astroportLpTransferred = some share →
    ∃ core', w'.ext.storage.coreOf k = some core' ∧ core'.astroportLpTransferred = some share

theorem StaysClosed.of_eq (h : ∀ k, w'.ext.storage.coreOf k = w.ext.storage.coreOf k) :
    StaysClosed w w' :=
  fun k core _ hcore hclosed => ⟨core, (h k).trans hcore, hclosed⟩

/-- A lockup that was handed over does not come back: it can only be opened again in the lock
window, and no lockup was handed over before its end. -/
theorem Evolves.left {info : MessageInfo} {msg : Lockdrop.ExecuteMsg} {k : LockupKey}
    (h : Evolves w w' info msg k) (hlate : MigratesLate w (.xyk info msg))
    (hw : HandedOver w) (hpcl' : w'.ext.storage.coreOf k ≠ none) :
    w.storage.config.lockEnd ≤ w.env.time ∧
      ∀ core, w'.storage.coreOf k = some core → core.astroportLpTransferred ≠ none := by
  cases h with
  | still hxyk hpcl =>
      rw [hpcl] at hpcl'
      obtain ⟨htime, hleft⟩ := hw.left k hpcl'
      exact ⟨htime, fun core hcore => hleft core (hxyk ▸ hcore)⟩
  | opened core' hearly _ _ _ hpcl =>
      rw [hpcl] at hpcl'
      -- positions open in the lock window only
      exact absurd hearly (Nat.not_lt_of_le (hw.left k hpcl').1)
  | kept core core' hcore hxyk _ _ htransferred hpcl =>
      rw [hpcl] at hpcl'
      obtain ⟨htime, hleft⟩ := hw.left k hpcl'
      refine ⟨htime, fun core₁ hcore₁ => ?_⟩
      obtain rfl := Option.some.inj (hxyk.symm.trans hcore₁)
      rw [htransferred]
      exact hleft core hcore
  | withdrawn _ core _ _ _ hcore hrest hpcl =>
      rw [hpcl] at hpcl'
      obtain ⟨htime, hleft⟩ := hw.left k hpcl'
      refine ⟨htime, fun core₁ hcore₁ => ?_⟩
      rw [(hrest core₁ hcore₁).2]
      exact hleft core hcore
  | unlocked core core' share _ _ _ _ _ hxyk _ hclosed hpcl =>
      rw [hpcl] at hpcl'
      refine ⟨(hw.left k hpcl').1, fun core₁ hcore₁ => ?_⟩
      obtain rfl := Option.some.inj (hxyk.symm.trans hcore₁)
      rw [hclosed]
      exact Option.some_ne_none share
  | handedOver core share core' hmsg _ _ hxyk =>
      obtain ⟨raw, rfl⟩ := hmsg
      refine ⟨hlate, fun core₁ hcore₁ => ?_⟩
      obtain rfl := Option.some.inj (hxyk.symm.trans hcore₁)
      exact Option.some_ne_none share

/-- A transaction of the XYK lockdrop does not touch the closed lockups of the PCL
lockdrop. -/
theorem HandedOver.staysClosed_xyk (hw : HandedOver w) {info : MessageInfo}
    {msg : Lockdrop.ExecuteMsg} (hevolves : ∀ k, Evolves w w' info msg k) :
    StaysClosed w w' := by
  intro k core share hcore hclosed
  cases hevolves k with
  | still _ hpcl => exact ⟨core, hpcl.trans hcore, hclosed⟩
  | opened _ _ _ _ _ hpcl => exact ⟨core, hpcl.trans hcore, hclosed⟩
  | kept _ _ _ _ _ _ _ hpcl => exact ⟨core, hpcl.trans hcore, hclosed⟩
  | withdrawn _ _ _ _ _ _ _ hpcl => exact ⟨core, hpcl.trans hcore, hclosed⟩
  | unlocked _ _ _ _ _ _ _ _ _ _ _ hpcl => exact ⟨core, hpcl.trans hcore, hclosed⟩
  | handedOver core₁ _ _ _ hcore₁ hopen =>
      -- a lockup that is open in the XYK lockdrop is not yet in the PCL lockdrop
      have hstored : w.ext.storage.coreOf k ≠ none := hcore ▸ Option.some_ne_none core
      exact absurd hopen ((hw.left k hstored).2 core₁ hcore₁)

theorem HandedOver.exec (hw : HandedOver w) {a : Action F} (hlate : MigratesLate w a)
    (hexec : Lockdrops.exec o w a = .ok w') : HandedOver w' ∧ StaysClosed w w' := by
  have htimed := hw.timed.exec hexec
  cases a with
  | advance seconds blocks =>
      obtain rfl := Except.ok.inj hexec
      refine ⟨⟨htimed, fun k hk => ?_⟩, .of_eq fun _ => rfl⟩
      exact ⟨Nat.le_trans (hw.left k hk).1 (Nat.le_add_right _ _), (hw.left k hk).2⟩
  | drift ext =>
      obtain rfl := Except.ok.inj hexec
      exact ⟨⟨htimed, hw.left⟩, .of_eq fun _ => rfl⟩
  | migrate =>
      obtain rfl := Except.ok.inj hexec
      exact ⟨⟨htimed, hw.left⟩, .of_eq fun _ => rfl⟩
  | xyk info msg =>
      have hwithin := Lockdrop.World.execute_within hexec
      have hevolves := World.execute_evolves hw.timed.linked.pcl hexec
      refine ⟨⟨htimed, fun k hk => ?_⟩, hw.staysClosed_xyk hevolves⟩
      rw [hwithin.terms.lockEnd, hwithin.env]
      exact (hevolves k).left hlate hw hk
  | pcl info msg =>
      simp only [Lockdrops.exec, bind_eq_ok, rejectIf_eq_ok, exists_const,
        Except.ok.injEq] at hexec
      obtain ⟨hsender, e, hexecute, rfl⟩ := hexec
      -- a call from outside is no migration, so it stores no new lockup
      rw [← hw.timed.linked.xyk] at hsender
      have hevolves := LockdropPcl.World.execute_evolves hsender hexecute
      refine ⟨⟨htimed, fun k hk => hw.left k ?_⟩, fun k core share hcore hclosed => ?_⟩
      · replace hk : e.storage.coreOf k ≠ none := hk
        cases hevolves k with
        | still h => exact h ▸ hk
        | paid _ _ hcore => exact hcore ▸ Option.some_ne_none _
        | unlocked _ _ _ _ _ hcore => exact hcore ▸ Option.some_ne_none _
      · cases hevolves k with
        | still h => exact ⟨core, h.trans hcore, hclosed⟩
        | paid core₁ _ hcore₁ _ hopen =>
            obtain rfl := Option.some.inj (hcore.symm.trans hcore₁)
            rw [hclosed] at hopen
            cases hopen
        | unlocked core₁ _ _ _ _ hcore₁ _ hopen =>
            obtain rfl := Option.some.inj (hcore.symm.trans hcore₁)
            rw [hclosed] at hopen
            cases hopen

theorem Started.handedOver (h : Started o w) : HandedOver w := by
  refine ⟨h.timed, fun k hk => absurd ?_ hk⟩
  obtain ⟨info, env', info', msg, msg', -, hpcl, -⟩ := h.storages
  rw [hpcl]
  rfl

/-- Bob's lockup is migrated after both windows, and he unlocks it. -/
def bobUnlocks : List (Action SampleOutside) :=
  sampleLocks ++
    [.advance 101 10, .migrate, .xyk ⟨"carol", []⟩ (.migrateLiquidityToPCLPools (some "bob")),
    .pcl ⟨"bob", []⟩ (.claimRewardsAndOptionallyUnlock .usdc 1 true)]

/-- Alice's lockup is migrated. -/
def aliceMigrates : Action SampleOutside := .xyk ⟨"alice", []⟩ (.migrateLiquidityToPCLPools none)

/-- Bob's lockup is migrated in the lock window, the auction deletes it and locks it again,
and he unlocks what was migrated. -/
def bobLocksAgain : List (Action SampleOutside) :=
  sampleLocks ++
    [.xyk ⟨"auction", []⟩ (.increaseLockupFor "bob" .usdc 100 2), .migrate,
    .xyk ⟨"bob", []⟩ (.migrateLiquidityToPCLPools none),
    .xyk ⟨"auction", []⟩ (.increaseLockupFor "bob" .usdc 100 2),
    .xyk ⟨"auction", []⟩ (.withdrawFromLockup "bob" .usdc 1 100),
    .xyk ⟨"auction", []⟩ (.increaseLockupFor "bob" .usdc 50 1), .advance 101 10,
    .pcl ⟨"bob", []⟩ (.claimRewardsAndOptionallyUnlock .usdc 1 true)]

end NeutronTge.Lockdrops
