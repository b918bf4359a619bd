import NeutronTge.Lockdrop.Ledger
import NeutronTge.LockdropPcl.Transactions

/-!
# NeutronTge.Composed.Lockdrops

The two lockdrops on one chain. For the XYK lockdrop the PCL lockdrop is one of the other
contracts: its world is the state of the XYK lockdrop's externals, and the message that
hands a lockup over runs the PCL lockdrop's transaction. Both live in one block time.
-/

namespace NeutronTge.Lockdrops

open CosmWasm Astroport
open Lockdrop (PoolType LockupKey LockupCore LockupInfoV2)

/-- The contracts around the two lockdrops, with one state. -/
structure Outside (F : Type) where
  /-- The address of the XYK lockdrop. -/
  xykLockdrop : Addr
  xykQuerier : F → Lockdrop.Querier
  xykExec : F → Lockdrop.CosmosMsg → Except StdError F
  pcl : LockdropPcl.Externals F

/-- The XYK lockdrop's world, with the PCL lockdrop's world around it. -/
abbrev World (F : Type) := Lockdrop.World (LockdropPcl.World F)

variable {F : Type}

section Exec

variable (o : Outside F)

/-- Execute a message of the XYK lockdrop. The funds of a migrated lockup arrive with the
message, which the PCL lockdrop then executes. -/
def deliver (e : LockdropPcl.World F) (msg : Lockdrop.CosmosMsg) :
    Except StdError (LockdropPcl.World F) := do
  let ext ← o.xykExec e.ext msg
  match msg with
  | .migrateXYKLiquidity pclLockdrop funds poolType user duration userInfo lockup stake =>
      if pclLockdrop = e.env.contract then
        LockdropPcl.World.execute o.pcl { e with ext := ext } ⟨o.xykLockdrop, funds⟩
          (.migrateXYKLiquidity poolType user duration userInfo lockup stake)
      else .ok { e with ext := ext }
  | _ => .ok { e with ext := ext }

/-- The other contracts as the XYK lockdrop sees them. -/
def Outside.externals : Lockdrop.Externals (LockdropPcl.World F) where
  querier e := o.xykQuerier e.ext
  exec := deliver o

/-- What happens in a run of the two lockdrops. -/
inductive Action (F : Type)
  /-- Time passes. -/
  | advance (seconds blocks : Nat)
  /-- The other contracts change by themselves. -/
  | drift (ext : F)
  /-- The code of the XYK lockdrop is migrated and learns the PCL lockdrop. -/
  | migrate
  | xyk (info : MessageInfo) (msg : Lockdrop.ExecuteMsg)
  | pcl (info : MessageInfo) (msg : LockdropPcl.ExecuteMsg)

/-- The block after some time. -/
def later (env : Env) (seconds blocks : Nat) : Env :=
  { env with time := env.time + seconds, height := env.height + blocks }

/-- One action of a run. The XYK lockdrop does not send transactions of its own. -/
def exec (w : World F) : Action F → Except StdError (World F)
  | .advance seconds blocks => .ok
      { w with
        env := later w.env seconds blocks
        ext := { w.ext with env := later w.ext.env seconds blocks } }
  | .drift ext => .ok { w with ext := { w.ext with ext := ext } }
  | .migrate => .ok { w with storage := Lockdrop.migrate w.storage w.ext.env.contract }
  | .xyk info msg => Lockdrop.World.execute o.externals w info msg
  | .pcl info msg => do
      rejectIf (info.sender = w.env.contract) .aborted
      let ext ← LockdropPcl.World.execute o.pcl w.ext info msg
      .ok { w with ext := ext }

/-- Both lockdrops right after they were instantiated, the PCL lockdrop for this XYK
lockdrop. -/
structure Started (w : World F) : Prop where
  xyk : ∃ env info msg, Lockdrop.instantiate env info msg = .ok w.storage
  pcl : ∃ env info msg, LockdropPcl.instantiate env info msg = .ok w.ext.storage ∧
    msg.xykLockdropContract = w.env.contract
  contract : w.env.contract = o.xykLockdrop
  time : w.ext.env.time = w.env.time
  trace : w.trace = []
  pclTrace : w.ext.trace = []

end Exec

/-! ### What a message of the XYK lockdrop does to the PCL lockdrop -/

/-- The PCL lockdrop did not notice: only the contracts around it changed. -/
structure SamePcl (e e' : LockdropPcl.World F) : Prop where
  storage : e'.storage = e.storage
  env : e'.env = e.env
  trace : e'.trace = e.trace

namespace SamePcl

theorem refl (e : LockdropPcl.World F) : SamePcl e e := ⟨rfl, rfl, rfl⟩

theorem trans {e₁ e₂ e₃ : LockdropPcl.World F} (h : SamePcl e₁ e₂) (h' : SamePcl e₂ e₃) :
    SamePcl e₁ e₃ :=
  ⟨h'.storage.trans h.storage, h'.env.trans h.env, h'.trace.trans h.trace⟩

end SamePcl

/-- The message that hands a lockup over. -/
def HandsOver (msg : Lockdrop.CosmosMsg) : Prop :=
  ∃ pclLockdrop funds poolType user duration userInfo lockup stake,
    msg = .migrateXYKLiquidity pclLockdrop funds poolType user duration userInfo lockup stake

section Deliver

variable {o : Outside F} {e e' : LockdropPcl.World F}

theorem deliver_same {msg : Lockdrop.CosmosMsg} (hmsg : ¬ HandsOver msg)
    (h : deliver o e msg = .ok e') : SamePcl e e' := by
  unfold deliver at h
  rw [bind_eq_ok] at h
  obtain ⟨ext, -, h⟩ := h
  split at h
  · exact absurd ⟨_, _, _, _, _, _, _, _, rfl⟩ hmsg
  · obtain rfl := Except.ok.inj h
    exact ⟨rfl, rfl, rfl⟩

theorem delivers_same {msgs : List Lockdrop.CosmosMsg} (hmsgs : ∀ m ∈ msgs, ¬ HandsOver m)
    (h : msgs.foldlM o.externals.exec e = .ok e') : SamePcl e e' :=
  foldlM_relation SamePcl.refl (fun _ _ _ => SamePcl.trans)
    (fun _ _ m hm hexec => deliver_same (hmsgs m hm) hexec) h

/-- A lockup that is handed over is migrated by the PCL lockdrop. -/
theorem deliver_handsOver {funds : List Coin} {key : LockupKey} {userInfo : Lockdrop.UserInfo}
    {lockup : Lockdrop.LockupInfoV2} {stake : Bool}
    (h : deliver o e (.migrateXYKLiquidity e.env.contract funds key.poolType key.user
      key.duration userInfo lockup stake) = .ok e') :
    ∃ e₁ pair ext msgs prev balance pool weight, SamePcl e e₁ ∧
      LockdropPcl.Migrates o.pcl e₁ e' key funds userInfo lockup stake pair ext msgs prev balance
        pool weight := by
  unfold deliver at h
  simp only [bind_eq_ok, if_true] at h
  obtain ⟨f, -, h⟩ := h
  obtain ⟨r, hr, hrun, -⟩ := LockdropPcl.execute_ok h
  obtain ⟨-, pair, ext, msgs, prev, balance, pool, weight, hmigrates⟩ :=
    LockdropPcl.execute_migrate_ok hr hrun
  exact ⟨{ e with ext := f }, pair, ext, msgs, prev, balance, pool, weight, ⟨rfl, rfl, rfl⟩,
    hmigrates⟩

end Deliver

/-! ### The parts of a transaction of the XYK lockdrop -/

section Parts

variable {o : Outside F} {w w' : World F} {key : LockupKey}

theorem collects_same {p : PoolType} (h : Lockdrop.Collects o.externals p w w') :
    SamePcl w.ext w'.ext := by
  cases h with
  | nothing => exact .refl w.ext
  | booked _ _ _ _ _ _ _ _ _ hclaim _ => exact deliver_same (by simp [HandsOver]) hclaim

theorem pays_same {withdraw : Bool} {msgs : List Lockdrop.CosmosMsg} {pool : Lockdrop.PoolInfo}
    {lockup lockup' : LockupInfoV2} {generator : Addr} {share : Nat} {t : Lockdrop.Storage}
    {rewardMsgs exitMsgs ntrnMsgs : List Lockdrop.CosmosMsg}
    (h : Lockdrop.Pays o.externals w w' key withdraw msgs pool lockup lockup' generator share t
      rewardMsgs exitMsgs ntrnMsgs) : SamePcl w.ext w'.ext := by
  refine delivers_same (fun m hm => ?_) h.exec
  rcases h.paysOut.mem hm with ⟨coin, rfl⟩ | ⟨transfer, rfl⟩ | ⟨-, rfl⟩ | ⟨-, rfl⟩ |
    ⟨coin, rfl⟩ | ⟨credits, amount, rfl⟩ <;> simp [HandsOver]

theorem migrationPays_same {rewardMsgs : List Lockdrop.CosmosMsg} {pool : Lockdrop.PoolInfo}
    {lockup : LockupInfoV2} {generator : Addr} {share accrued : Nat} {rewardToken : String}
    {proxy : List Asset} {ntrnMsgs : List Lockdrop.CosmosMsg}
    (h : Lockdrop.MigrationPays o.externals w w' key rewardMsgs pool lockup generator share
      accrued rewardToken proxy ntrnMsgs) : SamePcl w.ext w'.ext := by
  refine delivers_same (fun m hm => ?_) h.exec
  rcases h.transfersAll.mem hm with ⟨coin, rfl⟩ | ⟨transfer, rfl⟩ | ⟨coin, rfl⟩ |
    ⟨credits, amount, rfl⟩ <;> simp [HandsOver]

/-- The messages with which the XYK lockdrop hands a lockup over: its share of the LP tokens
is burned at the pool that mints them, and its liquidity goes to the PCL lockdrop. -/
inductive Hands (o : Outside F) (pcl : Addr) (key : LockupKey) (unlock : Nat) (lpToken : Addr)
    (share : Nat) : Lockdrop.CosmosMsg → Prop
  | burned (f : F) (pair : Addr) (hpair : (o.xykQuerier f).minter lpToken = .ok pair) :
      Hands o pcl key unlock lpToken share (.withdrawLiquidity lpToken pair share)
  | sent (funds : List Coin) (userInfo : Lockdrop.UserInfo) (lockup : LockupInfoV2)
      (stake : Bool) (hunlock : lockup.unlockTimestamp = unlock)
      (hshare : lockup.astroportLpTransferred = some share) :
      Hands o pcl key unlock lpToken share (.migrateXYKLiquidity pcl funds key.poolType key.user
        key.duration userInfo lockup stake)

/-- A lockup leaves the XYK lockdrop and comes to the PCL lockdrop, with its user. -/
structure HandOver (o : Outside F) (w w' : World F) (key : LockupKey) (core : LockupCore)
    (share : Nat) (e : LockdropPcl.World F) (funds : List Coin) (lockup : LockupInfoV2)
    (userInfo : Lockdrop.UserInfo) (stake : Bool) (pair : Addr) (ext : F)
    (msgs : List LockdropPcl.CosmosMsg) (prev balance : Nat) (pool : LockdropPcl.PoolInfo)
    (weight : Nat) : Prop where
  core_eq : w.storage.coreOf key = some core
  core_open : core.astroportLpTransferred = none
  closed : w'.storage.coreOf key = some { core with astroportLpTransferred := some share }
  others : ∀ k, k ≠ key → w'.storage.coreOf k = w.storage.coreOf k
  unlock : lockup.unlockTimestamp = core.unlockTimestamp
  paid : userInfo.ntrnTransferred = true
  same : SamePcl w.ext e
  sent : ∃ lpToken, w.storage.lpTokenOf key.poolType = some lpToken ∧
    Appends (Lockdrop.Event.Moves (Hands o w.ext.env.contract key core.unlockTimestamp lpToken
      share)) w.trace w'.trace
  migrates : LockdropPcl.Migrates o.pcl e w'.ext key funds userInfo lockup stake pair ext msgs
    prev balance pool weight

/-- The migration of one lockup hands it over with its last message, unless it left before. -/
theorem migrates_last
    (hpcl : ∀ pcl, w.storage.pclLockdropContract = some pcl → pcl = w.ext.env.contract)
    (h : Lockdrop.Migrates o.externals key w w') :
    w' = w ∨ ∃ core share e funds lockup userInfo stake pair ext msgs prev balance pool weight,
      HandOver o w w' key core share e funds lockup userInfo stake pair ext msgs prev balance
        pool weight ∧
      w'.trace.getLast? = some (.sent (.migrateXYKLiquidity w.ext.env.contract funds key.poolType
        key.user key.duration userInfo lockup stake)) := by
  cases h with
  | skipped st hst hclosed hsame => exact Or.inl hsame
  | migrated st w₁ w₂ rewardMsgs pool lockup generator share accrued rewardToken proxy ntrnMsgs
      pool' lockup' pair last hst hopen hcollects hpays hexits =>
      right
      obtain ⟨-, hlockups, husers, -, -⟩ := hcollects.frame
      have hntrn := hpays.transfersAll.ntrn
      have hsame : Lockdrop.SameBooks w₁.storage w₂.storage := hntrn.sameBooks rfl
      -- the lockup is the same until the exit callback closes it
      have hcores : ∀ k, w₂.storage.coreOf k = w.storage.coreOf k := by
        intro k
        rw [Lockdrop.Storage.coreOf, hsame.lockups, hlockups, Lockdrop.Storage.coreOf]
      have hcore : w.storage.coreOf key = some lockup'.core := by
        rw [← hcores]
        exact Lockdrop.coreOf_of_load hexits.lockup_eq
      have hst' : w.storage.coreOf key = some st.core := by
        rw [Lockdrop.Storage.coreOf, hst, Option.map_some]
      have hstCore : st.core = lockup'.core := Option.some.inj (hst'.symm.trans hcore)
      have hclosed := Lockdrop.coreOf_save hexits.closes.lockupInfo
      obtain ⟨pclLockdrop, funds, stake, hpclEq, rfl⟩ := hexits.last_eq
      obtain ⟨e₁, h₁, hrun⟩ := foldlM_cons_ok.mp hexits.exec
      obtain ⟨e₂, h₂, hrun⟩ := foldlM_cons_ok.mp hrun
      have hsamePcl : SamePcl w.ext e₂ :=
        ((collects_same hcollects).trans (migrationPays_same hpays)).trans
          ((deliver_same (by simp [HandsOver]) h₁).trans
            (deliver_same (by simp [HandsOver]) h₂))
      have hcontract : pclLockdrop = w.ext.env.contract := by
        refine hpcl pclLockdrop ?_
        rw [← hcollects.within.pclLockdropContract, ← hsame.pclLockdropContract]
        exact hpclEq
      have hsent := hexits.moves
        (P := Hands o w.ext.env.contract key lockup'.unlockTimestamp pool.lpToken share)
        (.burned w₂.ext.ext _ hexits.pair_eq)
        (by rw [hcontract]; exact .sent funds _ _ stake rfl rfl)
      have hlpToken : w.storage.lpTokenOf key.poolType = some pool.lpToken := by
        rw [← hcollects.lpTokenOf]
        exact Lockdrop.lpTokenOf_of_mayLoad hpays.transfersAll.pool_eq
      rw [hcontract, ← hsamePcl.env] at hrun
      obtain ⟨e, pair', ext, msgs, prev, balance, pclPool, weight, hsame', hmigrates⟩ :=
        deliver_handsOver (foldlM_singleton_ok.mp hrun)
      refine ⟨lockup'.core, share, e, funds, { lockup' with astroportLpTransferred := some share },
        w₂.storage.user key.user, stake, pair', ext, msgs, prev, balance, pclPool, weight,
        ⟨hcore, ?_, ?_, ?_, rfl, ?_, hsamePcl.trans hsame',
          ⟨pool.lpToken, hlpToken, (hcollects.moves.trans hpays.moves).trans hsent⟩, hmigrates⟩,
        ?_⟩
      · rw [← hstCore]
        exact hopen
      · rw [hclosed, if_pos rfl]
        rfl
      · intro k hk
        rw [hclosed, if_neg hk, hcores]
      · exact hntrn.transferred rfl
      · rw [hexits.trace, List.getLast?_append, ← hcontract]
        rfl

theorem migrates_cases
    (hpcl : ∀ pcl, w.storage.pclLockdropContract = some pcl → pcl = w.ext.env.contract)
    (h : Lockdrop.Migrates o.externals key w w') :
    w' = w ∨ ∃ core share e funds lockup userInfo stake pair ext msgs prev balance pool weight,
      HandOver o w w' key core share e funds lockup userInfo stake pair ext msgs prev balance
        pool weight := by
  rcases migrates_last hpcl h with hsame | ⟨core, share, e, funds, lockup, userInfo, stake, pair,
    ext, msgs, prev, balance, pool, weight, hover, -⟩
  · exact Or.inl hsame
  · exact Or.inr ⟨core, share, e, funds, lockup, userInfo, stake, pair, ext, msgs, prev, balance,
      pool, weight, hover⟩

/-- What the migration of some lockups does to the lockups under a key: nothing, or it is one
of them. -/
inductive Migrated (k : LockupKey) (w w' : World F) : Prop
  | still (hxyk : w'.storage.coreOf k = w.storage.coreOf k)
      (hpcl : w'.ext.storage.coreOf k = w.ext.storage.coreOf k)
  | handedOver (core : LockupCore) (share : Nat) (core' : LockdropPcl.LockupCore)
      (hcore : w.storage.coreOf k = some core) (hopen : core.astroportLpTransferred = none)
      (hxyk : w'.storage.coreOf k = some { core with astroportLpTransferred := some share })
      (hpcl : w'.ext.storage.coreOf k = some core')
      (hopen' : core'.astroportLpTransferred = none)
      (hunlock : core'.unlockTimestamp = core.unlockTimestamp)

theorem Migrated.refl (k : LockupKey) (w : World F) : Migrated k w w := .still rfl rfl

theorem Migrated.trans {k : LockupKey} {v : World F} (h : Migrated k w v)
    (h' : Migrated k v w') : Migrated k w w' := by
  cases h' with
  | still hxyk' hpcl' =>
      cases h with
      | still hxyk hpcl => exact .still (hxyk'.trans hxyk) (hpcl'.trans hpcl)
      | handedOver core share core' hcore hopen hxyk hpcl hopen' hunlock =>
          exact .handedOver core share core' hcore hopen (hxyk'.trans hxyk) (hpcl'.trans hpcl)
            hopen' hunlock
  | handedOver core share core' hcore hopen hxyk' hpcl' hopen' hunlock =>
      cases h with
      | still hxyk hpcl =>
          exact .handedOver core share core' (hxyk ▸ hcore) hopen hxyk' hpcl' hopen' hunlock
      | handedOver core₀ share₀ core₀' hcore₀ hopen₀ hxyk hpcl =>
          -- a lockup that left is not migrated again
          rw [hxyk] at hcore
          obtain rfl := Option.some.inj hcore
          cases hopen

/-- A lockup that is open after some migrations was not migrated. -/
theorem Migrated.of_open {k : LockupKey} (h : Migrated k w w') {core : LockupCore}
    (hcore : w'.storage.coreOf k = some core) (hopen : core.astroportLpTransferred = none) :
    w.storage.coreOf k = some core := by
  cases h with
  | still hxyk => exact hxyk ▸ hcore
  | handedOver core₀ share _ _ _ hxyk =>
      obtain rfl := Option.some.inj (hxyk.symm.trans hcore)
      cases hopen

/-- The PCL lockdrop has the same under its key. -/
theorem Migrated.pcl_of_open {k : LockupKey} (h : Migrated k w w') {core : LockupCore}
    (hcore : w'.storage.coreOf k = some core) (hopen : core.astroportLpTransferred = none) :
    w'.ext.storage.coreOf k = w.ext.storage.coreOf k := by
  cases h with
  | still _ hpcl => exact hpcl
  | handedOver core₀ share _ _ _ hxyk =>
      obtain rfl := Option.some.inj (hxyk.symm.trans hcore)
      cases hopen

/-- A lockup that left keeps what it left with. -/
theorem Migrated.leftWith {k : LockupKey} (h : Migrated k w w') {share : Nat}
    (hleft : w.storage.leftWith k = some share) : w'.storage.leftWith k = some share := by
  cases h with
  | still hxyk => rw [Lockdrop.Storage.leftWith, hxyk, ← Lockdrop.Storage.leftWith, hleft]
  | handedOver core _ _ hcore hopen =>
      rw [Lockdrop.leftWith_of_core hcore, hopen] at hleft
      cases hleft

theorem HandOver.migrated {key : LockupKey} {core : LockupCore} {share : Nat}
    {e : LockdropPcl.World F} {funds : List Coin} {lockup : Lockdrop.LockupInfoV2}
    {userInfo : Lockdrop.UserInfo} {stake : Bool} {pair : Addr} {ext : F}
    {msgs : List LockdropPcl.CosmosMsg} {prev balance : Nat} {pool : LockdropPcl.PoolInfo}
    {weight : Nat}
    (h : HandOver o w w' key core share e funds lockup userInfo stake pair ext msgs prev balance
      pool weight) (k : LockupKey) : Migrated k w w' := by
  have hsaved := LockdropPcl.coreOf_save h.migrates.finishes.lockupInfo k
  rw [h.same.storage] at hsaved
  split_ifs at hsaved with hk
  · obtain rfl := hk
    exact .handedOver core share _ h.core_eq h.core_open h.closed hsaved rfl h.unlock
  · exact .still (h.others k hk) hsaved

end Parts

/-! ### Whole transactions and runs -/

section Runs

variable {o : Outside F} {w w' : World F} {key : LockupKey}

/-- The PCL lockdrop that the XYK lockdrop knows is the one around it. -/
def KnowsPcl (w : World F) : Prop :=
  ∀ pcl, w.storage.pclLockdropContract = some pcl → pcl = w.ext.env.contract

theorem KnowsPcl.of_eq (h : KnowsPcl w)
    (hpcl : w'.storage.pclLockdropContract = w.storage.pclLockdropContract)
    (henv : w'.ext.env = w.ext.env) : KnowsPcl w' := by
  intro pcl heq
  rw [henv]
  exact h pcl (hpcl ▸ heq)

theorem migrates_env (hpcl : KnowsPcl w) (h : Lockdrop.Migrates o.externals key w w') :
    w'.ext.env = w.ext.env := by
  rcases migrates_cases hpcl h with rfl | ⟨core, share, e, funds, lockup, userInfo, stake, pair,
    ext, msgs, prev, balance, pool, weight, hover⟩
  · rfl
  · exact hover.migrates.env.trans hover.same.env

theorem KnowsPcl.migrates (hpcl : KnowsPcl w)
    (h : Lockdrop.Migrates o.externals key w w') : KnowsPcl w' :=
  hpcl.of_eq h.within.pclLockdropContract (migrates_env hpcl h)

/-- Staking a pool's LP tokens does not concern the PCL lockdrop. -/
theorem initPool_same {r : Lockdrop.Response} {env : Env} {p : PoolType}
    {incentivesShare amount : Nat} {pool : Lockdrop.PoolInfo}
    (h : Lockdrop.Initializes w.storage r.storage env p incentivesShare amount pool r.messages)
    {n : Nat} (hrun : r.messages.foldlM (Lockdrop.dispatch o.externals n) (w.respond r) =
      .ok w') : SamePcl w.ext w'.ext := by
  obtain ⟨generator, height, -, hmsgs⟩ := h.messages
  obtain ⟨ext, hexec, rfl⟩ := Lockdrop.externals_ok h.external hrun
  refine delivers_same (fun m hm => ?_) hexec
  rw [hmsgs] at hm
  simp only [List.mem_cons, List.not_mem_nil, or_false] at hm
  rcases hm with rfl | rfl <;> simp [HandsOver]

/-- A transaction of the XYK lockdrop, for the PCL lockdrop: nothing, and migrations of lockups
whose users were paid. Such a lockup was open when the transaction began, and until then the PCL
lockdrop stores under its key what it did then. -/
theorem execute_handsOver {P : LockdropPcl.World F → Prop}
    (hsame : ∀ e e', SamePcl e e' → P e → P e')
    (hmigrates : ∀ e e' key core funds userInfo lockup stake pair ext msgs prev balance pool
      weight, w.storage.coreOf key = some core → core.astroportLpTransferred = none →
      e.storage.coreOf key = w.ext.storage.coreOf key → userInfo.ntrnTransferred = true →
      LockdropPcl.Migrates o.pcl e e' key funds userInfo lockup stake pair ext msgs prev balance
        pool weight → P e → P e')
    (hpcl : KnowsPcl w) {info : MessageInfo} {msg : Lockdrop.ExecuteMsg}
    (h : Lockdrop.World.execute o.externals w info msg = .ok w') (hstart : P w.ext) :
    P w'.ext := by
  obtain ⟨r, hr, hrun, hsender⟩ := Lockdrop.execute_ok h
  obtain ⟨-, heffect⟩ := Lockdrop.execute_effect hsender hr
  have hmessages : r.messages = [] → P w'.ext := by
    intro hnil
    rw [hnil] at hrun
    obtain rfl := Except.ok.inj hrun
    exact hstart
  cases heffect with
  | increase _ _ _ _ _ _ hmsgs => exact hmessages hmsgs
  | withdraw _ _ _ _ _ _ hmsgs => exact hmessages hmsgs
  | setTokenInfo _ _ _ hmsgs => exact hmessages hmsgs
  | reconfigure _ _ hmsgs => exact hmessages hmsgs
  | initPool poolType incentivesShare sender amount pool hauction hinit =>
      exact hsame _ _ (initPool_same hinit hrun) hstart
  | claim poolType duration withdraw userInfo total t st collect hclaim =>
      obtain ⟨w₁, msgs, pool, lockup, lockup', generator, share, t', rewardMsgs, exitMsgs,
        ntrnMsgs, hcollects, hpays⟩ := Lockdrop.execute_claim_ok hclaim hrun
      exact hsame _ _ ((collects_same hcollects).trans (pays_same hpays)) hstart
  | migrate raw hbooks hmsgs =>
      have hlockups : ∀ k, (w.respond r).storage.coreOf k = w.storage.coreOf k := hbooks.lockups
      have hknows : KnowsPcl (w.respond r) := hpcl.of_eq hbooks.pclLockdropContract rfl
      -- a lockup that one of the callbacks hands over was not handed over by one before
      refine (foldlM_invariant (fun v => KnowsPcl v ∧ (∀ k, Migrated k (w.respond r) v) ∧ P v.ext)
        ⟨hknows, fun k => .refl k _, hstart⟩ ?_ hrun).2.2
      intro v v' m hm hv hstep
      obtain ⟨hknows, hmigrated, hP⟩ := hv
      obtain ⟨key, rfl⟩ := hmsgs m hm
      have hmigrate := Lockdrop.migrates_ok hstep
      rcases migrates_cases hknows hmigrate with rfl | ⟨core, share, e, funds, lockup, userInfo,
        stake, pair, ext, msgs, prev, balance, pool, weight, hover⟩
      · exact ⟨hknows, hmigrated, hP⟩
      · refine ⟨hknows.migrates hmigrate, fun k => (hmigrated k).trans (hover.migrated k), ?_⟩
        have hcore : w.storage.coreOf key = some core := by
          rw [← hlockups]
          exact (hmigrated key).of_open hover.core_eq hover.core_open
        have hstored : e.storage.coreOf key = w.ext.storage.coreOf key := by
          rw [hover.same.storage]
          exact (hmigrated key).pcl_of_open hover.core_eq hover.core_open
        exact hmigrates _ _ _ _ _ _ _ _ _ _ _ _ _ _ _ hcore hover.core_open hstored hover.paid
          hover.migrates (hsame _ _ hover.same hP)

/-- What lies between the two ends of a transaction of the XYK lockdrop, for the PCL
lockdrop: nothing, and migrations of lockups whose users were paid. -/
theorem execute_pcl {R : LockdropPcl.World F → LockdropPcl.World F → Prop}
    (htrans : ∀ e₁ e₂ e₃, R e₁ e₂ → R e₂ e₃ → R e₁ e₃) (hsame : ∀ e e', SamePcl e e' → R e e')
    (hmigrates : ∀ e e' key funds userInfo lockup stake pair ext msgs prev balance pool weight,
      userInfo.ntrnTransferred = true →
      LockdropPcl.Migrates o.pcl e e' key funds userInfo lockup stake pair ext msgs prev balance
        pool weight → R e e')
    (hpcl : KnowsPcl w) {info : MessageInfo} {msg : Lockdrop.ExecuteMsg}
    (h : Lockdrop.World.execute o.externals w info msg = .ok w') : R w.ext w'.ext := by
  refine execute_handsOver (P := R w.ext) (fun e e' h hR => htrans _ _ _ hR (hsame _ _ h)) ?_ hpcl
    h (hsame _ _ (.refl _))
  intro e e' key core funds userInfo lockup stake pair ext msgs prev balance pool weight _ _ _
    hpaid h hR
  exact htrans _ _ _ hR (hmigrates _ _ _ _ _ _ _ _ _ _ _ _ _ _ hpaid h)

/-- The two lockdrops know each other and live in the same block time. -/
structure Linked (w : World F) : Prop where
  pcl : KnowsPcl w
  xyk : w.ext.storage.config.xykLockdropContract = w.env.contract
  time : w.ext.env.time = w.env.time

theorem Linked.exec {a : Action F} (h : Linked w) (hexec : Lockdrops.exec o w a = .ok w') :
    Linked w' := by
  cases a with
  | advance seconds blocks =>
      obtain rfl := Except.ok.inj hexec
      exact ⟨h.pcl, h.xyk, congrArg (· + seconds) h.time⟩
  | drift ext =>
      obtain rfl := Except.ok.inj hexec
      exact ⟨h.pcl, h.xyk, h.time⟩
  | migrate =>
      obtain rfl := Except.ok.inj hexec
      exact ⟨fun pcl heq => (Option.some.inj heq).symm, h.xyk, h.time⟩
  | xyk info msg =>
      have hwithin := Lockdrop.World.execute_within hexec
      have hpcl : LockdropPcl.Within w.ext w'.ext :=
        execute_pcl (fun _ _ _ => LockdropPcl.Within.trans)
          (fun _ _ hsame => .of_config hsame.env (by rw [hsame.storage]))
          (fun _ _ _ _ _ _ _ _ _ _ _ _ _ _ _ hmigrates => hmigrates.within) h.pcl hexec
      refine ⟨h.pcl.of_eq hwithin.pclLockdropContract hpcl.env, ?_, ?_⟩
      · rw [hpcl.xykLockdropContract, hwithin.env]
        exact h.xyk
      · rw [hpcl.env, hwithin.env]
        exact h.time
  | pcl info msg =>
      simp only [Lockdrops.exec, bind_eq_ok, rejectIf_eq_ok, exists_const,
        Except.ok.injEq] at hexec
      obtain ⟨-, e, hexecute, rfl⟩ := hexec
      have hpcl := LockdropPcl.World.execute_within hexecute
      refine ⟨h.pcl.of_eq rfl hpcl.env, ?_, ?_⟩
      · exact hpcl.xykLockdropContract.trans h.xyk
      · exact (congrArg Env.time hpcl.env).trans h.time

/-- The storages that the messages of the instantiations give. -/
theorem Started.storages (h : Started o w) :
    ∃ info env' info', ∃ msg : Lockdrop.InstantiateMsg, ∃ msg' : LockdropPcl.InstantiateMsg,
      w.storage = msg.storage info ∧ w.ext.storage = msg'.storage env' info' ∧
        msg'.xykLockdropContract = w.env.contract := by
  obtain ⟨env, info, msg, hxyk⟩ := h.xyk
  obtain ⟨env', info', msg', hpcl, hcontract⟩ := h.pcl
  exact ⟨info, env', info', msg, msg', Lockdrop.instantiate_ok hxyk,
    LockdropPcl.instantiate_ok hpcl, hcontract⟩

theorem Started.linked (h : Started o w) : Linked w := by
  obtain ⟨info, env', info', msg, msg', hxyk, hpcl, hcontract⟩ := h.storages
  refine ⟨?_, ?_, h.time⟩
  · intro pcl heq
    rw [hxyk] at heq
    cases heq
  · rw [hpcl]
    exact hcontract

end Runs

/-! ### A small chain

The chain of the XYK lockdrop with two PCL pools that mint ten LP tokens for every
deposit. -/

/-- The contracts other than the two lockdrops of the small chain. -/
structure SampleOutside where
  xyk : Lockdrop.SampleExt
  /-- The LP tokens of the PCL lockdrop, by pool. -/
  lp : Map Addr Nat

/-- The LP tokens of a pair that the PCL lockdrop holds. -/
def SampleOutside.lpOf (f : SampleOutside) (pool : Addr) : Nat := (f.lp.mayLoad pool).getD 0

/-- What the PCL lockdrop is answered. Nothing is staked for it. -/
def SampleOutside.pclQuerier (f : SampleOutside) : LockdropPcl.Querier where
  deposit _ _ := .ok 0
  pendingRewards _ _ := .ok []
  rewardInfo _ _ := .ok []
  rawIncentivesDeposit _ _ := .ok 0
  tokenBalance lpToken := .ok (f.lpOf (lpToken ++ "_pair"))
  rawBalance lpToken := .ok (f.lpOf (lpToken ++ "_pair"))
  minter lpToken := .ok (lpToken ++ "_pair")
  queryPool _ := .ok 0
  creditsBalance _ _ := .ok 0
  withdrawableAmount _ _ := .ok 0
  vestedAmount _ _ := .ok 0

/-- What its messages do: every provision of liquidity gives 10 LP tokens. -/
def SampleOutside.pclExec (f : SampleOutside) :
    LockdropPcl.CosmosMsg → Except StdError SampleOutside
  | .provideLiquidity pool _ _ => .ok { f with lp := f.lp.save pool (f.lpOf pool + 10) }
  | .lpTransfer lpToken _ amount => do
      let rest ← Uint.checkedSub (f.lpOf (lpToken ++ "_pair")) amount
      .ok { f with lp := f.lp.save (lpToken ++ "_pair") rest }
  | _ => .ok f

/-- The contracts around the two lockdrops. -/
def sampleOutside : Outside SampleOutside where
  xykLockdrop := "lockdrop"
  xykQuerier f := f.xyk.querier
  xykExec f msg := do
    let xyk ← f.xyk.exec msg
    .ok { f with xyk := xyk }
  pcl := ⟨SampleOutside.pclQuerier, SampleOutside.pclExec⟩

/-- The configuration of the PCL lockdrop. -/
def samplePclMsg : LockdropPcl.InstantiateMsg where
  owner := some "owner"
  xykLockdropContract := "lockdrop"
  creditsContract := "credits"
  auctionContract := "auction"
  incentives := "incentives"
  lockupRewardsInfo := [⟨1, ⟨0⟩⟩, ⟨2, ⟨FixedPoint.fractional⟩⟩]
  usdcToken := "usdc_pcl"
  atomToken := "atom_pcl"
  lockdropIncentives := 0
  usdcIncentivesShare := 0
  usdcWeightedAmount := 0
  atomIncentivesShare := 0
  atomWeightedAmount := 0

/-- Both lockdrops right after they were instantiated. -/
def sampleStart : World SampleOutside where
  storage := Lockdrop.sampleInstantiateMsg.storage ⟨"owner", []⟩
  ext :=
    { storage := samplePclMsg.storage ⟨0, 1, "lockdrop_pcl"⟩ ⟨"owner", []⟩
      ext := ⟨⟨∅, ∅, 1000⟩, ∅⟩
      env := ⟨0, 1, "lockdrop_pcl"⟩
      trace := [] }
  env := ⟨0, 1, "lockdrop"⟩
  trace := []

theorem sampleStart_started : Started sampleOutside sampleStart where
  xyk := ⟨⟨0, 1, "lockdrop"⟩, ⟨"owner", []⟩, Lockdrop.sampleInstantiateMsg, rfl⟩
  pcl := ⟨⟨0, 1, "lockdrop_pcl"⟩, ⟨"owner", []⟩, samplePclMsg, rfl, rfl⟩
  contract := rfl
  time := rfl
  trace := rfl
  pclTrace := rfl

/-- Alice and Bob lock USDC liquidity, which is staked. -/
def sampleLocks : List (Action SampleOutside) :=
  [.xyk ⟨"owner", []⟩ (.setTokenInfo "atom_lp" "usdc_lp" "generator"),
    .xyk ⟨"owner", [⟨Lockdrop.untrnDenom, 600⟩]⟩ .increaseNTRNIncentives,
    .advance 150 10,
    .xyk ⟨"auction", []⟩ (.increaseLockupFor "alice" .usdc 200 1),
    .xyk ⟨"auction", []⟩ (.increaseLockupFor "bob" .usdc 100 1),
    .xyk ⟨"usdc_lp", []⟩ (.receive ⟨"auction", 300, some (.initializePool .usdc 10)⟩)]

end NeutronTge.Lockdrops
