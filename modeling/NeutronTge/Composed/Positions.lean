import NeutronTge.Composed.LockedLp

/-!
# NeutronTge.Composed.Positions

Empty positions. `LockLp` of nothing is accepted and opens a lockup without units, and the
share of an open lockup is divided by what the pool's lockups count. If every lockup is opened
with some amount, every stored lockup has units, and the share of every open lockup can be
computed (`no_empty_positions`).
-/

namespace NeutronTge.Positions

open CosmWasm Astroport
open Lockdrop (PoolType LockupKey)
open LockedLp (Outside World deliver Quiet)

/-! ### Positions of the lockdrop -/

section Lockdrop

variable {E : Type} {x : Lockdrop.Externals E} {w w' : Lockdrop.World E} {s : Lockdrop.Storage}

/-- Every stored lockup has units. -/
def Filled (s : Lockdrop.Storage) : Prop :=
  ∀ key st, s.lockupInfo.mayLoad key = some st → 0 < st.core.lpUnitsLocked

theorem filled_iff : Filled s ↔
    ∀ key units flag, s.position key = some (units, flag) → 0 < units := by
  constructor
  · intro h key units flag hposition
    obtain ⟨core, hcore, heq⟩ := Option.map_eq_some_iff.mp hposition
    obtain ⟨st, hst, rfl⟩ := Option.map_eq_some_iff.mp hcore
    rw [← (Prod.mk.inj heq).1]
    exact h key st hst
  · intro h key st hst
    exact h key _ _ (Lockdrop.position_of_lockup hst)

/-- A lockup is opened with some amount. -/
def OpensFilled (w : Lockdrop.World E) : Lockdrop.Action E → Prop
  | .execute _ (.increaseLockupFor user poolType amount duration) =>
      0 < amount ∨ w.storage.lockupInfo.mayLoad ⟨poolType, user, duration⟩ ≠ none
  | _ => True

theorem filled_increases {s' : Lockdrop.Storage} {env : Env} {info : MessageInfo}
    {key : LockupKey} {amount : Nat} {pool : Lockdrop.PoolInfo} {weight : Nat}
    {lockup : Lockdrop.LockupInfoV2} {userInfo : Lockdrop.UserInfo} (hs : Filled s)
    (hamount : 0 < amount ∨ s.lockupInfo.mayLoad key ≠ none)
    (h : Lockdrop.Increases s s' env info key amount pool weight lockup userInfo) :
    Filled s' := by
  intro k st hst
  rw [h.lockupInfo, Map.mayLoad_save_eq] at hst
  split_ifs at hst with hk
  · obtain rfl := Option.some.inj hst
    show 0 < lockup.core.lpUnitsLocked
    cases h.position with
    | grown st _ hold hcore =>
        rw [hcore]
        exact Nat.add_pos_left (hs key st hold) amount
    | opened _ hnone hcore =>
        rw [hcore]
        exact hamount.resolve_right (not_not.mpr hnone)
  · exact hs k st hst

theorem filled_withdraws {s' : Lockdrop.Storage} {env : Env} {info : MessageInfo}
    {key : LockupKey} {amount : Nat} {pool : Lockdrop.PoolInfo} {weight : Nat}
    {st : Lockdrop.StoredLockup} {lockup : Lockdrop.LockupInfoV2} (hs : Filled s)
    (h : Lockdrop.Withdraws s s' env info key amount pool weight st lockup) : Filled s' := by
  have hposition := h.position
  generalize s'.userInfo = users at hposition
  generalize hlockups : s'.lockupInfo = lockups at hposition
  intro k st' hst
  rw [hlockups] at hst
  cases hposition with
  | deleted hzero =>
      -- what is left of the user's lockups was there before
      rw [Map.mayLoad_remove_eq] at hst
      split_ifs at hst
      exact hs k st' hst
  | kept hpos =>
      rw [Map.mayLoad_save_eq] at hst
      split_ifs at hst
      · obtain rfl := Option.some.inj hst
        exact hpos
      · exact hs k st' hst

theorem filled_exec {a : Lockdrop.Action E} (h : Filled w.storage) (ha : OpensFilled w a)
    (hexec : w.exec x a = .ok w') : Filled w'.storage := by
  cases a with
  | advance _ _ | drift _ | migrate _ =>
      obtain rfl := Except.ok.inj hexec
      exact h
  | execute info msg =>
      cases Lockdrop.World.execute_changes hexec with
      | increased _ key _ _ _ _ _ hmsg hincreases =>
          subst hmsg
          exact filled_increases h ha hincreases
      | withdrawn _ _ _ _ _ _ _ _ hwithdraws => exact filled_withdraws h hwithdraws
      | kept _ hsame =>
          rw [filled_iff] at h ⊢
          intro key units flag hposition
          exact h key units flag ((hsame key).symm.trans hposition)

/-- The share of every open lockup can be computed: in claims, unlocks and migrations, and in
the query of a lockup. -/
structure Divides (s : Lockdrop.Storage) (key : LockupKey) (st : Lockdrop.StoredLockup)
    (pool : Lockdrop.PoolInfo) : Prop where
  pool_eq : s.assetPools.mayLoad key.poolType = some pool
  positive : 0 < pool.amountInLockups
  share : ∀ q generator balance, Lockdrop.lpBalance q generator pool = .ok balance →
    balance < 2 ^ 128 →
      ∃ share, Lockdrop.astroportLpShare q generator pool st.core.lpUnitsLocked = .ok share
  query : ∀ q balance, Lockdrop.rawLpBalance q s pool = .ok balance → balance < 2 ^ 128 →
    ∃ units, Lockdrop.queryLpUnits q s pool st.core.lpUnitsLocked = .ok (balance, units)

theorem divides_of_ledger (h : Lockdrop.Ledger s) (hfilled : Filled s) {key : LockupKey}
    {st : Lockdrop.StoredLockup} (hst : s.lockupInfo.mayLoad key = some st)
    (hopen : st.core.astroportLpTransferred = none) : ∃ pool, Divides s key st pool := by
  have hunits := hfilled key st hst
  have hle : st.core.lpUnitsLocked ≤ s.amountIn key.poolType := by
    rw [← Lockdrop.LockupCore.openUnits_of_open hopen, ← Lockdrop.unitsOf_of_mayLoad hst]
    exact h.unitsOf_le_amount key
  cases hpool : s.assetPools.mayLoad key.poolType with
  | none =>
      change _ ≤ (s.assetPools.mayLoad key.poolType).elim 0 _ at hle
      rw [hpool] at hle
      exact absurd hle (Nat.not_le_of_lt hunits)
  | some pool =>
      rw [Lockdrop.amountIn_of_mayLoad hpool] at hle
      have hpos : 0 < pool.amountInLockups := hunits.trans_le hle
      have hdiv : ∀ balance, st.core.lpUnitsLocked * balance / pool.amountInLockups ≤ balance :=
        fun balance => Nat.div_le_of_le_mul (Nat.mul_le_mul_right balance hle)
      refine ⟨pool, hpool, hpos, fun q generator balance hbalance hlt => ?_,
        fun q balance hbalance hlt => ?_⟩
      · refine ⟨st.core.lpUnitsLocked * balance / pool.amountInLockups, ?_⟩
        simp only [Lockdrop.astroportLpShare, bind_eq_ok, Uint.checkedDiv_eq_ok,
          Uint.tryInto_eq_ok]
        exact ⟨balance, hbalance, _, ⟨hpos.ne', rfl⟩, (hdiv balance).trans_lt hlt, rfl⟩
      · refine ⟨st.core.lpUnitsLocked * balance / pool.amountInLockups, ?_⟩
        simp only [Lockdrop.queryLpUnits, bind_eq_ok, Uint.checkedDiv_eq_ok,
          Uint.tryInto_eq_ok, Except.ok.injEq]
        exact ⟨balance, hbalance, _, ⟨hpos.ne', rfl⟩, _, ⟨(hdiv balance).trans_lt hlt, rfl⟩, rfl⟩

end Lockdrop

/-! ### The two contracts -/

/-- What happens in a run of the auction with the lockdrop, migrations included. -/
inductive Action (F : Type)
  | joint (a : LockedLp.Action F)
  /-- The lockdrop's code is replaced, and it learns of the PCL lockdrop. -/
  | migrate (pclLockdropContract : Addr)

variable {F : Type} {o : Outside F} {w w' : World F}

/-- One action of a run. -/
def exec (o : Outside F) (w : World F) : Action F → Except StdError (World F)
  | .joint a => LockedLp.exec o w a
  | .migrate pclLockdropContract => do
      let ext ← w.ext.exec o.lockdrop (.migrate pclLockdropContract)
      .ok { w with ext := ext }

/-- The lockdrop's messages of a transaction of the auction meet `P`. -/
def Sends (o : Outside F) (P : Lockdrop.World F → Lockdrop.Action F → Prop) (w : World F)
    (info : MessageInfo) : Auction.ExecuteMsg → Prop
  | .lockLp asset amount duration => ∀ ext, P { w.ext with ext := ext }
      (.execute ⟨o.auction, []⟩ (.increaseLockupFor info.sender asset amount duration))
  | .withdrawLp asset amount duration => ∀ ext, P { w.ext with ext := ext }
      (.execute ⟨o.auction, []⟩ (.withdrawFromLockup info.sender asset duration amount))
  | _ => True

/-- What the lockdrop does in an action meets `P`. -/
def Meets (o : Outside F) (P : Lockdrop.World F → Lockdrop.Action F → Prop) (w : World F) :
    Action F → Prop
  | .joint (.advance seconds blocks) => P w.ext (.advance seconds blocks)
  | .joint (.drift ext) => P w.ext (.drift ext)
  | .joint (.donate _) => True
  | .joint (.auction info msg) => Sends o P w info msg
  | .joint (.lockdrop info msg) => P w.ext (.execute info msg)
  | .migrate pclLockdropContract => P w.ext (.migrate pclLockdropContract)

section Steps

variable {P : Lockdrop.World F → Lockdrop.Action F → Prop} {Inv : Lockdrop.World F → Prop}
  {e e' : Lockdrop.World F}

/-- A message of the auction changes what is around the lockdrop and may be one of its own. -/
theorem deliver_keeps
    (hstep : ∀ e a e', Inv e → P e a → Lockdrop.World.exec o.lockdrop e a = .ok e' → Inv e')
    (hdrift : ∀ e ext, P e (.drift ext)) (hreceive : ∀ e info m, P e (.execute info (.receive m)))
    {msg : Auction.CosmosMsg}
    (hmsg : ∀ lockdrop m, msg = .executeLockdrop lockdrop m →
      ∀ ext, P { e with ext := ext } (.execute ⟨o.auction, []⟩ m))
    (he : Inv e) (h : deliver o e msg = .ok e') : Inv e' := by
  unfold deliver at h
  rw [bind_eq_ok] at h
  obtain ⟨ext, -, h⟩ := h
  have hext : Inv { e with ext := ext } := hstep e (.drift ext) _ he (hdrift e ext) rfl
  cases msg with
  | executeLockdrop lockdrop m =>
      dsimp only at h
      split_ifs at h
      · exact hstep _ (.execute ⟨o.auction, []⟩ m) _ hext (hmsg lockdrop m rfl ext) h
      · exact Except.ok.inj h ▸ hext
  | lpSend lpToken contract amount hook =>
      dsimp only at h
      split_ifs at h
      · exact hstep _ (.execute ⟨lpToken, []⟩ (.receive _)) _ hext (hreceive _ _ _) h
      · exact Except.ok.inj h ▸ hext
  | _ => exact Except.ok.inj h ▸ hext

theorem quiet_keeps
    (hstep : ∀ e a e', Inv e → P e a → Lockdrop.World.exec o.lockdrop e a = .ok e' → Inv e')
    (hdrift : ∀ e ext, P e (.drift ext)) (hreceive : ∀ e info m, P e (.execute info (.receive m)))
    {msgs : List Auction.CosmosMsg} (hquiet : Quiet msgs) (he : Inv e)
    (h : msgs.foldlM (deliver o) e = .ok e') : Inv e' :=
  foldlM_invariant Inv he
    (fun _ _ msg hmem ht => deliver_keeps hstep hdrift hreceive
      (fun lockdrop m heq => absurd heq (hquiet msg hmem lockdrop m)) ht) h

/-- The messages of the auction: one about a lockup, or none to the lockdrop's handlers. -/
theorem messages_cases {q : Auction.Querier} {s s' : Auction.Storage} {env : Env}
    {info : MessageInfo} {msgs : List Auction.CosmosMsg} {msg : Auction.ExecuteMsg}
    (h : Auction.Effect q s env info s' msgs msg) (hne : msg ≠ .initPool) :
    (∃ asset amount duration lockdrop, msg = .lockLp asset amount duration ∧
        msgs = [.executeLockdrop lockdrop
          (.increaseLockupFor info.sender asset amount duration)]) ∨
      (∃ asset amount duration lockdrop, msg = .withdrawLp asset amount duration ∧
        msgs = [.executeLockdrop lockdrop
          (.withdrawFromLockup info.sender asset duration amount)]) ∨
      Quiet msgs := by
  cases h with
  | configure _ _ hmsgs => exact Or.inr (Or.inr (by simp [Quiet, hmsgs]))
  | deposit _ _ _ _ hmsgs => exact Or.inr (Or.inr (by simp [Quiet, hmsgs]))
  | size _ _ _ _ _ _ _ _ hmsgs => exact Or.inr (Or.inr (by simp [Quiet, hmsgs]))
  | initPool => exact absurd rfl hne
  | withdraw _ _ _ _ _ _ hwithdraws =>
      rw [hwithdraws.messages]
      exact Or.inr (Or.inr (LockedLp.quiet_withdrawMsg.append LockedLp.quiet_withdrawMsg))
  | vest _ _ hvests =>
      rw [hvests.messages]
      exact Or.inr (Or.inr (LockedLp.quiet_vestingMsg.append LockedLp.quiet_vestingMsg))
  | lock asset amount duration _ lockdrop hlocks =>
      exact Or.inl ⟨asset, amount, duration, lockdrop, rfl, hlocks.messages⟩
  | unlock asset amount duration _ lockdrop hunlocks =>
      exact Or.inr (Or.inl ⟨asset, amount, duration, lockdrop, rfl, hunlocks.messages⟩)

theorem auction_keeps
    (hstep : ∀ e a e', Inv e → P e a → Lockdrop.World.exec o.lockdrop e a = .ok e' → Inv e')
    (hdrift : ∀ e ext, P e (.drift ext)) (hreceive : ∀ e info m, P e (.execute info (.receive m)))
    {info : MessageInfo} {msg : Auction.ExecuteMsg} (ha : Sends o P w info msg) (hw : Inv w.ext)
    (h : Auction.World.execute o.externals w info msg = .ok w') : Inv w'.ext := by
  rcases Auction.execute_cases h with ⟨msgs, hresponds, hne⟩ | ⟨rfl, w₁, usdcDenom, atomDenom,
    poolInfo, prev, cur, lockdrop, provide₁, provide₂, msgs, hinit⟩
  · have hrun : msgs.foldlM (deliver o) w.ext = .ok w'.ext := hresponds.exec
    rcases messages_cases hresponds.effect hne with
      ⟨asset, amount, duration, lockdrop, rfl, rfl⟩ |
      ⟨asset, amount, duration, lockdrop, rfl, rfl⟩ | hquiet
    · refine deliver_keeps hstep hdrift hreceive (fun _ m heq => ?_) hw
        (foldlM_singleton_ok.mp hrun)
      rw [← (Auction.CosmosMsg.executeLockdrop.inj heq).2]
      exact ha
    · refine deliver_keeps hstep hdrift hreceive (fun _ m heq => ?_) hw
        (foldlM_singleton_ok.mp hrun)
      rw [← (Auction.CosmosMsg.executeLockdrop.inj heq).2]
      exact ha
    · exact quiet_keeps hstep hdrift hreceive hquiet hw hrun
  · -- the liquidity is provided first, then the callback divides it
    have hprovided : [provide₁, provide₂].foldlM (deliver o) w.ext = .ok w₁.ext := hinit.exec₁
    have hdivided : msgs.foldlM (deliver o) w₁.ext = .ok w'.ext := hinit.exec
    have hprovides : Quiet [provide₁, provide₂] := by
      have hmessages := hinit.starts.messages
      simp only [List.cons.injEq] at hmessages
      obtain ⟨rfl, rfl, -⟩ := hmessages
      simp [Quiet, Auction.buildProvideLiquidityToLpPoolMsg]
    exact quiet_keeps hstep hdrift hreceive (LockedLp.quiet_finalizes hinit.finalizes)
      (quiet_keeps hstep hdrift hreceive hprovides hw hprovided) hdivided

/-- What the lockdrop preserves in its own actions, it preserves beside the auction. -/
theorem exec_keeps
    (hstep : ∀ e a e', Inv e → P e a → Lockdrop.World.exec o.lockdrop e a = .ok e' → Inv e')
    (hdrift : ∀ e ext, P e (.drift ext)) (hreceive : ∀ e info m, P e (.execute info (.receive m)))
    {a : Action F} (ha : Meets o P w a) (hw : Inv w.ext) (h : exec o w a = .ok w') :
    Inv w'.ext := by
  cases a with
  | migrate pclLockdropContract =>
      simp only [exec, bind_eq_ok, Except.ok.injEq] at h
      obtain ⟨ext, hext, rfl⟩ := h
      exact hstep _ _ _ hw ha hext
  | joint a =>
      cases a with
      | advance seconds blocks =>
          obtain rfl := Except.ok.inj h
          exact hstep w.ext (.advance seconds blocks) _ hw ha rfl
      | drift ext =>
          obtain rfl := Except.ok.inj h
          exact hstep w.ext (.drift ext) _ hw ha rfl
      | donate coins =>
          obtain rfl := Except.ok.inj h
          exact hw
      | auction info msg => exact auction_keeps hstep hdrift hreceive ha hw h
      | lockdrop info msg =>
          simp only [exec, LockedLp.exec, bind_eq_ok, Except.ok.injEq] at h
          obtain ⟨ext, hext, rfl⟩ := h
          exact hstep _ (.execute info msg) _ hw ha hext

end Steps

/-! ### Runs -/

/-- No message opens a lockup of nothing. -/
def NoEmptyLock (w : World F) : Action F → Prop
  | .joint (.auction info (.lockLp asset amount duration)) =>
      0 < amount ∨ w.ext.storage.lockupInfo.mayLoad ⟨asset, info.sender, duration⟩ ≠ none
  | .joint (.lockdrop info msg) => OpensFilled w.ext (.execute info msg)
  | _ => True

/-- The lockdrop's token info is set before anything is locked, and migrations wait for the
end of its windows. -/
def Orderly (w : World F) : Action F → Prop
  | .joint (.lockdrop info msg) => Lockdrop.Orderly w.ext (.execute info msg)
  | _ => True

theorem meets_of_noEmptyLock {a : Action F} (ha : NoEmptyLock w a) : Meets o OpensFilled w a := by
  cases a with
  | migrate _ => trivial
  | joint a =>
      cases a with
      | advance _ _ | drift _ | donate _ => trivial
      | lockdrop info msg => exact ha
      | auction info msg =>
          cases msg with
          | lockLp asset amount duration => exact fun _ => ha
          | withdrawLp asset amount duration => exact fun _ => trivial
          | _ => trivial

theorem meets_of_orderly {a : Action F} (ha : Orderly w a) : Meets o Lockdrop.Orderly w a := by
  cases a with
  | migrate _ => trivial
  | joint a =>
      cases a with
      | advance _ _ | drift _ | donate _ => trivial
      | lockdrop info msg => exact ha
      | auction info msg =>
          cases msg with
          | lockLp asset amount duration => exact fun _ => trivial
          | withdrawLp asset amount duration => exact fun _ => trivial
          | _ => trivial

/-- If no message opens a lockup of nothing, every stored lockup has units; in an orderly run
the share of every open lockup can then be computed. -/
theorem no_empty_positions {w₀ : World F} {as : List (Action F)}
    (hstart : LockedLp.Started o w₀) (has : Along (exec o) NoEmptyLock w₀ as) :
    Filled (run (exec o) w₀ as).ext.storage ∧
      (Along (exec o) Orderly w₀ as → ∀ key st,
        (run (exec o) w₀ as).ext.storage.lockupInfo.mayLoad key = some st →
          st.core.astroportLpTransferred = none →
            ∃ pool, Divides (run (exec o) w₀ as).ext.storage key st pool) := by
  obtain ⟨env, info, msg, hinit⟩ := hstart.lockdrop
  have hfilled : Filled (run (exec o) w₀ as).ext.storage := by
    refine run_invariant_along (fun t : World F => Filled t.ext.storage)
      (fun _ _ _ ht ha hexec => exec_keeps (fun _ _ _ => filled_exec) (fun _ _ => trivial)
        (fun _ _ _ => trivial) (meets_of_noEmptyLock ha) ht hexec) ?_ has
    -- there are no lockups at the start
    intro key st hst
    rw [Lockdrop.instantiate_ok hinit] at hst
    cases hst
  refine ⟨hfilled, fun horderly key st hst hopen => ?_⟩
  have hinvariant : Lockdrop.Invariant (run (exec o) w₀ as).ext :=
    run_invariant_along (fun t : World F => Lockdrop.Invariant t.ext)
      (fun _ _ _ ht ha hexec => exec_keeps (fun _ _ _ => Lockdrop.Invariant.exec)
        (fun _ _ => trivial) (fun _ _ _ => trivial) (meets_of_orderly ha) ht hexec)
      (.init hinit) horderly
  exact divides_of_ledger hinvariant.consistent.ledger hfilled hst hopen

/-! ### A lockup of nothing -/

/-- alice locks an amount, in the sample of the two contracts. -/
def sampleLock (amount : Nat) : List (Action (Auction.SampleExt × Lockdrop.SampleExt)) :=
  [.lockdrop ⟨"owner", []⟩ (.setTokenInfo "atom_lp" "usdc_lp" "generator"),
    .auction ⟨"manager", []⟩ (.setTokenInfo (some "usdc") (some "atom")
      (some Auction.samplePools)),
    .auction ⟨"alice", [⟨"atom", 2000⟩, ⟨"usdc", 2000⟩]⟩ .deposit,
    .donate [⟨"untrn", 4000⟩],
    .advance 20 1,
    .auction ⟨"bob", []⟩ .setPoolSize,
    .auction ⟨"alice", []⟩ (.lockLp .usdc amount 1)].map .joint

/-- The share of a lockup of 200 LP tokens can be computed. -/
theorem no_empty_positions_sample :
    ∃ st pool, Divides (run (exec LockedLp.sampleOutside) LockedLp.sampleStart
      (sampleLock 200)).ext.storage ⟨.usdc, "alice", 1⟩ st pool := by
  obtain ⟨-, hdivides⟩ := @no_empty_positions _ LockedLp.sampleOutside _ (sampleLock 200)
    LockedLp.sampleStart_started
    ⟨trivial, trivial, trivial, trivial, trivial, trivial, Or.inl (by decide), trivial⟩
  have hlockup : ((run (exec LockedLp.sampleOutside) LockedLp.sampleStart
      (sampleLock 200)).ext.storage.lockupInfo.mayLoad ⟨.usdc, "alice", 1⟩).map
        (fun st => st.core.astroportLpTransferred) = some none := by
    decide +kernel
  obtain ⟨st, hst, hopen⟩ := Option.map_eq_some_iff.mp hlockup
  exact ⟨st, hdivides ⟨rfl, trivial, trivial, trivial, trivial, trivial, trivial, trivial⟩ _ st
    hst hopen⟩

/-- alice locks nothing: the lockup is stored without units, and the query of it fails. -/
theorem empty_position :
    ¬ Filled (run (exec LockedLp.sampleOutside) LockedLp.sampleStart
        (sampleLock 0)).ext.storage ∧
      (run (exec LockedLp.sampleOutside) LockedLp.sampleStart
        (sampleLock 0)).ext.storage.amountIn .usdc = 0 ∧
      ((run (exec LockedLp.sampleOutside) LockedLp.sampleStart
        (sampleLock 0)).ext.storage.lockupInfo.mayLoad ⟨.usdc, "alice", 1⟩).map
          (fun st => st.core.astroportLpTransferred) = some none ∧
      ((Lockdrop.queryLockupInfo
          (LockedLp.sampleOutside.lockdrop.querier (run (exec LockedLp.sampleOutside)
            LockedLp.sampleStart (sampleLock 0)).ext.ext)
          (run (exec LockedLp.sampleOutside) LockedLp.sampleStart (sampleLock 0)).ext.storage
          ⟨.usdc, "alice", 1⟩).map fun _ => ()) = .error .divideByZero := by
  refine ⟨fun h => ?_, by decide +kernel, by decide +kernel, by decide +kernel⟩
  have hunits : ((run (exec LockedLp.sampleOutside) LockedLp.sampleStart
      (sampleLock 0)).ext.storage.lockupInfo.mayLoad ⟨.usdc, "alice", 1⟩).map
        (fun st => st.core.lpUnitsLocked) = some 0 := by
    decide +kernel
  obtain ⟨st, hst, hzero⟩ := Option.map_eq_some_iff.mp hunits
  exact absurd (h _ st hst) (by omega)

end NeutronTge.Positions
