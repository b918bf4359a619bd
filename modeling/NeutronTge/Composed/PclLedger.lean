import NeutronTge.LockdropPcl.Backing
import NeutronTge.LockdropPcl.Coverage
import NeutronTge.LockdropPcl.Records
import NeutronTge.Composed.EarlyExit

/-!
# NeutronTge.Composed.PclLedger

The books of the PCL lockdrop in runs of both lockdrops. It saves the lockup of a migration
without looking at what is stored under its key, and relies on the XYK lockdrop, which closes a
lockup when it hands it over. As long as lockups migrate after the lock window only, a closed
lockup is not opened again, so that no key comes twice and the books agree. The LP tokens cover
the pools in any case.
-/

namespace NeutronTge.Lockdrops

open CosmWasm Astroport
open Lockdrop (LockupKey LockupCore)

variable {F : Type} {o : Outside F} {w w' : World F}

/-! ### No lockup comes twice -/

/-- Both lockdrops right after they were instantiated, the PCL lockdrop in this block or
before and with two LP tokens. -/
structure Deployed (o : Outside F) (w : World F) : Prop where
  started : Started o w
  pools : ∃ env info msg, LockdropPcl.instantiate env info msg = .ok w.ext.storage ∧
    env.height ≤ w.ext.env.height ∧ msg.atomToken ≠ msg.usdcToken

/-- The lockups that the PCL lockdrop stores are stored as they are. -/
def KeepsStored (e e' : LockdropPcl.World F) : Prop :=
  ∀ k lockup, e.storage.lockupInfo.mayLoad k = some lockup →
    e'.storage.lockupInfo.mayLoad k = some lockup

/-- A lockup that is open in the XYK lockdrop is not yet in the PCL lockdrop. -/
theorem HandedOver.absent (hw : HandedOver w) {k : LockupKey} {core : LockupCore}
    (hcore : w.storage.coreOf k = some core) (hopen : core.astroportLpTransferred = none) :
    w.ext.storage.coreOf k = none := by
  by_contra hstored
  exact (hw.left k hstored).2 core hcore hopen

/-- A transaction of the XYK lockdrop keeps the books of the PCL lockdrop and what is stored
there: the lockups that come are new. -/
theorem HandedOver.execute_recorded (hw : HandedOver w) (hrecorded : w.ext.Recorded)
    {info : MessageInfo} {msg : Lockdrop.ExecuteMsg}
    (h : Lockdrop.World.execute o.externals w info msg = .ok w') :
    w'.ext.Recorded ∧ KeepsStored w.ext w'.ext := by
  refine execute_handsOver (P := fun e => e.Recorded ∧ KeepsStored w.ext e) ?_ ?_
    hw.timed.linked.pcl h ⟨hrecorded, fun _ _ => id⟩
  · rintro e e' hsame ⟨he, hkeeps⟩
    refine ⟨he.sameBooks hsame.env ?_, fun k lockup hk => ?_⟩
    · rw [hsame.storage]
      exact .refl _
    · rw [hsame.storage]
      exact hkeeps k lockup hk
  · rintro e e' key core funds userInfo lockup stake pair ext msgs prev balance pool weight hcore
      hopen hstored - hmigrates ⟨he, hkeeps⟩
    have hnone : w.ext.storage.coreOf key = none := hw.absent hcore hopen
    have hnew : e.storage.unitsOf key = 0 := LockdropPcl.unitsOf_of_none (hstored.trans hnone)
    refine ⟨he.migrates hnew hmigrates, fun k info hk => ?_⟩
    rw [hmigrates.finishes.lockupInfo, Map.mayLoad_save_eq, if_neg, hkeeps k info hk]
    rintro rfl
    rw [LockdropPcl.coreOf_of_load hk] at hnone
    cases hnone

/-- What holds of both lockdrops while lockups migrate late. -/
structure Booked (w : World F) : Prop where
  handedOver : HandedOver w
  recorded : w.ext.Recorded

theorem Deployed.booked (h : Deployed o w) : Booked w := by
  obtain ⟨env, info, msg, hinstantiate, hheight, -⟩ := h.pools
  exact ⟨h.started.handedOver, .of_instantiate hinstantiate hheight⟩

theorem Booked.exec (hw : Booked w) {a : Action F} (hlate : MigratesLate w a)
    (hexec : Lockdrops.exec o w a = .ok w') : Booked w' := by
  refine ⟨(hw.handedOver.exec hlate hexec).1, ?_⟩
  cases a with
  | advance seconds blocks =>
      obtain rfl := Except.ok.inj hexec
      exact hw.recorded.later (Nat.le_add_right _ _)
  | drift ext =>
      obtain rfl := Except.ok.inj hexec
      exact hw.recorded
  | migrate =>
      obtain rfl := Except.ok.inj hexec
      exact hw.recorded
  | xyk info msg => exact (hw.handedOver.execute_recorded hw.recorded hexec).1
  | pcl info msg =>
      simp only [Lockdrops.exec, bind_eq_ok, rejectIf_eq_ok, exists_const,
        Except.ok.injEq] at hexec
      obtain ⟨hsender, e, hexecute, rfl⟩ := hexec
      rw [← hw.handedOver.timed.linked.xyk] at hsender
      exact hw.recorded.execute hsender hexecute

/-- The actions with which lockups can come to the PCL lockdrop. -/
def Action.brings : Action F → Prop
  | .xyk _ _ => True
  | .pcl _ (.migrateXYKLiquidity ..) => True
  | _ => False

/-- A migration overwrites no lockup that is stored. -/
theorem Booked.keepsStored (hw : Booked w) {a : Action F} (hbrings : a.brings)
    (hexec : Lockdrops.exec o w a = .ok w') : KeepsStored w.ext w'.ext := by
  cases a with
  | xyk info msg => exact (hw.handedOver.execute_recorded hw.recorded hexec).2
  | pcl info msg =>
      simp only [Lockdrops.exec, bind_eq_ok, rejectIf_eq_ok, exists_const,
        Except.ok.injEq] at hexec
      obtain ⟨hsender, e, hexecute, rfl⟩ := hexec
      rw [← hw.handedOver.timed.linked.xyk] at hsender
      -- nobody else may send the message of a migration
      cases LockdropPcl.execute_effect hexecute with
      | migrate _ _ _ _ _ _ _ _ _ _ _ hxyk => exact absurd hxyk hsender
      | administer _ _ hsame =>
          intro k lockup hk
          show e.storage.lockupInfo.mayLoad k = some lockup
          rw [hsame.lockupInfo]
          exact hk
      | claim => cases hbrings
  | _ => cases hbrings

/-! ### The LP tokens -/

/-- The XYK lockdrop's messages take no LP tokens from the PCL lockdrop. -/
def Outside.LeavesLp (o : Outside F) (c : LockdropPcl.LpTokens F) : Prop :=
  ∀ f f' m, o.xykExec f m = .ok f' → ∀ incentives lp,
    c.owned f incentives lp ≤ c.owned f' incentives lp

/-- None of the LP tokens is given away in an action: nobody takes them, and no reward is paid
in them. What the owners of lockups take when they unlock is not given away. -/
def GivesNothing (o : Outside F) (c : LockdropPcl.LpTokens F) (w : World F) : Action F → Prop
  | .drift ext => ∀ p pool, w.ext.storage.assetPools.mayLoad p = some pool →
      c.owned w.ext.ext w.ext.storage.config.incentives pool.lpToken ≤
        c.owned ext w.ext.storage.config.incentives pool.lpToken
  | .pcl info msg => ∀ e, LockdropPcl.World.execute o.pcl w.ext info msg = .ok e →
      Appends (fun m => ∀ p pool, w.ext.storage.assetPools.mayLoad p = some pool →
        ¬ m.PaysIn pool.lpToken) w.ext.trace e.trace
  | _ => True

section Backed

variable {c : LockdropPcl.LpTokens F}

theorem deliver_backed (hc : c.Honest o.pcl) (hxyk : o.LeavesLp c) {e e' : LockdropPcl.World F}
    {m : Lockdrop.CosmosMsg} (h : LockdropPcl.Backed c e) (hdeliver : deliver o e m = .ok e') :
    LockdropPcl.Backed c e' := by
  unfold deliver at hdeliver
  rw [bind_eq_ok] at hdeliver
  obtain ⟨f, hf, hdeliver⟩ := hdeliver
  have hpaid : LockdropPcl.Backed c { e with ext := f } :=
    h.step fun p pool hp => ⟨pool, hp, rfl, fun hle => hle.trans (hxyk _ _ _ hf _ _)⟩
  split at hdeliver
  · split_ifs at hdeliver
    · cases LockdropPcl.execute_effect hdeliver with
      | migrate _ _ _ _ _ _ _ _ _ _ _ _ hmigrates => exact hpaid.migrates hc hmigrates
      | administer _ hmsg => cases hmsg
    · obtain rfl := Except.ok.inj hdeliver
      exact hpaid
  · obtain rfl := Except.ok.inj hdeliver
    exact hpaid

theorem backed_exec (hc : c.Honest o.pcl) (hxyk : o.LeavesLp c) {a : Action F}
    (h : LockdropPcl.Backed c w.ext) (hgives : GivesNothing o c w a)
    (hexec : Lockdrops.exec o w a = .ok w') : LockdropPcl.Backed c w'.ext := by
  cases a with
  | advance seconds blocks =>
      obtain rfl := Except.ok.inj hexec
      exact h.step fun p pool hp => ⟨pool, hp, rfl, id⟩
  | drift ext =>
      obtain rfl := Except.ok.inj hexec
      exact h.step fun p pool hp => ⟨pool, hp, rfl, fun hle => hle.trans (hgives p pool hp)⟩
  | migrate =>
      obtain rfl := Except.ok.inj hexec
      exact h
  | xyk info msg =>
      exact Lockdrop.World.execute_ext (fun _ _ _ => deliver_backed hc hxyk) h hexec
  | pcl info msg =>
      simp only [Lockdrops.exec, bind_eq_ok, rejectIf_eq_ok, exists_const,
        Except.ok.injEq] at hexec
      obtain ⟨-, e, hexecute, rfl⟩ := hexec
      exact h.execute hc hexecute (hgives e hexecute)

theorem Deployed.backed (h : Deployed o w) : LockdropPcl.Backed c w.ext := by
  obtain ⟨env, info, msg, hinstantiate, -, htokens⟩ := h.pools
  exact .of_instantiate hinstantiate htokens

end Backed

/-! ### Runs -/

/-- In every run of the two lockdrops: while lockups migrate after the lock window only, the
books of the PCL lockdrop agree, now and about the past, and no migration overwrites a stored
lockup; and while no LP tokens are given away, what the PCL lockdrop holds and has staked covers
every pool. -/
theorem pcl_ledger {c : LockdropPcl.LpTokens F} (hc : c.Honest o.pcl) (hxyk : o.LeavesLp c)
    (h : Deployed o w) (as : List (Action F)) :
    (Along (exec o) MigratesLate w as →
      LockdropPcl.Consistent (run (exec o) w as).ext.storage ∧
        ∀ a w', a.brings → exec o (run (exec o) w as) a = .ok w' →
          KeepsStored (run (exec o) w as).ext w'.ext) ∧
      (Along (exec o) (GivesNothing o c) w as →
        ∀ p pool, (run (exec o) w as).ext.storage.assetPools.mayLoad p = some pool →
          pool.amountInLockups ≤ c.held (run (exec o) w as).ext.ext pool.lpToken +
            c.staked (run (exec o) w as).ext.ext
              (run (exec o) w as).ext.storage.config.incentives pool.lpToken) := by
  constructor
  · intro hlate
    have hbooked : Booked (run (exec o) w as) :=
      run_invariant_along Booked (fun _ _ _ hv hl he => hv.exec hl he) h.booked hlate
    exact ⟨hbooked.recorded.consistent, fun a w' hbrings hexec =>
      hbooked.keepsStored hbrings hexec⟩
  · intro hgives
    have hbacked : LockdropPcl.Backed c (run (exec o) w as).ext :=
      run_invariant_along (fun v => LockdropPcl.Backed c v.ext)
        (fun _ _ _ hv hg he => backed_exec hc hxyk hv hg he) h.backed hgives
    exact hbacked.covered

/-! ### A chain with staking -/

/-- The chain of the PCL lockdrop, with a pair that mints ten LP tokens for every deposit. -/
def tenLpExec (e : LockdropPcl.SampleExt) :
    LockdropPcl.CosmosMsg → Except StdError LockdropPcl.SampleExt
  | .provideLiquidity pair _ _ => .ok { e with lp := e.lp.save pair (e.lpOf pair + 10) }
  | msg => e.exec msg

/-- The chains of both lockdrops, side by side. -/
abbrev BothChains := Lockdrop.SampleExt × LockdropPcl.SampleExt

/-- The contracts around the two lockdrops: each has a small chain of its own. -/
def bothOutside : Outside BothChains where
  xykLockdrop := "lockdrop"
  xykQuerier f := f.1.querier
  xykExec f msg := do
    let xyk ← f.1.exec msg
    .ok (xyk, f.2)
  pcl := ⟨fun f => f.2.querier, fun f msg => do
    let pcl ← tenLpExec f.2 msg
    .ok (f.1, pcl)⟩

/-- The LP tokens of the PCL lockdrop on its chain. -/
def bothLp : LockdropPcl.LpTokens BothChains :=
  ⟨fun f lp => f.2.lpOf (lp ++ "_pair"), fun f incentives lp => f.2.deposit incentives lp⟩

/-- Both lockdrops right after `instantiate`. -/
def bothStart : World BothChains where
  storage := Lockdrop.sampleInstantiateMsg.storage ⟨"owner", []⟩
  ext :=
    { storage := samplePclMsg.storage ⟨0, 1, "lockdrop_pcl"⟩ ⟨"owner", []⟩
      ext := ⟨⟨∅, ∅, 1000⟩, ⟨∅, ∅, ∅, ∅, ∅, []⟩⟩
      env := ⟨0, 1, "lockdrop_pcl"⟩
      trace := [] }
  env := ⟨0, 1, "lockdrop"⟩
  trace := []

theorem bothStart_deployed : Deployed bothOutside bothStart where
  started :=
    { xyk := ⟨⟨0, 1, "lockdrop"⟩, ⟨"owner", []⟩, Lockdrop.sampleInstantiateMsg, rfl⟩
      pcl := ⟨⟨0, 1, "lockdrop_pcl"⟩, ⟨"owner", []⟩, samplePclMsg, rfl, rfl⟩
      contract := rfl
      time := rfl
      trace := rfl
      pclTrace := rfl }
  pools := ⟨⟨0, 1, "lockdrop_pcl"⟩, ⟨"owner", []⟩, samplePclMsg, rfl, Nat.le_refl _, by decide⟩

theorem bothOutside_leavesLp : bothOutside.LeavesLp bothLp := by
  intro f f' m h incentives lp
  simp only [bothOutside, bind_eq_ok, Except.ok.injEq] at h
  obtain ⟨xyk, -, rfl⟩ := h
  exact Nat.le_refl _

section Save

variable {e e' : LockdropPcl.SampleExt} {lpToken : Addr} {n : Nat}

theorem lpOf_of_save (h : e'.lp = e.lp.save (lpToken ++ "_pair") n) (lp : Addr) :
    e'.lpOf (lp ++ "_pair") = if lp = lpToken then n else e.lpOf (lp ++ "_pair") := by
  unfold LockdropPcl.SampleExt.lpOf
  simp only [h, Map.mayLoad_save_eq, String.append_left_inj]
  split_ifs <;> rfl

theorem deposit_of_save (h : e'.deposits = e.deposits.save lpToken n) (incentives lp : Addr) :
    e'.deposit incentives lp =
      if incentives = "incentives" ∧ lp = lpToken then n else e.deposit incentives lp := by
  unfold LockdropPcl.SampleExt.deposit
  by_cases hincentives : incentives = "incentives"
  · simp only [h, hincentives, Map.mayLoad_save_eq, if_true, true_and]
    split_ifs <;> rfl
  · simp only [hincentives, if_false, false_and]

/-- Rewards are no LP tokens on this chain. -/
theorem lp_claims (lpTokens : List Addr) (e : LockdropPcl.SampleExt) :
    (lpTokens.foldl LockdropPcl.SampleExt.claim e).lp = e.lp := by
  have hreceives : ∀ (lpToken : Addr) (as : List Asset) (e : LockdropPcl.SampleExt),
      (as.foldl (LockdropPcl.SampleExt.receive lpToken) e).lp = e.lp := by
    intro lpToken as
    induction as with
    | nil => exact fun e => rfl
    | cons a as ih => exact fun e => ih (e.receive lpToken a)
  induction lpTokens generalizing e with
  | nil => rfl
  | cons lpToken lpTokens ih => exact (ih (e.claim lpToken)).trans (hreceives lpToken _ _)

end Save

theorem bothLp_honest : bothLp.Honest bothOutside.pcl where
  balance f lp n h := (Except.ok.inj h).symm
  deposit f incentives lp n h := (Except.ok.inj h).symm
  sends f f' lp recipient n h := by
    simp only [bothOutside, tenLpExec, LockdropPcl.SampleExt.exec, bind_eq_ok,
      Uint.checkedSub_eq_ok, Except.ok.injEq] at h
    obtain ⟨_, ⟨_, ⟨hle, rfl⟩, rfl⟩, rfl⟩ := h
    simp only [bothLp]
    rw [lpOf_of_save rfl, if_pos rfl]
    omega
  stakes f f' lp incentives n h := by
    simp only [bothOutside, tenLpExec, LockdropPcl.SampleExt.exec, bind_eq_ok, rejectIf_eq_ok,
      exists_const, not_not, Uint.checkedSub_eq_ok, Except.ok.injEq] at h
    obtain ⟨_, ⟨rfl, _, ⟨hle, rfl⟩, rfl⟩, rfl⟩ := h
    simp only [bothLp, LockdropPcl.LpTokens.owned]
    rw [lpOf_of_save rfl, deposit_of_save rfl, if_pos rfl, if_pos ⟨rfl, rfl⟩]
    omega
  unstakes f f' incentives lp n h := by
    simp only [bothOutside, tenLpExec, LockdropPcl.SampleExt.exec, bind_eq_ok, rejectIf_eq_ok,
      exists_const, not_not, Uint.checkedSub_eq_ok, Except.ok.injEq] at h
    obtain ⟨_, ⟨rfl, _, ⟨hle, rfl⟩, rfl⟩, rfl⟩ := h
    simp only [bothLp, LockdropPcl.LpTokens.owned]
    rw [lpOf_of_save rfl, deposit_of_save rfl, if_pos rfl, if_pos ⟨rfl, rfl⟩]
    omega
  held_le f f' m lp hm h := by
    obtain ⟨e, he, h⟩ := bind_eq_ok.mp h
    obtain rfl := Except.ok.inj h
    show f.2.lpOf (lp ++ "_pair") ≤ e.lpOf (lp ++ "_pair")
    cases m with
    | provideLiquidity pair assets funds =>
        obtain rfl := Except.ok.inj he
        unfold LockdropPcl.SampleExt.lpOf
        simp only [Map.mayLoad_save_eq]
        split_ifs with hpair
        · rw [hpair]
          exact Nat.le_add_right _ _
        · exact Nat.le_refl _
    | lpTransfer lpToken recipient n =>
        simp only [tenLpExec, LockdropPcl.SampleExt.exec, bind_eq_ok, Except.ok.injEq] at he
        obtain ⟨rest, -, he⟩ := he
        rw [lpOf_of_save (congrArg LockdropPcl.SampleExt.lp he).symm, if_neg (Ne.symm hm)]
    | sendDeposit lpToken incentives n =>
        simp only [tenLpExec, LockdropPcl.SampleExt.exec, bind_eq_ok, Except.ok.injEq] at he
        obtain ⟨_, -, rest, -, he⟩ := he
        rw [lpOf_of_save (congrArg LockdropPcl.SampleExt.lp he).symm, if_neg (Ne.symm hm)]
    | incentivesWithdraw incentives lpToken n =>
        simp only [tenLpExec, LockdropPcl.SampleExt.exec, bind_eq_ok, Except.ok.injEq] at he
        obtain ⟨_, -, rest, -, he⟩ := he
        rw [lpOf_of_save (congrArg LockdropPcl.SampleExt.lp he).symm]
        split_ifs with hlp
        · rw [hlp]
          exact Nat.le_add_right _ _
        · exact Nat.le_refl _
    | claimRewards incentives lpTokens =>
        obtain rfl := Except.ok.inj he
        unfold LockdropPcl.SampleExt.lpOf
        rw [lp_claims]
    | transfer t =>
        simp only [tenLpExec, LockdropPcl.SampleExt.exec, bind_eq_ok, Except.ok.injEq] at he
        obtain ⟨rest, -, rfl⟩ := he
        exact Nat.le_refl _
    | _ =>
        obtain rfl := Except.ok.inj he
        exact Nat.le_refl _
  staked_le f f' m incentives lp hm h := by
    obtain ⟨e, he, h⟩ := bind_eq_ok.mp h
    obtain rfl := Except.ok.inj h
    show f.2.deposit incentives lp ≤ e.deposit incentives lp
    cases m with
    | sendDeposit lpToken i n =>
        simp only [tenLpExec, LockdropPcl.SampleExt.exec, bind_eq_ok, rejectIf_eq_ok,
          exists_const, not_not, Except.ok.injEq] at he
        obtain ⟨rfl, rest, -, he⟩ := he
        rw [deposit_of_save (congrArg LockdropPcl.SampleExt.deposits he).symm]
        split_ifs with hlp
        · obtain ⟨rfl, rfl⟩ := hlp
          exact Nat.le_add_right _ _
        · exact Nat.le_refl _
    | incentivesWithdraw i lpToken n =>
        simp only [tenLpExec, LockdropPcl.SampleExt.exec, bind_eq_ok, rejectIf_eq_ok,
          exists_const, not_not, Except.ok.injEq] at he
        obtain ⟨rfl, rest, -, he⟩ := he
        rw [deposit_of_save (congrArg LockdropPcl.SampleExt.deposits he).symm, if_neg]
        rintro ⟨rfl, rfl⟩
        exact hm n rfl
    | lpTransfer lpToken recipient n =>
        simp only [tenLpExec, LockdropPcl.SampleExt.exec, bind_eq_ok, Except.ok.injEq] at he
        obtain ⟨rest, -, rfl⟩ := he
        exact Nat.le_refl _
    | claimRewards i lpTokens =>
        obtain rfl := Except.ok.inj he
        unfold LockdropPcl.SampleExt.deposit
        rw [LockdropPcl.deposits_claims]
    | transfer t =>
        simp only [tenLpExec, LockdropPcl.SampleExt.exec, bind_eq_ok, Except.ok.injEq] at he
        obtain ⟨rest, -, rfl⟩ := he
        exact Nat.le_refl _
    | _ =>
        obtain rfl := Except.ok.inj he
        exact Nat.le_refl _

/-- Alice and Bob lock USDC liquidity, which is staked. -/
def bothLock : List (Action BothChains) :=
  [.xyk ⟨"owner", []⟩ (.setTokenInfo "atom_lp" "usdc_lp" "generator"),
    .xyk ⟨"owner", [⟨Lockdrop.untrnDenom, 600⟩]⟩ .increaseNTRNIncentives,
    .advance 150 10,
    .xyk ⟨"auction", []⟩ (.increaseLockupFor "alice" .usdc 200 1),
    .xyk ⟨"auction", []⟩ (.increaseLockupFor "bob" .usdc 100 1),
    .xyk ⟨"usdc_lp", []⟩ (.receive ⟨"auction", 300, some (.initializePool .usdc 10)⟩)]

/-- Bob's lockup is migrated after the windows. -/
def bobMigrates : List (Action BothChains) :=
  bothLock ++
    [.advance 101 10, .migrate, .xyk ⟨"carol", []⟩ (.migrateLiquidityToPCLPools (some "bob"))]

/-- He unlocks it. -/
def bobLeaves : List (Action BothChains) :=
  bobMigrates ++ [.pcl ⟨"bob", []⟩ (.claimRewardsAndOptionallyUnlock .usdc 1 true)]

/-- Alice's lockup follows. -/
def aliceFollows : Action BothChains := .xyk ⟨"alice", []⟩ (.migrateLiquidityToPCLPools none)

theorem pcl_ledger_sample :
    LockdropPcl.Consistent (run (exec bothOutside) bothStart bobLeaves).ext.storage ∧
      KeepsStored (run (exec bothOutside) bothStart bobLeaves).ext
        (run (exec bothOutside) bothStart (bobLeaves ++ [aliceFollows])).ext ∧
      ∀ p pool, (run (exec bothOutside) bothStart
          (bobLeaves ++ [aliceFollows])).ext.storage.assetPools.mayLoad p = some pool →
        pool.amountInLockups ≤
          (run (exec bothOutside) bothStart (bobLeaves ++ [aliceFollows])).ext.ext.2.lpOf
            (pool.lpToken ++ "_pair") +
          (run (exec bothOutside) bothStart (bobLeaves ++ [aliceFollows])).ext.ext.2.deposit
            (run (exec bothOutside) bothStart
              (bobLeaves ++ [aliceFollows])).ext.storage.config.incentives pool.lpToken := by
  have hlate : Along (exec bothOutside) MigratesLate bothStart bobLeaves := by
    refine ⟨trivial, trivial, trivial, trivial, trivial, trivial, trivial, trivial, ?_, trivial,
      trivial⟩
    unfold MigratesLate
    decide +kernel
  have hgives : Along (exec bothOutside) (GivesNothing bothOutside bothLp) bothStart
      (bobLeaves ++ [aliceFollows]) := by
    refine ⟨trivial, trivial, trivial, trivial, trivial, trivial, trivial, trivial, trivial, ?_,
      trivial, trivial⟩
    -- all that Bob's unlock sends is his LP tokens
    have hsends : (LockdropPcl.World.execute bothOutside.pcl
        (run (exec bothOutside) bothStart bobMigrates).ext ⟨"bob", []⟩
        (.claimRewardsAndOptionallyUnlock .usdc 1 true)).map LockdropPcl.World.trace =
        .ok ((run (exec bothOutside) bothStart bobMigrates).ext.trace ++
          [.lpTransfer "usdc_pcl" "bob" 10]) := by
      decide +kernel
    obtain ⟨e₁, he₁, htrace⟩ := map_eq_ok.mp hsends
    intro e he
    obtain rfl := Except.ok.inj (he₁.symm.trans he)
    refine ⟨_, htrace, fun m hm p pool _ => ?_⟩
    rw [List.mem_singleton.mp hm]
    rintro ⟨t, ht, -⟩
    cases ht
  obtain ⟨hconsistent, hkeeps⟩ :=
    (pcl_ledger bothLp_honest bothOutside_leavesLp bothStart_deployed bobLeaves).1 hlate
  have hcovered := (pcl_ledger bothLp_honest bothOutside_leavesLp bothStart_deployed
    (bobLeaves ++ [aliceFollows])).2 hgives
  refine ⟨hconsistent, ?_, hcovered⟩
  rw [run_append]
  exact hkeeps aliceFollows _ trivial (ok_of_isOk _ (by decide +kernel))

/-- Bob's lockup is migrated in the lock window, the auction deletes it and locks it again, and
it is migrated once more. -/
def bobComesTwice : List (Action BothChains) :=
  bothLock ++
    [.xyk ⟨"auction", []⟩ (.increaseLockupFor "bob" .usdc 100 2), .migrate,
    .xyk ⟨"bob", []⟩ (.migrateLiquidityToPCLPools none),
    .xyk ⟨"auction", []⟩ (.increaseLockupFor "bob" .usdc 100 2),
    .xyk ⟨"auction", []⟩ (.withdrawFromLockup "bob" .usdc 1 100),
    .xyk ⟨"auction", []⟩ (.increaseLockupFor "bob" .usdc 50 1),
    .xyk ⟨"bob", []⟩ (.migrateLiquidityToPCLPools none)]

/-- The second migration overwrites the first lockup, whose units stay in the pool. -/
theorem overwritten_lockup :
    Deployed bothOutside bothStart ∧
      ∃ v, run (exec bothOutside) bothStart bobComesTwice = v ∧
        v.ext.storage.amountIn .usdc = 30 ∧ v.ext.storage.openSum .usdc = 20 ∧
        ¬ LockdropPcl.Consistent v.ext.storage := by
  refine ⟨bothStart_deployed, _, rfl, by decide +kernel, by decide +kernel, fun h => ?_⟩
  have hdiffer : (run (exec bothOutside) bothStart bobComesTwice).ext.storage.amountIn .usdc ≠
      (run (exec bothOutside) bothStart bobComesTwice).ext.storage.openSum .usdc := by
    decide +kernel
  exact hdiffer (h.amount .usdc)

end NeutronTge.Lockdrops
