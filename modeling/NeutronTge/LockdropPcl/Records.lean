import NeutronTge.LockdropPcl.Ledger

/-!
# NeutronTge.LockdropPcl.Records

The books of the PCL lockdrop and its answers about the past. Claims and exits keep them in
agreement. A migration keeps them only when nothing that is open is stored under its key, which
the PCL lockdrop does not check: it saves the lockup and adds its units to the pool and to the
user.
-/

namespace NeutronTge.LockdropPcl

open CosmWasm Astroport Shares
open Lockdrop (PoolType LockupKey)

/-! ### What the queries answer -/

/-- `query_user_lockup_total_at_height`. -/
def queryUserLockupTotalAtHeight (s : Storage) (poolType : PoolType) (user : Addr)
    (height : Nat) : Option Nat :=
  s.totalUserLockupAmount.mayLoadAtHeight (poolType, user) height

/-- `query_lockup_total_at_height`: zero where no pool is known. -/
def queryLockupTotalAtHeight (s : Storage) (poolType : PoolType) (height : Nat) : Option Nat :=
  match s.assetPools.mayLoadAtHeight poolType height with
  | some pool => some pool.amountInLockups
  | none => some 0

theorem queryLockupTotal_getD (s : Storage) (p : PoolType) (height : Nat) :
    (queryLockupTotalAtHeight s p height).getD 0 =
      (s.assetPools.mayLoadAtHeight p height).elim 0 PoolInfo.amountInLockups := by
  unfold queryLockupTotalAtHeight
  cases s.assetPools.mayLoadAtHeight p height <;> rfl

/-- The books agree: the amount of every pool is the sum of its open lockups and the sum of its
users' totals, and at every height the totals of any users that include everybody with a total
add up to the amount of the pool. -/
structure Consistent (s : Storage) : Prop where
  amount : ∀ p, s.amountIn p = s.openSum p
  total : ∀ p, s.amountIn p = s.books.totalSum p
  history : ∀ (p : PoolType) (height : Nat) (U : Finset Addr),
    (∀ u, s.totalUserLockupAmount.mayLoad (p, u) ≠ none → u ∈ U) →
      ∑ u ∈ U, (queryUserLockupTotalAtHeight s p u height).getD 0 =
        (queryLockupTotalAtHeight s p height).getD 0

/-! ### What keeps the books -/

variable {E : Type} {x : Externals E} {w w' : World E} {key : LockupKey}

/-- The books agree in the present block and before. -/
def World.Recorded (w : World E) : Prop := Shares.Recorded grouping w.storage.books w.env.height

namespace World.Recorded

theorem consistent (h : w.Recorded) : Consistent w.storage where
  amount := h.tally.amount
  total p := (h.tally.amount p).trans (h.tally.total p).symm
  history p height U hU := by
    rw [queryLockupTotal_getD]
    exact h.history p height U hU

/-- A step that the books do not notice. -/
theorem still (h : w.Recorded) (henv : w'.env = w.env) (hstill : Still w.storage w'.storage)
    (hpools : SnapshotMap.Written w.env.height w.storage.assetPools w'.storage.assetPools) :
    w'.Recorded := by
  unfold World.Recorded
  rw [henv]
  refine Shares.Recorded.step h (fun htally => ?_) hpools (.of_eq hstill.totals)
  exact htally.of_still hstill.units hstill.amount hstill.totals

/-- A step that only touches one-time rewards. -/
theorem sameBooks (h : w.Recorded) (henv : w'.env = w.env)
    (hsame : SameBooks w.storage w'.storage) : w'.Recorded :=
  h.still henv hsame.still (.of_eq hsame.assetPools)

theorem collects {p : PoolType} (h : w.Recorded) (hcollects : Collects x p w w') :
    w'.Recorded := by
  obtain ⟨henv, -⟩ := hcollects.frame
  obtain ⟨hstill, hpools⟩ := hcollects.still
  exact h.still henv hstill hpools

theorem pays {withdraw : Bool} {msgs : List CosmosMsg} {pool : PoolInfo}
    {lockup lockup' : LockupInfo} {share : Nat} {t : Storage}
    {rewardMsgs exitMsgs ntrnMsgs : List CosmosMsg} (h : w.Recorded)
    (hopen : lockup.astroportLpTransferred = none)
    (hpays : Pays x w w' key withdraw msgs pool lockup lockup' share t rewardMsgs exitMsgs
      ntrnMsgs) : w'.Recorded := by
  have hout := hpays.paysOut
  cases withdraw with
  | false =>
      obtain ⟨-, hpools, -⟩ := hout.stays
      exact h.still hpays.env hout.still (.of_eq hpools)
  | true =>
      -- the units of the lockup leave all three books
      obtain ⟨-, -, hpools, htotals, -⟩ := hout.leaves
      unfold World.Recorded
      rw [hpays.env]
      refine Shares.Recorded.step h (fun htally => htally.of_moves (hout.moves hopen)) ?_ ?_
      · show SnapshotMap.Written _ w.storage.assetPools w'.storage.assetPools
        rw [hpools]
        exact .save _ _
      · show SnapshotMap.Written _ w.storage.totalUserLockupAmount w'.storage.totalUserLockupAmount
        rw [htotals]
        exact .save _ _

/-- A migration into a key without open units. -/
theorem migrates {funds : List Coin} {userInfo : Lockdrop.UserInfo}
    {lockup : Lockdrop.LockupInfoV2} {stake : Bool} {pair : Addr} {ext : E}
    {msgs : List CosmosMsg} {prev balance : Nat} {pool : PoolInfo} {weight : Nat}
    (h : w.Recorded) (hnew : w.storage.unitsOf key = 0)
    (hmigrates : Migrates x w w' key funds userInfo lockup stake pair ext msgs prev balance pool
      weight) : w'.Recorded := by
  have hfinishes := hmigrates.finishes
  unfold World.Recorded
  rw [hmigrates.env]
  refine Shares.Recorded.step h (fun htally => htally.of_moves (hfinishes.adds.moves hnew))
    hfinishes.written ?_
  show SnapshotMap.Written _ w.storage.totalUserLockupAmount w'.storage.totalUserLockupAmount
  rw [hfinishes.totals]
  exact .save _ _

/-- A message of somebody else than the XYK lockdrop. -/
theorem execute {info : MessageInfo} {msg : ExecuteMsg} (h : w.Recorded)
    (hsender : info.sender ≠ w.storage.config.xykLockdropContract)
    (hexec : w.execute x info msg = .ok w') : w'.Recorded := by
  cases execute_effect hexec with
  | administer _ _ hsame =>
      refine h.still hsame.env ⟨fun k => ?_, fun p => ?_, hsame.totals⟩ (.of_eq hsame.assetPools)
      · exact unitsOf_congr (coreOf_congr hsame.lockupInfo k)
      · exact congrArg (fun m => (m.mayLoad p).elim 0 PoolInfo.amountInLockups) hsame.assetPools
  | migrate _ _ _ _ _ _ _ _ _ _ _ hxyk => exact absurd hxyk hsender
  | claim poolType duration withdraw r w₁ opened collect msgs pool lockup lockup' share t
      rewardMsgs exitMsgs ntrnMsgs hstarts hcollects hpays =>
      have hstart : (w.respond r).Recorded := h.sameBooks rfl hstarts.sameBooks
      -- collecting the rewards leaves the lockup that the handler loaded alone
      obtain ⟨-, hlockups, -⟩ := hcollects.frame
      have hlockup : r.storage.lockupInfo.mayLoad ⟨poolType, info.sender, duration⟩ =
          some lockup := by
        rw [← hpays.paysOut.lockup_eq, hlockups]
        rfl
      obtain rfl := Option.some.inj (hstarts.lockup_eq.symm.trans hlockup)
      exact (hstart.collects hcollects).pays hstarts.lockup_open hpays

/-- Time passes. -/
theorem later {env : Env} (h : w.Recorded) (hle : w.env.height ≤ env.height) :
    World.Recorded { w with env := env } :=
  Shares.Recorded.later h hle

/-- Right after `instantiate` the books are empty. -/
theorem of_instantiate {env : Env} {info : MessageInfo} {msg : InstantiateMsg}
    (h : instantiate env info msg = .ok w.storage) (hheight : env.height ≤ w.env.height) :
    w.Recorded := by
  have hstorage := instantiate_ok h
  have hamount : ∀ p, w.storage.amountIn p = 0 := by
    intro p
    cases hpool : w.storage.assetPools.mayLoad p with
    | none =>
        show (w.storage.assetPools.mayLoad p).elim 0 _ = 0
        rw [hpool, Option.elim_none]
    | some pool =>
        rw [amountIn_of_mayLoad hpool]
        rw [hstorage] at hpool
        rcases initialPool_ok hpool with ⟨-, rfl⟩ | ⟨-, rfl⟩ <;> rfl
  have htotals : w.storage.totalUserLockupAmount = SnapshotMap.empty := by
    rw [hstorage]
    rfl
  have hlockups : w.storage.lockupInfo = ∅ := by
    rw [hstorage]
    rfl
  have hwritten : SnapshotMap.Written env.height SnapshotMap.empty w.storage.assetPools := by
    rw [hstorage]
    exact (SnapshotMap.Written.save _ _).trans (.save _ _)
  have hbounded := hwritten.boundedBy (SnapshotMap.boundedBy_empty _)
  refine ⟨.of_empty hlockups htotals hamount, hbounded.mono hheight, ?_, fun p height U _ => ?_⟩
  · show w.storage.totalUserLockupAmount.BoundedBy _
    rw [htotals]
    exact SnapshotMap.boundedBy_empty _
  · -- at every height the pool is missing or empty
    have hnone : ∀ u, w.storage.totalUserLockupAmount.mayLoadAtHeight (p, u) height = none := by
      intro u
      rw [htotals]
      rfl
    show ∑ u ∈ U, (w.storage.totalUserLockupAmount.mayLoadAtHeight (p, u) height).getD 0 = _
    simp only [hnone, Option.getD_none, Finset.sum_const_zero]
    show 0 = (w.storage.assetPools.mayLoadAtHeight p height).elim 0 PoolInfo.amountInLockups
    rcases Nat.lt_or_ge env.height height with hlt | hle
    · rw [SnapshotMap.mayLoadAtHeight_of_lt hbounded hlt]
      exact (hamount p).symm
    · rw [hwritten.mayLoadAtHeight (SnapshotMap.boundedBy_empty _) hle]
      rfl

end World.Recorded

end NeutronTge.LockdropPcl
