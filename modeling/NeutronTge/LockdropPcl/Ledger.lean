import NeutronTge.Shares.Tally
import NeutronTge.LockdropPcl.Transactions

/-!
# NeutronTge.LockdropPcl.Ledger

The PCL lockdrop keeps the locked units in every lockup, in the pool and in a total for every
user. The three maps are the books of a `Grouping`, and every part of a transaction either
leaves them alone or moves one lockup in all three: an exit takes the units of an open lockup
away, a migration adds the units of a new one. A migration that stores a lockup over another
one adds its units as well, but forgets those of the old one.
-/

namespace NeutronTge.LockdropPcl

open CosmWasm Astroport Shares
open Lockdrop (PoolType LockupKey)

/-! ### The books -/

/-- The units of a lockup that has not left. -/
def LockupCore.openUnits (core : LockupCore) : Nat :=
  match core.astroportLpTransferred with
  | none => core.lpUnitsLocked
  | some _ => 0

theorem LockupCore.openUnits_of_open {core : LockupCore}
    (h : core.astroportLpTransferred = none) : core.openUnits = core.lpUnitsLocked := by
  simp [openUnits, h]

/-- Lockups by pool and user. -/
def grouping : Grouping LockupKey LockupInfo PoolType Addr PoolInfo where
  group := LockupKey.poolType
  owner := LockupKey.user
  units lockup := lockup.core.openUnits
  amount := PoolInfo.amountInLockups

/-- The three maps of the storage. -/
def Storage.books (s : Storage) : Accounts LockupKey LockupInfo PoolType Addr PoolInfo where
  parts := s.lockupInfo
  groups := s.assetPools
  totals := s.totalUserLockupAmount

/-- The open units stored under a key. -/
abbrev Storage.unitsOf (s : Storage) (key : LockupKey) : Nat := s.books.unitsOf grouping key

/-- The open units of a pool. -/
abbrev Storage.openSum (s : Storage) (p : PoolType) : Nat := s.books.groupSum grouping p

/-- `amount_in_lockups` of a pool. -/
abbrev Storage.amountIn (s : Storage) (p : PoolType) : Nat := s.books.amountIn grouping p

variable {s s' : Storage} {k : LockupKey} {core : LockupCore}

theorem unitsOf_eq (s : Storage) (k : LockupKey) :
    s.unitsOf k = (s.coreOf k).elim 0 LockupCore.openUnits := by
  unfold Storage.unitsOf Accounts.unitsOf Storage.coreOf
  show (s.lockupInfo.mayLoad k).elim 0 _ = _
  cases s.lockupInfo.mayLoad k <;> rfl

theorem unitsOf_of_core (h : s.coreOf k = some core) : s.unitsOf k = core.openUnits := by
  rw [unitsOf_eq, h, Option.elim_some]

theorem unitsOf_of_none (h : s.coreOf k = none) : s.unitsOf k = 0 := by
  rw [unitsOf_eq, h, Option.elim_none]

theorem unitsOf_congr (h : s'.coreOf k = s.coreOf k) : s'.unitsOf k = s.unitsOf k := by
  rw [unitsOf_eq, unitsOf_eq, h]

theorem amountIn_of_mayLoad {p : PoolType} {pool : PoolInfo}
    (h : s.assetPools.mayLoad p = some pool) : s.amountIn p = pool.amountInLockups :=
  Shares.amountIn_of_mayLoad h

theorem amountIn_of_write {p : PoolType} {pool : PoolInfo}
    (h : ∀ q, s'.assetPools.mayLoad q = if q = p then some pool else s.assetPools.mayLoad q)
    (q : PoolType) : s'.amountIn q = if q = p then pool.amountInLockups else s.amountIn q := by
  have hgroups : ∀ q, s'.books.groups.mayLoad q =
      if q = p then some pool else s.books.groups.mayLoad q := h
  exact Shares.amountIn_of_write hgroups q

/-! ### What a step does to the books -/

/-- The books are about the same. -/
structure Still (s s' : Storage) : Prop where
  units : ∀ k, s'.unitsOf k = s.unitsOf k
  amount : ∀ p, s'.amountIn p = s.amountIn p
  totals : s'.totalUserLockupAmount = s.totalUserLockupAmount

/-- A lockup with `units` open units was stored, and the pool and the user got them added. -/
structure Adds (s s' : Storage) (key : LockupKey) (units : Nat) : Prop where
  stored : s'.unitsOf key = units
  others : ∀ k, k ≠ key → s'.unitsOf k = s.unitsOf k
  amount : s'.amountIn key.poolType = s.amountIn key.poolType + units
  otherPools : ∀ p, p ≠ key.poolType → s'.amountIn p = s.amountIn p
  total : s'.books.total key.poolType key.user = s.books.total key.poolType key.user + units
  otherTotals : ∀ p u, (p, u) ≠ (key.poolType, key.user) →
    s'.books.total p u = s.books.total p u

theorem SameBooks.still (h : SameBooks s s') : Still s s' where
  units k := unitsOf_congr (h.lockups k)
  amount p := congrArg (fun m => (m.mayLoad p).elim 0 PoolInfo.amountInLockups) h.assetPools
  totals := h.totals

/-- New units cover themselves, and those of the lockup that was stored over drop out. -/
theorem Adds.openSum_le {key : LockupKey} {units amount : Nat} (h : Adds s s' key units)
    (hledger : s.openSum key.poolType ≤ amount) :
    s'.openSum key.poolType ≤ amount + units := by
  have hsum : s'.openSum key.poolType + _ = s.openSum key.poolType + _ :=
    sumWhere_move (fun k : LockupKey => k.poolType = key.poolType) h.others
  have hstored : s'.books.unitsOf grouping key = units := h.stored
  rw [if_pos rfl, if_pos rfl, hstored] at hsum
  omega

/-- New units over a lockup without open units are a move of all three books. -/
theorem Adds.moves {key : LockupKey} {units : Nat} (h : Adds s s' key units)
    (hzero : s.unitsOf key = 0) : Moves grouping s.books s'.books key units 0 where
  units := by
    have hnew := h.stored
    unfold Storage.unitsOf at hnew hzero
    omega
  others := h.others
  amount := h.amount
  otherGroups := h.otherPools
  total := h.total
  otherTotals := h.otherTotals
  minus_le := Nat.zero_le _

/-! ### The parts of a transaction -/

variable {E : Type} {x : Externals E} {w w' : World E}

theorem Books.still {q : Querier} {env : Env} {p : PoolType} {prev : List Asset}
    {pool : PoolInfo} {deposit : Nat} {perShare : RestrictedVector AssetInfo Decimal}
    (h : Books q s s' env p prev pool deposit perShare) :
    Still s s' ∧ SnapshotMap.Written env.height s.assetPools s'.assetPools := by
  obtain rfl := h.storage
  refine ⟨⟨fun _ => rfl, fun p' => ?_, rfl⟩, .save _ _⟩
  rw [amountIn_of_write (fun q => SnapshotMap.mayLoad_save_eq _ _ _ _ _)]
  split_ifs with hp
  · rw [hp, amountIn_of_mayLoad h.pool_eq]
  · rfl

theorem Collects.still {p : PoolType} (h : Collects x p w w') :
    Still w.storage w'.storage ∧
      SnapshotMap.Written w.env.height w.storage.assetPools w'.storage.assetPools := by
  cases h with
  | nothing => exact ⟨⟨fun _ => rfl, fun _ => rfl, rfl⟩, .refl⟩
  | booked _ _ _ _ _ _ _ _ _ hbooks => exact hbooks.still

section PaysOut

variable {q : Querier} {t : Storage} {height share : Nat} {key : LockupKey}
variable {withdraw : Bool} {msgs rewardMsgs exitMsgs ntrnMsgs : List CosmosMsg} {pool : PoolInfo}
variable {lockup lockup' : LockupInfo}

/-- A claim without exit. -/
theorem PaysOut.still
    (h : PaysOut q s s' height key false msgs pool lockup lockup' share t rewardMsgs exitMsgs
      ntrnMsgs) : Still s s' := by
  obtain ⟨-, hpools, htotals, -⟩ := h.stays
  obtain ⟨hkey, hothers⟩ := h.coreOf
  refine ⟨fun k => ?_, fun p => ?_, htotals⟩
  · by_cases hk : k = key
    · subst hk
      rw [unitsOf_of_core hkey, unitsOf_of_core (coreOf_of_load h.lockup_eq)]
      rfl
    · exact unitsOf_congr (hothers k hk)
  · exact congrArg (fun m => (m.mayLoad p).elim 0 PoolInfo.amountInLockups) hpools

/-- The exit of an open lockup moves its units out of all three books. -/
theorem PaysOut.moves
    (h : PaysOut q s s' height key true msgs pool lockup lockup' share t rewardMsgs exitMsgs
      ntrnMsgs) (hopen : lockup.astroportLpTransferred = none) :
    Moves grouping s.books s'.books key 0 lockup.lpUnitsLocked := by
  obtain ⟨-, hle, hpools, htotals, -⟩ := h.leaves
  obtain ⟨hkey, hothers⟩ := h.coreOf
  have hbefore : s.unitsOf key = lockup.lpUnitsLocked := by
    rw [unitsOf_of_core (coreOf_of_load h.lockup_eq)]
    exact LockupCore.openUnits_of_open hopen
  have hafter : s'.unitsOf key = 0 := by
    rw [unitsOf_of_core hkey]
    rfl
  have hamount : ∀ p, s'.amountIn p = if p = key.poolType then
      pool.amountInLockups - lockup.lpUnitsLocked else s.amountIn p := fun p =>
    amountIn_of_write (fun q => hpools ▸ SnapshotMap.mayLoad_save_eq _ _ _ _ _) p
  have hsave : s'.books.totals = s.books.totals.save _ _ _ := htotals
  have htotal := total_save hsave
  constructor
  · show s'.unitsOf key + lockup.lpUnitsLocked = s.unitsOf key + 0
    omega
  · exact fun k hk => unitsOf_congr (hothers k hk)
  · have hpool := amountIn_of_mayLoad h.pool_eq
    have hnew := hamount key.poolType
    rw [if_pos rfl] at hnew
    show s'.amountIn key.poolType + _ = s.amountIn key.poolType + 0
    omega
  · intro p hp
    exact (hamount p).trans (if_neg hp)
  · exact htotal.1
  · exact htotal.2
  · exact hbefore.ge

end PaysOut

/-- The lockup of a migration is added to all three books. -/
theorem Finishes.adds {height balance units weight : Nat} {key : LockupKey} {lpToken : Addr}
    {userInfo : Lockdrop.UserInfo} {lockup : Lockdrop.LockupInfoV2} {stake : Bool}
    {msgs : List CosmosMsg} {pool : PoolInfo}
    (h : Finishes s s' height key lpToken userInfo lockup stake msgs balance units pool weight) :
    Adds s s' key units := by
  have hcores := coreOf_save h.lockupInfo
  have hsave : s'.books.totals = s.books.totals.save _ _ _ := h.totals
  have htotal := total_save hsave
  have hamount : ∀ p, s'.amountIn p = if p = key.poolType then
      pool.amountInLockups + units else s.amountIn p := fun p =>
    amountIn_of_write h.assetPools p
  constructor
  · rw [unitsOf_of_core ((hcores key).trans (if_pos rfl))]
    rfl
  · exact fun k hk => unitsOf_congr ((hcores k).trans (if_neg hk))
  · rw [hamount, if_pos rfl, amountIn_of_mayLoad h.pool_eq]
  · exact fun p hp => (hamount p).trans (if_neg hp)
  · exact htotal.1
  · exact htotal.2

end NeutronTge.LockdropPcl
